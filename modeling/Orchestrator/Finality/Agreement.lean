import Orchestrator.Finality.Grounds
import Orchestrator.Runtime.Honest

/-!
# Agreement with the ledger

With honest endpoints, the recorded outcome of a signed intent is the ledger's own.

* `Included`, `Dead`: what the chain says about a hash, now and in every later configuration;
* `Honest.settled`: what the grounds of an outcome mean for the chain;
* **`ledger_agreement`**.
-/

namespace Orchestrator

open Interleave

variable (P : Platform)

/-- The chain holds the transaction of the row, with the recorded result and ledger index. -/
def Included (k : Sys) (row : IntentRow) (hash : String) : Prop :=
  ∃ index, ∃ t ∈ transactionsAt k.state.chain index, t.hash = hash ∧
    row.finalResult = some t.result ∧ row.finalLedgerIndex = some index

/-- The chain does not hold the transaction, and never will. -/
def Dead (k : Sys) (hash : String) : Prop :=
  ∀ k', Runs (system P) (honest P) k k' → ∀ index, ∀ t ∈ transactionsAt k'.state.chain index,
    t.hash ≠ hash

variable {P} {k : Sys} {row : IntentRow} {hash : String}

/-- A validated answer of an honest endpoint is consistent, and its result is final. -/
theorem Honest.not_refused (hon : Honest P k) (hr : row ∈ k.state.db.rows) {pid : ℕ}
    {prepared last : ℕ} {lookup : TxLookup} {raw : Record}
    (hf : FoundBy k.log pid row hash prepared last lookup raw) :
    ∃ index result, lookup.ledgerIndex = some index ∧ lookup.transactionResult = some result ∧
      isConsistent P lookup hash prepared index last = true ∧ isFinalResult result = true := by
  obtain ⟨n, t, ht, rfl, hhash, hindex, hresult⟩ := hon.found hf
  obtain ⟨hlo, hhi⟩ := hon.window row hr n (lt_of_mem_transactionsAt ht) t ht hf.hash_eq
  refine ⟨n, t.result, hindex, hresult, isConsistent_iff.mpr ⟨hhash, ?_, ?_⟩, t.applied⟩
  · exact hlo prepared hf.prepared_eq
  · exact hhi last hf.last_eq

/-- **What a backed outcome means**: the transaction is in the chain as recorded, or it is not in
the chain. -/
theorem Honest.settled (hon : Honest P k) (hr : row ∈ k.state.db.rows) (hok : row.Ok P)
    (hhash : row.transactionHash = some hash) (hb : Backed P k.log row) :
    (row.status = .validated ∧ Included k row hash) ∨
      (row.status ≠ .validated ∧ ∀ index, ∀ t ∈ transactionsAt k.state.chain index,
        t.hash ≠ hash) := by
  cases hb with
  | validated hst hf hidx _ hres _ hfr hfi =>
    obtain rfl := Option.some.inj (hf.hash_eq.symm.trans hhash)
    obtain ⟨n, t, ht, heq, -, hindex, hresult⟩ := hon.found hf
    rw [hidx] at hindex
    rw [hres] at hresult
    cases hindex
    cases hresult
    exact .inl ⟨hst, _, t, ht, heq, hfr, hfi⟩
  | refused hst hf hnot =>
    obtain ⟨index, result, hidx, hres, hcon, hfin⟩ := hon.not_refused hr hf
    rcases hnot index result hidx hres with h | h
    · exact absurd (hcon.symm.trans h) (by decide)
    · exact absurd (hfin.symm.trans h) (by decide)
  | absent hst ha =>
    obtain rfl := Option.some.inj (ha.hash_eq.symm.trans hhash)
    exact .inr ⟨by rcases hst with h | h <;> rw [h] <;> decide, hon.absent hr ha⟩
  | malformed hst ha hm =>
    exact .inr ⟨by rw [hst]; decide, hon.refused hok hhash ha hm⟩

/-- The outcome of a settled intent, wherever the run has led to. -/
theorem reach_settled (hk : Reach (system P) (honest P) k) (hr : row ∈ k.state.db.rows)
    (hhash : row.transactionHash = some hash) (hterm : isTerminal row.status = true) :
    (row.status = .validated ∧ Included k row hash) ∨
      (row.status ≠ .validated ∧ ∀ index, ∀ t ∈ transactionsAt k.state.chain index,
        t.hash ≠ hash) :=
  (reach_honest hk hr).settled hr ((reach_ok hk).rows row hr) hhash
    (reach_backed hk hr (by rw [hhash]; rfl) hterm)

/-- A settled row is still there, unchanged, in every later configuration. -/
theorem runs_settled {ok : StepCond Op Op.Ret Failure Reply Call State} {k' : Sys}
    (hk : Reach (system P) ok k) (hr : row ∈ k.state.db.rows)
    (hterm : isTerminal row.status = true) (hruns : Runs (system P) ok k k') :
    row ∈ k'.state.db.rows := by
  obtain ⟨row', hf, hle⟩ := (runs_rely hk hruns).1 _ _ ((reach_ok hk).ids row hr)
  rw [hle.eq_of_isTerminal hterm]
  exact Db.mem_of_find hf

theorem reach_dead (hk : Reach (system P) (honest P) k) (hr : row ∈ k.state.db.rows)
    (hhash : row.transactionHash = some hash) (hterm : isTerminal row.status = true)
    (hne : row.status ≠ .validated) : Dead P k hash := by
  intro k' hruns
  rcases reach_settled (hk.runs hruns) (runs_settled hk hr hterm hruns) hhash hterm with h | h
  · exact absurd h.1 hne
  · exact h.2

/-- **Ledger agreement.** With honest endpoints, in every run, an intent with a stored hash that is
`VALIDATED` is in the chain with the recorded result and index; one that is `EXPIRED`, `FAILED` or
`REJECTED` is not in the chain and never will be; and one that has left the sequence-active
statuses is the one or the other. -/
theorem ledger_agreement (P : Platform) (k : Sys) (hk : Reach (system P) (honest P) k)
    (row : IntentRow) (hr : row ∈ k.state.db.rows) (hash : String)
    (hhash : row.transactionHash = some hash) :
    (row.status = .validated → Included k row hash) ∧
    (row.status ∈ [Status.expired, .failed, .rejected] → Dead P k hash) ∧
    (row.status ∉ sequenceActiveStatuses → Included k row hash ∨ Dead P k hash) := by
  have hval : row.status = .validated → Included k row hash := by
    intro hst
    rcases reach_settled hk hr hhash (by rw [hst]; rfl) with h | h
    · exact h.2
    · exact absurd hst h.1
  have hdead : row.status ∈ [Status.expired, .failed, .rejected] → Dead P k hash := by
    intro hst
    have h : ∀ s ∈ [Status.expired, .failed, .rejected], isTerminal s = true ∧ s ≠ .validated := by
      decide
    exact reach_dead hk hr hhash (h _ hst).1 (h _ hst).2
  refine ⟨hval, hdead, fun hst => ?_⟩
  have hcreated : row.status ≠ .created := by
    intro hc
    have h := congrArg (·.2.1) (((reach_ok hk).rows row hr).unsigned (.inl hc)).1
    cases hhash.symm.trans h
  have hcases : ∀ s : Status, s ≠ .created → s ∉ sequenceActiveStatuses →
      s = .validated ∨ s ∈ [Status.expired, .failed, .rejected] := by decide
  rcases hcases _ hcreated hst with h | h
  · exact .inl (hval h)
  · exact .inr (hdead h)

/-- A ledger in which `rA` has its next Sequence 5, and one that includes the transaction. -/
def Sample.before : Ledger := ⟨[], [("rA", 5)]⟩

def Sample.including : Ledger := ⟨[⟨Sample.hash 5, "tesSUCCESS", by decide⟩], [("rA", 6)]⟩

/-- An intent prepared and signed at ledger 3 and found in ledger 4, by honest endpoints. -/
theorem ledger_agreement_found : ∃ (k : Sys) (row : IntentRow),
    row ∈ k.state.db.rows ∧ row.status = .validated ∧ Included k row (Sample.hash 5) := by
  obtain ⟨k, -, hk, hφ⟩ := exists_of_play Sample.platform (honest Sample.platform)
    (List.replicate 4 Sample.before ++ [Sample.including])
    (Sample.signedIntent 3 ++ Sample.searched 4 4 (Sample.foundAnswer 5 4) ++ Sample.tick 4 2)
    (fun k => k.state.db.rows.any fun r =>
      r.status = .validated && r.transactionHash = some (Sample.hash 5)) (by decide +kernel)
  obtain ⟨row, hr, hrow⟩ := List.any_eq_true.mp hφ
  obtain ⟨hst, hhash⟩ : row.status = .validated ∧ row.transactionHash = some (Sample.hash 5) := by
    simpa using hrow
  exact ⟨k, row, hr, hst, (ledger_agreement _ k hk row hr _ hhash).1 hst⟩

end Orchestrator
