import Orchestrator.Finality.Agreement

/-!
# Consumed Sequences

`prepareCreated` reads the Sequence of the account before it takes the slot, so an intent that was
validated in between can have used it. With honest endpoints that is the only way.

* `Enters`: the step by which an intent enters `PREPARED`;
* `ReadAt`: the account state its call has read, and the ledger it is as of;
* **`consumed_after_read`**: a validated intent with that Sequence or a higher one was included
  after the ledger that was read;
* `consumed_in_between`: and there are such intents.
-/

namespace Orchestrator

open Interleave

/-- The step moves intent `id` into `PREPARED`, as `row`. -/
def Enters (k k' : Sys) (id : String) (row : IntentRow) : Prop :=
  (∃ cur, k.state.db.find id = some cur ∧ cur.status ≠ .prepared) ∧
    k'.state.db.find id = some row ∧ row.status = .prepared

/-- Call `pid` has read the account, with its Sequence as of ledger `n` of the chain. -/
def ReadAt (k : Sys) (pid : ℕ) (account : String) (sequence n : ℕ) : Prop :=
  ∃ r info, Heard k.log pid [(.accountInfo account false, r)] ∧
    readAccountInfo r = .ok (some info) ∧ info.sequence = sequence ∧
    (info.ledgerIndex = none ∨ info.ledgerIndex = some n) ∧
    sequenceAt k.state.chain n account = some sequence

variable {P : Platform} {ok : StepCond Op Op.Ret Failure Reply Call State} {k k' : Sys}
  {a : Act Op Op.Ret Failure Reply Call} {id : String} {row : IntentRow}

/-- The call that moves an intent into `PREPARED` has read its account. -/
theorem enters_read (hjson : P.JsonbPreserves) (hk : Reach (system P) ok k)
    (hs : Step (system P) k a k') (he : Enters k k' id row) : ∃ pid l op r answer info,
      a = .op pid l op r ∧ Heard k.log pid [(.accountInfo row.sourceAccount false, answer)] ∧
      readAccountInfo answer = .ok (some info) ∧ row.sequence = some info.sequence := by
  obtain ⟨⟨cur, hf, hne⟩, hf', hst⟩ := he
  cases step_change hk hs id with
  | kept hkept =>
    obtain rfl := Option.some.inj ((hf'.symm.trans hkept).trans hf)
    exact absurd hst hne
  | touched ha hc _ _ _ ht _ hact _ hn =>
    obtain rfl := Option.some.inj (hf.symm.trans hc)
    obtain rfl := Option.some.inj (hn.symm.trans hf')
    have hst' : cur.status = .prepared := hst
    exact absurd hst' hne
  | created hn => cases hn.symm.trans hf
  | moved ha hc hid hok hle hm hfrom _ _ hn =>
    obtain rfl := Option.some.inj (hf.symm.trans hc)
    obtain rfl := Option.some.inj (hn.symm.trans hf')
    cases hm with
    | prepared t hcs hb =>
      obtain ⟨validated, _, _, r, _, _, _, hp, hq, hread, -, -, -, -, -, hseq, -⟩ := hb
      obtain ⟨payload, hcol, hacc, -⟩ := hok.payload
      have hpay := asIntentPayload_same payload (hjson payload.toJson)
      rw [← hcol, hp] at hpay
      obtain rfl := Except.ok.inj hpay
      have haccount : cur.sourceAccount = _ := hle.account.2.symm.trans hacc
      refine ⟨_, _, _, _, r, validated, ha, ?_, hread, congrArg some hseq⟩
      change Heard k.log _ [(.accountInfo cur.sourceAccount false, r)]
      rw [haccount]
      exact hq.of_sublist (by simp)
    | _ => cases hst

/-- With honest endpoints, what consumed a Sequence that was read is in a later ledger. -/
theorem consumed_later (hk : Reach (system P) (honest P) k) (hc : ConsumesSequences k)
    {o : IntentRow} (ho : o ∈ k.state.db.rows) (hst : o.status = .validated) {n sequence : ℕ}
    (hn : n < k.state.chain.length)
    (hread : sequenceAt k.state.chain n o.sourceAccount = some sequence) {consumed : ℕ}
    (hseq : o.sequence = some consumed) (hle : sequence ≤ consumed) :
    ∃ index, o.finalLedgerIndex = some index ∧ n < index := by
  obtain ⟨_, _, v, -, -, -, hhash, -⟩ := ((reach_ok hk).rows o ho).signed (.inr (.inl hst))
  rcases reach_settled hk ho hhash (by rw [hst]; rfl) with ⟨-, index, t, ht, heq, -, hidx⟩ | h
  · refine ⟨index, hidx, ?_⟩
    by_contra hlt
    have hused := hc o ho index (lt_of_mem_transactionsAt ht) t ht (heq ▸ hhash) n hn
      (not_lt.mp hlt) sequence hread consumed hseq
    exact absurd hle (not_le.mpr hused)
  · exact absurd hst h.1

/-- **Only in between.** With honest endpoints, when an intent enters `PREPARED` with a Sequence,
its call has read this Sequence as of some ledger, and every intent of the account already
recorded `VALIDATED` with this Sequence or a higher one was included after that ledger. -/
theorem consumed_after_read (P : Platform) (hjson : P.JsonbPreserves) (k k' : Sys)
    (a : Act Op Op.Ret Failure Reply Call) (id : String) (row : IntentRow)
    (hk : Reach (system P) (honestSequences P) k) (hs : Step (system P) k a k')
    (he : Enters k k' id row) : ∃ pid l op r sequence n, a = .op pid l op r ∧
      row.sequence = some sequence ∧ ReadAt k pid row.sourceAccount sequence n ∧
      ∀ o ∈ k.state.db.rows, o.status = .validated → o.networkId = row.networkId →
        o.sourceAccount = row.sourceAccount → ∀ consumed ∈ o.sequence, sequence ≤ consumed →
          ∃ index, o.finalLedgerIndex = some index ∧ n < index := by
  have hk' : Reach (system P) (honest P) k := hk.mono fun _ _ _ h => h.1
  obtain ⟨cur, hf, -⟩ := he.1
  have hmem := Db.mem_of_find hf
  obtain ⟨pid, l, op, r, answer, info, ha, hq, hread, hseq⟩ := enters_read hjson hk hs he
  obtain ⟨n, hn, hidx, hat⟩ := (reach_honest hk' hmem).account hq hread
  refine ⟨pid, l, op, r, info.sequence, n, ha, hseq, ⟨answer, info, hq, hread, rfl, hidx, hat⟩, ?_⟩
  intro o ho hst _ hacc consumed hcon hle
  exact consumed_later hk' (reach_established (fun _ _ _ h => h.2) hk hmem) ho hst hn
    (hacc.symm ▸ hat) hcon hle

/-! ## An intent that was validated in between -/

/-- Intent `i6` has read Sequence 5, and is about to take the slot; meanwhile `i5` was prepared,
signed and validated with it. -/
def Sample.between : Schedule :=
  Sample.recovered 0 3 ++ Sample.created 1 "i5" ++ Sample.created 2 "i6" ++
    [.start (.prepare "i6")] ++ Sample.tick 3 1 ++ Sample.gathered 3 5 3 ++
    Sample.prepared 4 "i5" 5 3 ++ Sample.signed 5 "i5" "05AB" 5 3 ++
    Sample.searched 6 4 (Sample.foundAnswer 5 4) ++ Sample.tick 6 2

/-- The chain that includes the transaction of `i5` in ledger 4. -/
def Sample.chain : List Ledger := List.replicate 4 Sample.before ++ [Sample.including]

/-- In the step, `i6` enters `PREPARED` with the Sequence of a validated intent. -/
def Sample.enters (k k' : Sys) : Bool :=
  (k.state.db.find "i6").any (fun cur => cur.status ≠ .prepared) &&
    (k'.state.db.find "i6").any fun row => row.status = .prepared && row.sequence = some 5 &&
      k.state.db.rows.any fun o => o.status = .validated && o.networkId = row.networkId &&
        o.sourceAccount = row.sourceAccount && o.sequence = some 5

theorem Sample.enters_cases {k k' : Sys} (h : Sample.enters k k' = true) :
    ∃ row o, Enters k k' "i6" row ∧ row.sequence = some 5 ∧ o ∈ k.state.db.rows ∧
      o.status = .validated ∧ o.networkId = row.networkId ∧ o.sourceAccount = row.sourceAccount ∧
      o.sequence = some 5 := by
  obtain ⟨h1, h2⟩ := Bool.and_eq_true_iff.mp h
  obtain ⟨cur, hf, hne⟩ := (Option.any_eq_true _ _).mp h1
  obtain ⟨row, hf', hrow⟩ := (Option.any_eq_true _ _).mp h2
  simp only [Bool.and_eq_true, decide_eq_true_eq, List.any_eq_true] at hrow hne
  obtain ⟨⟨hst, hseq⟩, o, ho, ⟨⟨hval, hnet⟩, hacc⟩, hos⟩ := hrow
  exact ⟨row, o, ⟨⟨cur, hf, hne⟩, hf', hst⟩, hseq, ho, hval, hnet, hacc, hos⟩

theorem Sample.between_step : ∃ (k : Sys) (a : Act Op Op.Ret Failure Reply Call) (k' : Sys),
    Reach (system platform) (honestSequences platform) k ∧ Step (system platform) k a k' ∧
      honestSequences platform k a k' ∧ enters k k' = true := by
  obtain ⟨k, a, k', hk, hs, hφ⟩ := exists_step_of_play platform (honestSequences platform) chain
    between (.op 3 (.time 1))
    (fun k a k' => decide (honestSequences platform k a k') && enters k k') (by decide +kernel)
  obtain ⟨hhon, hφ⟩ := Bool.and_eq_true_iff.mp hφ
  exact ⟨k, a, k', hk, hs, of_decide_eq_true hhon, hφ⟩

/-- The intent that was validated in between is in a later ledger than the one read. -/
theorem consumed_after_read_between : ∃ (k : Sys) (o : IntentRow) (pid n index : ℕ),
    o ∈ k.state.db.rows ∧ o.status = .validated ∧ ReadAt k pid o.sourceAccount 5 n ∧
      o.finalLedgerIndex = some index ∧ n < index := by
  obtain ⟨k, a, k', hk, hs, -, hφ⟩ := Sample.between_step
  obtain ⟨row, o, he, hseq, ho, hval, hnet, hacc, hos⟩ := Sample.enters_cases hφ
  obtain ⟨pid, _, _, _, sequence, n, -, hs', hread, hall⟩ := consumed_after_read Sample.platform
    Sample.jsonbPreserves k k' a "i6" row hk hs he
  obtain rfl := Option.some.inj (hseq.symm.trans hs')
  obtain ⟨index, hidx, hlt⟩ := hall o ho hval hnet hacc 5 hos le_rfl
  exact ⟨k, o, pid, n, index, ho, hval, hacc ▸ hread, hidx, hlt⟩

/-- So a Sequence that is recorded as consumed can still be prepared, by honest endpoints. -/
theorem consumed_in_between : ¬ ∀ (k k' : Sys) (a : Act Op Op.Ret Failure Reply Call) (id : String)
    (row : IntentRow), Reach (system Sample.platform) (honestSequences Sample.platform) k →
    Step (system Sample.platform) k a k' → honestSequences Sample.platform k a k' →
    Enters k k' id row → ∀ o ∈ k.state.db.rows, o.status = .validated →
    o.networkId = row.networkId → o.sourceAccount = row.sourceAccount →
    ∀ sequence ∈ row.sequence, ∀ consumed ∈ o.sequence, ¬ sequence ≤ consumed := by
  intro hevery
  obtain ⟨k, a, k', hk, hs, hhon, hφ⟩ := Sample.between_step
  obtain ⟨row, o, he, hseq, ho, hval, hnet, hacc, hos⟩ := Sample.enters_cases hφ
  exact hevery k k' a "i6" row hk hs hhon he o ho hval hnet hacc 5 hseq 5 hos
    le_rfl

end Orchestrator
