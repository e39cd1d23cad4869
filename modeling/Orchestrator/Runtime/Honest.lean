import Orchestrator.Lifecycle.Changes

/-!
# Honest endpoints

There is one growing chain of validated ledgers. An honest endpoint answers from a prefix of it,
each answer from its own; a transaction is included at most once, within its window, and never
when its blob was answered `tem*`.

* `transactionsAt`, `sequenceAt`: the chain read by ledger index;
* `Truthful`: an answer of an endpoint that holds the given ledgers;
* `Honest`, `honest`: the runs with honest endpoints;
* `ConsumesSequences`, `honestSequences`: and an included transaction uses up its Sequence;
* `Honest.found`, `Honest.absent`, `Honest.refused`: what an honest answer shows.
-/

namespace Orchestrator

open Interleave

/-- The transactions of ledger `n`. -/
def transactionsAt (chain : List Ledger) (n : ℕ) : List Inclusion :=
  match chain[n]? with
  | some ledger => ledger.transactions
  | none => []

/-- The Sequence of an account as of ledger `n`, if it exists there. -/
def sequenceAt (chain : List Ledger) (n : ℕ) (account : String) : Option ℕ :=
  chain[n]?.bind fun ledger => ledger.sequences.lookup account

variable (P : Platform)

section Truthful

variable (ledgers : List Ledger)

def TruthfulIndex : Except Failure ℕ → Prop
  | .ok n => n < ledgers.length
  | .error _ => True

def TruthfulAccount (account : String) : Except Failure (Option AccountInfo) → Prop
  | .ok (some info) => ∃ n < ledgers.length,
      (info.ledgerIndex = none ∨ info.ledgerIndex = some n) ∧
        sequenceAt ledgers n account = some info.sequence
  | .ok none => ∃ n < ledgers.length, sequenceAt ledgers n account = none
  | .error _ => True

def TruthfulSearch (hash : String) (minLedger maxLedger : ℕ) : Except Failure TxSearch → Prop
  | .ok (.found lookup _) => lookup.validated = true → ∃ n < ledgers.length,
      ∃ t ∈ transactionsAt ledgers n, t.hash = hash ∧ lookup.hash.map P.toUpperCase = some hash ∧
        lookup.ledgerIndex = some n ∧ lookup.transactionResult = some t.result
  | .ok (.absent true) => maxLedger < ledgers.length ∧ ∀ n < ledgers.length, minLedger ≤ n →
      n ≤ maxLedger → ∀ t ∈ transactionsAt ledgers n, t.hash ≠ hash
  | _ => True

/-- The answer of an endpoint whose validated ledgers are `ledgers`. A fee, an open ledger, a
simulation and a submission are not read from validated ledgers. -/
def Truthful (q : LedgerRequest) (r : LedgerResponse) : Prop :=
  match q with
  | .ledger => TruthfulIndex ledgers (readLedgerIndex r)
  | .accountInfo account false => TruthfulAccount ledgers account (readAccountInfo r)
  | .tx hash minLedger maxLedger => TruthfulSearch P ledgers hash minLedger maxLedger (readTx r)
  | _ => True

instance : ∀ x, Decidable (TruthfulIndex ledgers x)
  | .ok n => inferInstanceAs (Decidable (n < ledgers.length))
  | .error _ => isTrue trivial

instance (account : String) : ∀ x, Decidable (TruthfulAccount ledgers account x)
  | .ok (some info) => inferInstanceAs (Decidable (∃ n < ledgers.length,
      (info.ledgerIndex = none ∨ info.ledgerIndex = some n) ∧
        sequenceAt ledgers n account = some info.sequence))
  | .ok none => inferInstanceAs (Decidable (∃ n < ledgers.length,
      sequenceAt ledgers n account = none))
  | .error _ => isTrue trivial

instance (hash : String) (minLedger maxLedger : ℕ) :
    ∀ x, Decidable (TruthfulSearch P ledgers hash minLedger maxLedger x)
  | .ok (.found lookup _) => inferInstanceAs (Decidable (lookup.validated = true →
      ∃ n < ledgers.length, ∃ t ∈ transactionsAt ledgers n, t.hash = hash ∧
        lookup.hash.map P.toUpperCase = some hash ∧ lookup.ledgerIndex = some n ∧
          lookup.transactionResult = some t.result))
  | .ok (.absent true) => inferInstanceAs (Decidable (maxLedger < ledgers.length ∧
      ∀ n < ledgers.length, minLedger ≤ n → n ≤ maxLedger →
        ∀ t ∈ transactionsAt ledgers n, t.hash ≠ hash))
  | .ok (.absent false) => isTrue trivial
  | .error _ => isTrue trivial

instance (q : LedgerRequest) (r : LedgerResponse) : Decidable (Truthful P ledgers q r) :=
  match q with
  | .ledger => inferInstanceAs (Decidable (TruthfulIndex ledgers _))
  | .accountInfo _ false => inferInstanceAs (Decidable (TruthfulAccount ledgers _ _))
  | .tx _ _ _ => inferInstanceAs (Decidable (TruthfulSearch P ledgers _ _ _ _))
  | .accountInfo _ true => isTrue trivial
  | .fee => isTrue trivial
  | .simulate _ => isTrue trivial
  | .submit _ => isTrue trivial

end Truthful

/-- The entry is no answer, or a truthful answer from some prefix of the chain. -/
def FromPrefix (chain : List Ledger) (e : Entry Op Op.Ret Call) : Prop :=
  ∀ a ∈ answer? e.pid e, ∃ n ≤ chain.length, Truthful P (chain.take n) a.1 a.2

/-- The blob that the entry answers `tem*`, by its hash. -/
def malformedHash : Entry Op Op.Ret Call → Option String
  | ⟨_, _, .receive (.submit txBlob), .ok r⟩ =>
    match readSubmit txBlob r, P.hashSignedTx txBlob with
    | .ok (result, _), .ok hash => if isMalformed result then some (P.toUpperCase hash) else none
    | _, _ => none
  | _ => none

/-- What honest endpoints and their chain guarantee. -/
structure Honest (k : Sys) : Prop where
  answers : ∀ e ∈ k.log, FromPrefix P k.state.chain e
  once : ∀ i < k.state.chain.length, ∀ j < k.state.chain.length,
    ∀ t ∈ transactionsAt k.state.chain i, ∀ t' ∈ transactionsAt k.state.chain j,
      t.hash = t'.hash → i = j ∧ t = t'
  window : ∀ row ∈ k.state.db.rows, ∀ n < k.state.chain.length,
    ∀ t ∈ transactionsAt k.state.chain n, row.transactionHash = some t.hash →
      (∀ prepared ∈ row.preparedLedgerIndex, prepared < n) ∧
        ∀ last ∈ row.lastLedgerSequence, n ≤ last
  malformed : ∀ e ∈ k.log, ∀ hash ∈ malformedHash P e, ∀ n < k.state.chain.length,
    ∀ t ∈ transactionsAt k.state.chain n, t.hash ≠ hash

/-- An included transaction of an intent uses up its Sequence. -/
def ConsumesSequences (k : Sys) : Prop :=
  ∀ row ∈ k.state.db.rows, ∀ n < k.state.chain.length, ∀ t ∈ transactionsAt k.state.chain n,
    row.transactionHash = some t.hash → ∀ m < k.state.chain.length, n ≤ m →
      ∀ next ∈ sequenceAt k.state.chain m row.sourceAccount, ∀ sequence ∈ row.sequence,
        sequence < next

instance (chain : List Ledger) (e : Entry Op Op.Ret Call) : Decidable (FromPrefix P chain e) :=
  inferInstanceAs (Decidable (∀ a ∈ answer? e.pid e, _))

instance (k : Sys) : Decidable (Honest P k) :=
  decidable_of_iff (_ ∧ _ ∧ _ ∧ _) ⟨fun ⟨h1, h2, h3, h4⟩ => ⟨h1, h2, h3, h4⟩,
    fun h => ⟨h.answers, h.once, h.window, h.malformed⟩⟩

instance (k : Sys) : Decidable (ConsumesSequences k) := inferInstanceAs (Decidable (∀ row ∈ _, _))

/-- The runs in which every endpoint is honest. -/
def honest : StepCond Op Op.Ret Failure Reply Call State := fun _ _ k' => Honest P k'

def honestSequences : StepCond Op Op.Ret Failure Reply Call State :=
  fun _ _ k' => Honest P k' ∧ ConsumesSequences k'

instance (k : Sys) (a : Act Op Op.Ret Failure Reply Call) (k' : Sys) :
    Decidable (honest P k a k') := inferInstanceAs (Decidable (Honest P k'))

instance (k : Sys) (a : Act Op Op.Ret Failure Reply Call) (k' : Sys) :
    Decidable (honestSequences P k a k') :=
  inferInstanceAs (Decidable (Honest P k' ∧ ConsumesSequences k'))

/-! ## What honest answers show -/

variable {P} {chain : List Ledger} {k : Sys} {pid : ℕ}
  {qs : List (LedgerRequest × LedgerResponse)} {q : LedgerRequest} {r : LedgerResponse}

theorem transactionsAt_take {m n : ℕ} {t : Inclusion} (h : t ∈ transactionsAt (chain.take m) n) :
    n < m ∧ t ∈ transactionsAt chain n := by
  unfold transactionsAt at h ⊢
  rw [List.getElem?_take] at h
  split_ifs at h with hn
  · exact ⟨hn, h⟩
  · cases h

theorem lt_of_mem_transactionsAt {n : ℕ} {t : Inclusion} (h : t ∈ transactionsAt chain n) :
    n < chain.length := by
  unfold transactionsAt at h
  split at h
  · next ledger hl => exact (List.getElem?_eq_some_iff.mp hl).1
  · cases h

/-- An answer that was heard is truthful. -/
theorem Honest.heard (hon : Honest P k) (hq : Heard k.log pid qs) (hm : (q, r) ∈ qs) :
    ∃ n ≤ k.state.chain.length, Truthful P (k.state.chain.take n) q r := by
  obtain ⟨l, he⟩ := hq.mem hm
  exact hon.answers _ he (q, r) (by simp [answer?])

/-- A validated transaction is in the chain as it was answered. -/
theorem Honest.found (hon : Honest P k) {c : IntentRow} {hash : String} {prepared last : ℕ}
    {lookup : TxLookup} {raw : Record} (hf : FoundBy k.log pid c hash prepared last lookup raw) :
    ∃ n, ∃ t ∈ transactionsAt k.state.chain n, t.hash = hash ∧
      lookup.hash.map P.toUpperCase = some hash ∧ lookup.ledgerIndex = some n ∧
      lookup.transactionResult = some t.result := by
  obtain ⟨r, hq, hread⟩ := hf.heard
  obtain ⟨m, -, htrue⟩ := hon.heard hq List.mem_cons_self
  rw [Truthful, hread] at htrue
  obtain ⟨n, -, t, ht, h1, h2, h3, h4⟩ := htrue hf.validated
  exact ⟨n, t, (transactionsAt_take ht).2, h1, h2, h3, h4⟩

/-- An account that was read is as of some ledger of the chain. -/
theorem Honest.account (hon : Honest P k) {account : String} {info : AccountInfo}
    (hq : Heard k.log pid [(.accountInfo account false, r)])
    (hread : readAccountInfo r = .ok (some info)) : ∃ n < k.state.chain.length,
      (info.ledgerIndex = none ∨ info.ledgerIndex = some n) ∧
        sequenceAt k.state.chain n account = some info.sequence := by
  obtain ⟨m, -, htrue⟩ := hon.heard hq List.mem_cons_self
  rw [Truthful, hread] at htrue
  obtain ⟨n, hn, hidx, hseq⟩ := htrue
  rw [List.length_take, Nat.lt_min] at hn
  unfold sequenceAt at hseq ⊢
  rw [List.getElem?_take, if_pos hn.1] at hseq
  exact ⟨n, hn.2, hidx, hseq⟩

/-- A transaction proven absent from its window is not in the chain. -/
theorem Honest.absent (hon : Honest P k) {row : IntentRow} (hr : row ∈ k.state.db.rows)
    {hash : String} {prepared last sequence : ℕ} {account : Option AccountInfo}
    (ha : AbsentBy k.log pid row hash prepared last sequence account) :
    ∀ n, ∀ t ∈ transactionsAt k.state.chain n, t.hash ≠ hash := by
  intro n t ht heq
  obtain ⟨hlo, hhi⟩ := hon.window row hr n (lt_of_mem_transactionsAt ht) t ht (heq ▸ ha.hash_eq)
  have hlo := hlo prepared ha.prepared_eq
  have hhi := hhi last ha.last_eq
  obtain ⟨r₁, r₂, r₃, i, hq, -, -, hread, -⟩ := ha.heard
  obtain ⟨m, hm, htrue⟩ := hon.heard hq (q := .tx hash (prepared + 1) last) (r := r₂) (by simp)
  rw [Truthful, hread] at htrue
  obtain ⟨hlen, hnone⟩ := htrue
  have hlast : last < m := lt_of_lt_of_le hlen (List.length_take_le _ _)
  have hn : n < (k.state.chain.take m).length := lt_of_le_of_lt hhi hlen
  refine hnone n hn hlo hhi t ?_ heq
  unfold transactionsAt at ht ⊢
  rwa [List.getElem?_take, if_pos (lt_of_le_of_lt hhi hlast)]

/-- A transaction whose blob was answered `tem*` is not in the chain. -/
theorem Honest.refused (hon : Honest P k) {row : IntentRow} {l : Call} (hok : row.Ok P)
    {hash : String} (hhash : row.transactionHash = some hash) {result : SubmitResult} {raw : Record}
    (ha : AnsweredBy k.log pid l row result raw) (hm : isMalformed result = true) :
    ∀ n, ∀ t ∈ transactionsAt k.state.chain n, t.hash ≠ hash := by
  intro n t ht
  obtain ⟨-, blob, r, hblob, hq, hread⟩ := ha
  obtain ⟨l', he⟩ := hq.mem List.mem_cons_self
  have hsigned : row.signedColumns ≠ (none, none, none, none) := by
    intro hn
    cases hhash.symm.trans (congrArg (·.2.1) hn)
  obtain ⟨txBlob, prepared, v, -, hver, hb, hh, -⟩ := hok.signed (.inr (.inr hsigned))
  obtain ⟨_, _, _, _, _, _, h', -, -, -, -, -, -, -, -, -, -, hsum, hup, -⟩ := (verify_ok hver).decoded
  rw [hblob] at hb
  cases hb
  rw [hhash] at hh
  cases hh
  refine hon.malformed _ he _ ?_ n (lt_of_mem_transactionsAt ht) t ht
  simp [malformedHash, hread, hsum, hm, hup]

/-- What every step of a run establishes holds wherever there is an intent. -/
theorem reach_established {ok : StepCond Op Op.Ret Failure Reply Call State} {Φ : Sys → Prop}
    (hok : ∀ k a k', ok k a k' → Φ k') (hk : Reach (system P) ok k) {row : IntentRow}
    (hr : row ∈ k.state.db.rows) : Φ k := by
  have h : k.state.db.rows = [] ∨ Φ k := by
    refine hk.inv (P := fun k => k.state.db.rows = [] ∨ Φ k) (fun s hs => .inl ?_)
      fun _ _ _ _ _ _ h => .inr (hok _ _ _ h)
    rw [hs.1]
  rcases h with h | h
  · rw [h] at hr
    cases hr
  · exact h

/-- In a run with honest endpoints, they are honest wherever there is an intent. -/
theorem reach_honest (hk : Reach (system P) (honest P) k) {row : IntentRow}
    (hr : row ∈ k.state.db.rows) : Honest P k :=
  reach_established (fun _ _ _ h => h) hk hr

end Orchestrator
