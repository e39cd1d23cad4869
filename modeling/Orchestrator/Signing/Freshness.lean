import Orchestrator.Finality.Agreement
import Orchestrator.Signing.Admission

/-!
# Failures at signing

`attachSignature` fails an intent whose prepared Sequence differs from the one of the account. It
reads the account from the endpoint that is active then, which may be behind the one that
`prepareCreated` has read from, and does not look at how old the answer is.

* `SequencesGrow`, `NextSequence`: the Sequences along the chain;
* `CaughtUp`, `Abreast`: the answers that are not older than the prepared Sequence;
* `step_failed`: what a step of the call into `FAILED` rests on;
* **`failed_spent`**: if the answers are not older, the Sequence is spent;
* `failed_unspent`: an answer that is one ledger older fails an intent whose Sequence is free.
-/

namespace Orchestrator

open Interleave

/-- The Sequence of an account never falls from a ledger to a later one. -/
def SequencesGrow (chain : List Ledger) : Prop :=
  ∀ m < chain.length, ∀ n < chain.length, m ≤ n → ∀ ledger ∈ chain[m]?, ∀ e ∈ ledger.sequences,
    ∀ sequence ∈ sequenceAt chain m e.1, ∀ later ∈ sequenceAt chain n e.1, sequence ≤ later

instance (chain : List Ledger) : Decidable (SequencesGrow chain) :=
  inferInstanceAs (Decidable (∀ m < chain.length, _))

/-- The next Sequence of the account, as of the last validated ledger. -/
def NextSequence (chain : List Ledger) (account : String) (sequence : ℕ) : Prop :=
  sequenceAt chain (chain.length - 1) account = some sequence

instance (chain : List Ledger) (account : String) (sequence : ℕ) :
    Decidable (NextSequence chain account sequence) :=
  inferInstanceAs (Decidable (sequenceAt _ _ _ = _))

section Chain

variable {chain : List Ledger} {account : String} {m n sequence later : ℕ}

theorem lt_of_sequenceAt (h : sequenceAt chain n account = some sequence) : n < chain.length := by
  obtain ⟨ledger, hl, -⟩ := Option.bind_eq_some_iff.mp h
  exact (List.getElem?_eq_some_iff.mp hl).1

theorem SequencesGrow.le (hg : SequencesGrow chain) (hmn : m ≤ n)
    (hm : sequenceAt chain m account = some sequence)
    (hn : sequenceAt chain n account = some later) : sequence ≤ later := by
  obtain ⟨ledger, hl, hlookup⟩ := Option.bind_eq_some_iff.mp hm
  obtain ⟨before, after, hsplit, -⟩ := List.lookup_eq_some_iff.mp hlookup
  exact hg m (lt_of_sequenceAt hm) n (lt_of_sequenceAt hn) hmn ledger hl (account, sequence)
    (hsplit ▸ by simp) sequence hm later hn

/-- What is above a Sequence stays above it. -/
theorem SequencesGrow.spent (hg : SequencesGrow chain)
    (hn : sequenceAt chain n account = some later) (hlt : sequence < later) :
    ¬ NextSequence chain account sequence := fun hnext =>
  absurd (hg.le (Nat.le_sub_one_of_lt (lt_of_sequenceAt hn)) hn hnext) (not_le.mpr hlt)

end Chain

/-- The account is as of a ledger no older than one in which it has the prepared Sequence. -/
def CaughtUp (chain : List Ledger) (row : IntentRow) (info : AccountInfo) : Prop :=
  ∀ sequence ∈ row.sequence, ∃ n < chain.length,
    (info.ledgerIndex = none ∨ info.ledgerIndex = some n) ∧
      sequenceAt chain n row.sourceAccount = some info.sequence ∧
      ∃ m ≤ n, sequenceAt chain m row.sourceAccount = some sequence

instance (chain : List Ledger) (row : IntentRow) (info : AccountInfo) :
    Decidable (CaughtUp chain row info) :=
  inferInstanceAs (Decidable (∀ sequence ∈ row.sequence, _))

/-- The account that an answer to `attachSignature` shows, and the intent it is called for. -/
def signingRead : Entry Op Op.Ret Call → Option (String × AccountInfo)
  | ⟨_, .attachSignature id _, .receive (.accountInfo _ false), .ok r⟩ =>
    match readAccountInfo r with
    | .ok (some info) => some (id, info)
    | _ => none
  | _ => none

/-- Every account that `attachSignature` has read is caught up with its intent. -/
def Abreast (k : Sys) : Prop :=
  ∀ e ∈ k.log, ∀ read ∈ signingRead e, ∀ row ∈ k.state.db.find read.1,
    CaughtUp k.state.chain row read.2

instance (k : Sys) : Decidable (Abreast k) := inferInstanceAs (Decidable (∀ e ∈ k.log, _))

section Conditions

variable (P : Platform)

/-- The runs with honest endpoints on a chain whose Sequences grow. -/
def growing : StepCond Op Op.Ret Failure Reply Call State :=
  fun _ _ k' => Honest P k' ∧ SequencesGrow k'.state.chain

/-- And no endpoint answers `attachSignature` from behind the prepared Sequence. -/
def abreast : StepCond Op Op.Ret Failure Reply Call State :=
  fun k a k' => growing P k a k' ∧ Abreast k'

instance (k : Sys) (a : Act Op Op.Ret Failure Reply Call) (k' : Sys) :
    Decidable (growing P k a k') :=
  inferInstanceAs (Decidable (Honest P k' ∧ SequencesGrow k'.state.chain))

instance (k : Sys) (a : Act Op Op.Ret Failure Reply Call) (k' : Sys) :
    Decidable (abreast P k a k') :=
  inferInstanceAs (Decidable (growing P k a k' ∧ Abreast k'))

end Conditions

section Runs

variable {P : Platform} {ok : StepCond Op Op.Ret Failure Reply Call State} {k k' : Sys} {pid : ℕ}
  {id txBlob called : String} {op : Op} {r : op.Ret} {cur row : IntentRow}

/-- **A step of `attachSignature` into `FAILED`** rests on an account that it has read, with
another Sequence than the prepared one. -/
theorem step_failed (hk : Reach (system P) ok k)
    (hs : Step (system P) k (.op pid (.attachSignature called txBlob) op r) k')
    (hf : k.state.db.find id = some cur) (hne : cur.status ≠ .failed)
    (hf' : k'.state.db.find id = some row) (hst : row.status = .failed) :
    called = id ∧ ∃ answer info sequence, row.sequence = some sequence ∧
      cur.sequence = some sequence ∧ row.sourceAccount = cur.sourceAccount ∧
      row.failureCode = some (sequenceChangedCode info.sequence sequence) ∧
      Heard k.log pid [(.accountInfo cur.sourceAccount false, answer)] ∧
      readAccountInfo answer = .ok (some info) ∧ info.sequence ≠ sequence := by
  have hop := hk.performs (performs_attachSignature P called txBlob) hs
  cases step_change hk hs id with
  | kept he =>
    obtain rfl := Option.some.inj ((hf'.symm.trans he).trans hf)
    exact absurd hst hne
  | touched _ hc _ _ _ _ _ _ _ hn =>
    obtain rfl := Option.some.inj (hf.symm.trans hc)
    obtain rfl := Option.some.inj (hn.symm.trans hf')
    exact absurd hst hne
  | created hn => cases hn.symm.trans hf
  | @moved pid l request c cur' t ha hc hid _ hle hm _ _ _ hn =>
    obtain rfl := Option.some.inj (hf.symm.trans hc)
    obtain rfl := Option.some.inj (hn.symm.trans hf')
    cases ha
    obtain ⟨request, heq, hfrom⟩ := hop rfl
    cases heq
    cases hm with
    | @sequenceChanged account last n sequence verified hcst _ hseq hread _ _ _ hdiff =>
      have hcols := hle.prepared (by rw [hcst]; decide)
      simp only [IntentRow.preparedColumns, Prod.mk.injEq] at hcols
      have hcur : cur.sequence = some sequence := hcols.2.2.2.1 ▸ hseq
      obtain ⟨answer, hanswer, hor⟩ := hread
      refine ⟨rfl, answer, account, sequence, hcur, hcur, rfl, rfl, ?_, hanswer, hdiff⟩
      rw [← hle.account.2]
      rcases hor with ⟨-, hq⟩ | ⟨_, -, -, hq⟩
      · exact hq
      · exact hq.of_sublist (by simp)
    | signatureExpired | signed => cases hst
    | _ => cases hfrom

/-- An operation leaves the chain as it is. -/
theorem step_chain (hk : Reach (system P) ok k) {l : Call}
    (hs : Step (system P) k (.op pid l op r) k') : k'.state.chain = k.state.chain := by
  obtain ⟨-, ⟨_, hx⟩, -⟩ := reach_permit hk hs
  exact perform_chain hx

/-- In a run under the condition, it holds wherever there is an intent. -/
theorem reach_abreast (hk : Reach (system P) (abreast P) k) (hr : row ∈ k.state.db.rows) :
    (Honest P k ∧ SequencesGrow k.state.chain) ∧ Abreast k :=
  @reach_established P k (abreast P)
    (fun k => (Honest P k ∧ SequencesGrow k.state.chain) ∧ Abreast k) (fun _ _ _ h => h) hk row hr

end Runs

/-- **No false failure at signing.** In every run with honest endpoints none of which answers
`attachSignature` from behind the prepared Sequence: where a step of the call moves an intent to
`FAILED`, its Sequence is no longer the next one of the account. -/
theorem failed_spent (P : Platform) (k k' : Sys) (hk : Reach (system P) (abreast P) k) (pid : ℕ)
    (called txBlob id : String) (op : Op) (r : op.Ret) (cur row : IntentRow)
    (hs : Step (system P) k (.op pid (.attachSignature called txBlob) op r) k')
    (hf : k.state.db.find id = some cur) (hne : cur.status ≠ .failed)
    (hf' : k'.state.db.find id = some row) (hst : row.status = .failed) :
    ∃ sequence, row.sequence = some sequence ∧
      ¬ NextSequence k'.state.chain row.sourceAccount sequence := by
  obtain ⟨rfl, answer, info, sequence, hseq, hcur, hacc, -, hq, hread, hdiff⟩ :=
    step_failed hk hs hf hne hf' hst
  obtain ⟨⟨-, hgrow⟩, hfresh⟩ := reach_abreast hk (Db.mem_of_find hf)
  obtain ⟨l, he⟩ := hq.mem List.mem_cons_self
  obtain rfl := hk.step_label hs he rfl
  have hsign : (called, info) ∈ signingRead ⟨pid, .attachSignature called txBlob,
      .receive (.accountInfo cur.sourceAccount false), .ok answer⟩ := by
    simp [signingRead, hread]
  obtain ⟨n, -, -, hat, m, hmn, hprepared⟩ := hfresh _ he _ hsign cur hf sequence hcur
  have hlt : sequence < info.sequence := lt_of_le_of_ne (hgrow.le hmn hprepared hat) hdiff.symm
  refine ⟨sequence, hseq, ?_⟩
  rw [step_chain hk hs, hacc]
  exact hgrow.spent hat hlt

/-! ## An answer from one ledger back -/

namespace Sample

/-- Intent `i6` has been prepared with Sequence 6 at ledger 1; the answer to `attachSignature`
has Sequence `n`, as of ledger `m`. -/
def signing (n m : ℕ) : Schedule :=
  recovered 0 1 ++ created 1 "i6" ++ prepared 2 "i6" 6 1 ++
    [.start (.attachSignature "i6" "06AB")] ++ tick 3 2 ++ told 3 (accountAnswer n m)

/-- The chain on which the account has Sequences 5, 6 and so on up to the given length. -/
def sequences (length : ℕ) : List Ledger :=
  (List.range length).map fun n => ⟨[], [("rA", n + 5)]⟩

/-- An operation of `attachSignature`. -/
def attaches : Act Op Op.Ret Failure Reply Call → Bool
  | .op _ (.attachSignature _ _) _ _ => true
  | _ => false

/-- The step moves `i6` to `FAILED`. -/
def fails (φ : Sys → IntentRow → Bool) (k : Sys) (a : Act Op Op.Ret Failure Reply Call)
    (k' : Sys) : Bool :=
  attaches a && (k.state.db.find "i6").any (fun cur => cur.status ≠ .failed) &&
    (k'.state.db.find "i6").any fun row => row.status = .failed && φ k' row

theorem attaches_cases {a : Act Op Op.Ret Failure Reply Call} (h : attaches a = true) :
    ∃ pid called txBlob op r, a = .op pid (.attachSignature called txBlob) op r := by
  unfold attaches at h
  split at h
  · exact ⟨_, _, _, _, _, rfl⟩
  · cases h

theorem fails_cases {φ : Sys → IntentRow → Bool} {k k' : Sys}
    {a : Act Op Op.Ret Failure Reply Call} (h : fails φ k a k' = true) :
    ∃ pid called txBlob op r cur row, a = .op pid (.attachSignature called txBlob) op r ∧
      k.state.db.find "i6" = some cur ∧ cur.status ≠ .failed ∧
      k'.state.db.find "i6" = some row ∧ row.status = .failed ∧ φ k' row = true := by
  simp only [fails, Bool.and_eq_true] at h
  obtain ⟨⟨ha, hcur⟩, hrow⟩ := h
  obtain ⟨pid, called, txBlob, op, r, rfl⟩ := attaches_cases ha
  obtain ⟨cur, hf, hne⟩ := (Option.any_eq_true _ _).mp hcur
  obtain ⟨row, hf', hφ⟩ := (Option.any_eq_true _ _).mp hrow
  obtain ⟨hst, hφ⟩ := Bool.and_eq_true_iff.mp hφ
  exact ⟨pid, called, txBlob, op, r, cur, row, rfl, hf, of_decide_eq_true hne, hf',
    of_decide_eq_true hst, hφ⟩

end Sample

/-- Without the condition: prepared with Sequence 6 at ledger 1, answered with Sequence 5 as of
ledger 0 by an honest endpoint that is one ledger behind, the intent ends in `FAILED`, although 6 is
the next Sequence and the window is open. -/
theorem failed_unspent : ∃ (k k' : Sys) (pid : ℕ) (called txBlob id : String) (op : Op) (r : op.Ret)
    (cur row : IntentRow) (sequence last : ℕ),
    Reach (system Sample.platform) (growing Sample.platform) k ∧
    Step (system Sample.platform) k (.op pid (.attachSignature called txBlob) op r) k' ∧
    growing Sample.platform k (.op pid (.attachSignature called txBlob) op r) k' ∧
    k.state.db.find id = some cur ∧ cur.status ≠ .failed ∧
    k'.state.db.find id = some row ∧ row.status = .failed ∧
    row.failureCode = some .sequenceRegression ∧ row.sequence = some sequence ∧
    NextSequence k'.state.chain row.sourceAccount sequence ∧
    row.lastLedgerSequence = some last ∧ k'.state.chain.length ≤ last := by
  obtain ⟨k, a, k', hk, hs, hφ⟩ := exists_step_of_play Sample.platform (growing Sample.platform)
    (Sample.sequences 2) (Sample.signing 5 0) (.op 3 (.time 1))
    (fun k a k' => decide (growing Sample.platform k a k') && Sample.fails (fun k row =>
      row.failureCode = some .sequenceRegression && row.sequence = some 6 &&
        decide (NextSequence k.state.chain row.sourceAccount 6) &&
        row.lastLedgerSequence = some 21 && k.state.chain.length ≤ 21) k a k')
    (by decide +kernel)
  obtain ⟨hcond, hφ⟩ := Bool.and_eq_true_iff.mp hφ
  obtain ⟨pid, called, txBlob, op, r, cur, row, rfl, hf, hne, hf', hst, hrow⟩ :=
    Sample.fails_cases hφ
  simp only [Bool.and_eq_true, decide_eq_true_eq] at hrow
  obtain ⟨⟨⟨⟨hcode, hseq⟩, hnext⟩, hlast⟩, hopen⟩ := hrow
  exact ⟨k, k', pid, called, txBlob, "i6", op, r, cur, row, 6, 21, hk, hs,
    of_decide_eq_true hcond, hf, hne, hf', hst, hcode, hseq, hnext, hlast, hopen⟩

/-- The account has spent Sequence 6 before the signature for it arrives. -/
theorem failed_spent_meanwhile : ∃ (k' : Sys) (row : IntentRow) (sequence : ℕ),
    k'.state.db.find "i6" = some row ∧ row.status = .failed ∧ row.sequence = some sequence ∧
      ¬ NextSequence k'.state.chain row.sourceAccount sequence := by
  obtain ⟨k, a, k', hk, hs, hφ⟩ := exists_step_of_play Sample.platform (abreast Sample.platform)
    (Sample.sequences 3) (Sample.signing 7 2) (.op 3 (.time 1)) (Sample.fails fun _ _ => true)
    (by decide +kernel)
  obtain ⟨pid, called, txBlob, op, r, cur, row, rfl, hf, hne, hf', hst, -⟩ := Sample.fails_cases hφ
  obtain ⟨sequence, hseq, hnext⟩ := failed_spent Sample.platform k k' hk pid called txBlob "i6" op r
    cur row hs hf hne hf' hst
  exact ⟨k', row, sequence, hf', hst, hseq, hnext⟩

end Orchestrator
