import Orchestrator.Finality.Grounds
import Orchestrator.Finality.Operations

/-!
# Justified finality

No answer of an endpoint is trusted. `resolveSigned` writes nothing but a transition of its row
out of `SIGNED` or `SUBMITTED`, and each of these has its evidence among the answers that the same
call has received.

* `SettlesOnly`: what resolving a signed intent can write;
* `Justified`: the evidence behind each of its transitions;
* **`justified_finality`**.
-/

namespace Orchestrator

open Interleave

variable (P : Platform)

/-! ## What can be written -/

/-- Every write is a transition of `row` out of the signed statuses. -/
def SettlesOnly (row : IntentRow) (op : Op) : Prop :=
  op.writes = true → ∃ request, op = .transition row.id request ∧
    request.fromStatuses = signedActiveStatuses

variable {P}

theorem settlesOnly_resolving (row : IntentRow) : Resolving (SettlesOnly row) row where
  send _ _ := nofun
  receive _ _ := nofun
  switchEndpoint _ := nofun
  now := nofun
  transition request hcon _ := ⟨request, rfl, hcon.signed⟩

/-! ## What it rests on -/

section Justified

variable (P) (h : History) (pid : ℕ) (c : IntentRow) (request : TransitionRequest)

/-- `VALIDATED`, with the columns of the answer that shows it. -/
def JustifiedValidated : Prop :=
  ∃ hash prepared last lookup raw result index t, FoundBy h pid c hash prepared last lookup raw ∧
    lookup.ledgerIndex = some index ∧ lookup.hash.map P.toUpperCase = some hash ∧
    prepared < index ∧ index ≤ last ∧ lookup.transactionResult = some result ∧
    isFinalResult result = true ∧ request = validatedRequest P lookup raw result index t

/-- `EXPIRED`, `SEQUENCE_CONFLICT` or `SEQUENCE_REGRESSION`, by the Sequence of the account: one that
exists was read from a validated ledger beyond the window. -/
def JustifiedAbsent : Prop :=
  ∃ hash prepared last sequence account, AbsentBy h pid c hash prepared last sequence account ∧
    ((account.map (·.sequence) = some sequence ∧ request = absentRequest last sequence) ∨
      ((∀ a, account = some a → a.sequence > sequence) ∧ request =
        failRequest .sequenceConflict (sequenceDetails sequence (account.map (·.sequence)))) ∨
      ∃ a, account = some a ∧ a.sequence < sequence ∧
        request = failRequest .sequenceRegression (sequenceDetails sequence (some a.sequence)))

/-- `FINALITY_INTEGRITY_ERROR` or `UNEXPECTED_VALIDATED_RESULT`: a validated answer that is not
about the stored transaction in its range, or whose result is none of a validated ledger. -/
def JustifiedRefused : Prop :=
  ∃ hash prepared last lookup raw, FoundBy h pid c hash prepared last lookup raw ∧
    (((∀ index, lookup.ledgerIndex = some index →
        ¬ (lookup.hash.map P.toUpperCase = some hash ∧ prepared < index ∧ index ≤ last)) ∧
      request = failRequest .finalityIntegrityError (integrityDetails lookup)) ∨
    ((∀ result, lookup.transactionResult = some result → isFinalResult result = false) ∧
      request = failRequest .unexpectedValidatedResult
        [("finalResult", strOrNull lookup.transactionResult)]))

end Justified

/-- **A transition out of the signed statuses has its evidence.** -/
theorem Move.justified {h : History} {pid : ℕ} {l : Call} {c : IntentRow}
    {request : TransitionRequest} (hm : Move P h pid l c request)
    (hfrom : request.fromStatuses = signedActiveStatuses) :
    JustifiedValidated P h pid c request ∨ JustifiedAbsent h pid c request ∨
      JustifiedRefused P h pid c request := by
  cases hm with
  | prepared | windowExpired | mismatch | simulated | simulationPassed | simulationRejected
  | signatureExpired | sequenceChanged | signed | malformed | submitted | unsignedExpired =>
    cases hfrom
  | validated t hs hf hidx hcon hres hfin =>
    obtain ⟨h1, h2, h3⟩ := isConsistent_iff.mp hcon
    exact .inl ⟨_, _, _, _, _, _, _, t, hf, hidx, h1, h2, h3, hres, hfin, rfl⟩
  | inconsistent hs hf hcon =>
    refine .inr (.inr ⟨_, _, _, _, _, hf, .inl ⟨fun index hidx h => ?_, rfl⟩⟩)
    exact absurd (isConsistent_iff.mpr h) (by simp [hcon index hidx])
  | unexpected hs hf hidx hcon hres =>
    exact .inr (.inr ⟨_, _, _, _, _, hf, .inr ⟨hres, rfl⟩⟩)
  | absent hs ha heq => exact .inr (.inl ⟨_, _, _, _, _, ha, .inl ⟨heq, rfl⟩⟩)
  | sequenceConflict hs ha hgt => exact .inr (.inl ⟨_, _, _, _, _, ha, .inr (.inl ⟨hgt, rfl⟩)⟩)
  | sequenceRegression hs ha hlt =>
    exact .inr (.inl ⟨_, _, _, _, _, ha, .inr (.inr ⟨_, rfl, hlt, rfl⟩)⟩)

/-- **Justified finality.** Resolving a signed intent writes at most transitions of its row out of
the signed statuses, and in every run each of these rests on the answers of the call that asks for
it: `VALIDATED` on a consistent validated answer; `EXPIRED`, `SEQUENCE_CONFLICT` and
`SEQUENCE_REGRESSION` on the passed window, the complete search and the account, read beyond the
window where it exists; any other failure on a validated answer that contradicts the stored
transaction. -/
theorem justified_finality (P : Platform) :
    (∀ row n switchBudget, (resolveSigned P row n switchBudget).Performs (SettlesOnly row)) ∧
    ∀ (ok : StepCond Op Op.Ret Failure Reply Call State) (k k' : Sys) (pid : ℕ) (l : Call)
      (id : String) (request : TransitionRequest) (r : Op.Ret (.transition id request)),
      Reach (system P) ok k → Step (system P) k (.op pid l (.transition id request) r) k' →
      request.fromStatuses = signedActiveStatuses →
      ∃ c, c.id = id ∧ Copy P k.state.db c ∧ (JustifiedValidated P k.log pid c request ∨
        JustifiedAbsent k.log pid c request ∨ JustifiedRefused P k.log pid c request) := by
  refine ⟨fun row n switchBudget => (settlesOnly_resolving row).resolveSigned n switchBudget, ?_⟩
  intro ok k k' pid l id request r hk hs hfrom
  obtain ⟨c, hc, hid, hm⟩ := (reach_permit hk hs).1
  exact ⟨c, hid, hc, hm.justified hfrom⟩

/-- The reason of a transition out of the signed statuses, when the step is one. -/
def settledReason : Act Op Op.Ret Failure Reply Call → Option TransitionReason
  | .op _ _ (.transition _ request) _ =>
    if request.fromStatuses = signedActiveStatuses then some request.reason else none
  | _ => none

theorem settledReason_some {a : Act Op Op.Ret Failure Reply Call} {reason : TransitionReason}
    (h : settledReason a = some reason) : ∃ pid l id request r,
      a = .op pid l (.transition id request) r ∧ request.fromStatuses = signedActiveStatuses ∧
        request.reason = reason := by
  unfold settledReason at h
  split at h
  · next pid l id request r =>
    split_ifs at h with hfrom
    exact ⟨pid, l, id, request, r, rfl, hfrom, Option.some.inj h⟩
  · cases h

/-- An intent found in ledger 4: its transition to `VALIDATED` is justified. -/
theorem justified_finality_found : ∃ (k : Sys) (pid : ℕ) (id : String) (request : TransitionRequest)
    (c : IntentRow), request.reason = .transactionValidated ∧ c.id = id ∧
      Copy Sample.platform k.state.db c ∧ (JustifiedValidated Sample.platform k.log pid c request ∨
        JustifiedAbsent k.log pid c request ∨
        JustifiedRefused Sample.platform k.log pid c request) := by
  obtain ⟨k, a, k', hk, hs, hφ⟩ := exists_step_of_play Sample.platform anyStep []
    (Sample.signedIntent 3 ++ Sample.searched 4 4 (Sample.foundAnswer 5 4) ++ Sample.tick 4 1)
    (.op 4 (.time 1)) (fun _ a _ => settledReason a = some .transactionValidated)
    (by decide +kernel)
  obtain ⟨pid, l, id, request, r, rfl, hfrom, hreason⟩ := settledReason_some (of_decide_eq_true hφ)
  obtain ⟨c, hid, hc, hj⟩ := (justified_finality Sample.platform).2 anyStep k k' pid l id request r
    hk hs hfrom
  exact ⟨k, pid, id, request, c, hreason, hid, hc, hj⟩

/-- An intent is also moved by a validated answer that contradicts it: to `FAILED`, with none of
the evidence of the other outcomes. -/
theorem justified_finality_not_only : ¬ ∀ (k k' : Sys) (pid : ℕ) (l : Call) (id : String)
    (request : TransitionRequest) (r : Op.Ret (.transition id request)),
    Reach (system Sample.platform) anyStep k →
    Step (system Sample.platform) k (.op pid l (.transition id request) r) k' →
    request.fromStatuses = signedActiveStatuses → ∃ c, c.id = id ∧
      (JustifiedValidated Sample.platform k.log pid c request ∨
        JustifiedAbsent k.log pid c request) := by
  intro hevery
  obtain ⟨k, a, k', hk, hs, hφ⟩ := exists_step_of_play Sample.platform anyStep []
    (Sample.signedIntent 3 ++ Sample.searched 4 4 (Sample.foundAnswer 5 99))
    (.op 4 (.time 1)) (fun _ a _ => settledReason a = some .finalityIntegrityError)
    (by decide +kernel)
  obtain ⟨pid, l, id, request, r, rfl, hfrom, hreason⟩ := settledReason_some (of_decide_eq_true hφ)
  obtain ⟨c, -, hj⟩ := hevery k k' pid l id request r hk hs hfrom
  rcases hj with ⟨_, _, _, _, _, _, _, _, -, -, -, -, -, -, -, rfl⟩ |
    ⟨_, _, _, _, _, -, ⟨-, rfl⟩ | ⟨-, rfl⟩ | ⟨_, -, -, rfl⟩⟩ <;> cases hreason

end Orchestrator
