import Orchestrator.Interleave.Calls
import Orchestrator.Lifecycle.Artifact

/-!
# Answered submissions and their recording

The answer to a submit request and the statement that records it are two operations, with other
calls between them.

* `engineResult`: the result that an operation brings; `Op.records`: the recording statements;
* `Op.finds`, `Op.succeeds`: the row is in a status the statement names, and it does not fail;
* `answered_row`: the intent that was answered;
* **`records_step`**: what a recording statement does.
-/

namespace Orchestrator

open Interleave

/-- The result of a submission that a server answered. -/
def engineResult : (op : Op) → op.Ret → Option SubmitResult
  | .receive (.submit txBlob), .ok r =>
    match readSubmit txBlob r with
    | .ok (result, _) => some result
    | .error _ => none
  | _, _ => none

/-- The statement records an answer: it increments the attempt counter. -/
def Op.records : Op → Bool
  | .transition _ request => request.patch.submissionAttemptCount
  | .updateInStatus _ _ patch => patch.submissionAttemptCount
  | _ => false

/-- The row of the statement is in a status that it names. -/
def Op.finds (db : Db) : Op → Bool
  | .transition id request => (db.find id).any fun row => request.fromStatuses.contains row.status
  | .updateInStatus id statuses _ => (db.find id).any fun row => statuses.contains row.status
  | _ => true

/-- The statement does not fail. -/
def Op.succeeds : (op : Op) → op.Ret → Bool
  | .transition _ _, .error _ => false
  | .updateInStatus _ _ _, .error _ => false
  | _, _ => true

theorem engineResult_some {op : Op} {r : op.Ret} {result : SubmitResult}
    (h : engineResult op r = some result) : ∃ txBlob, op = .receive (.submit txBlob) := by
  unfold engineResult at h
  split at h
  · exact ⟨_, rfl⟩
  · cases h

theorem records_of_engineResult {op : Op} {r : op.Ret} {result : SubmitResult}
    (h : engineResult op r = some result) : op.records = false := by
  obtain ⟨txBlob, rfl⟩ := engineResult_some h
  rfl

variable {P : Platform} {ok : StepCond Op Op.Ret Failure Reply Call State} {k k' : Sys} {pid : ℕ}
  {l : Call} {op : Op} {r : op.Ret}

/-- A submission is answered for an intent that has a signed blob. -/
theorem answered_row (hk : Reach (system P) ok k) (hs : Step (system P) k (.op pid l op r) k')
    {result : SubmitResult} (ha : engineResult op r = some result) :
    ∃ row ∈ k.state.db.rows, l = .submit row.id ∧ row.signedTxBlob.isSome := by
  obtain ⟨txBlob, rfl⟩ := engineResult_some ha
  obtain ⟨row, hr, hl, hb⟩ := MaySubmit.stored (reach_permit hk hs).1
  exact ⟨row, hr, hl, by rw [hb]; rfl⟩

/-- What a recording statement may be. -/
theorem Permit.records {w : World Op Op.Ret Call State} (hp : Permit P w pid l op)
    (hrec : op.records = true) : ∃ c, Copy P w.state.db c ∧ l = .submit c.id ∧
      ((∃ request, op = .transition c.id request ∧ Move P w.log pid l c request ∧
        request.fromStatuses = [.signed] ∧ request.toStatus ∈ [Status.submitted, .rejected]) ∨
      ∃ patch, op = .updateInStatus c.id [.submitted] patch ∧ c.status = .submitted ∧
        Touch w.log pid l c [.submitted] patch) := by
  cases op with
  | transition id request =>
    obtain ⟨c, hc, rfl, hm⟩ := hp
    refine ⟨c, hc, ?_⟩
    cases id hm with
    | malformed t hs ha hmal => exact ⟨ha.1, .inl ⟨_, rfl, hm, rfl, by simp [malformedRequest]⟩⟩
    | submitted t hs ha hmal => exact ⟨ha.1, .inl ⟨_, rfl, hm, rfl, by simp [submittedRequest]⟩⟩
    | _ => cases hrec
  | updateInStatus id statuses patch =>
    obtain ⟨c, hc, rfl, ht⟩ := hp
    refine ⟨c, hc, ?_⟩
    cases id ht with
    | resubmitted t hs ha => exact ⟨ha.1, .inr ⟨_, rfl, hs, ht⟩⟩
    | _ => cases hrec
  | _ => cases hrec

/-- A signed intent that has left `SIGNED` does not come back. -/
theorem Status.Leads.ne_signed {s t : Status} (h : s.Leads t) (hs : s = .submitted) :
    t ≠ .signed := by
  have hall : ∀ t : Status, Status.Leads .submitted t → t ≠ .signed := by decide
  exact hall t (hs ▸ h)

theorem eq_ok_none {x : Except DbError (Option IntentRow)} (hok : ∀ e, x ≠ .error e)
    (hnone : ∀ row, x ≠ .ok (some row)) : x = .ok none := by
  cases x with
  | error e => exact absurd rfl (hok e)
  | ok out =>
    cases out with
    | none => rfl
    | some row => exact absurd rfl (hnone row)

/-- What a recording statement makes of the row: it counts one more, out of `SIGNED`; or nothing,
and if it did not fail, the row was in no status that it names, and not in `SIGNED`. -/
def Recorded (k : Sys) (op : Op) (r : op.Ret) (cur cur' : IntentRow) : Prop :=
  (cur' = cur ∧ (op.succeeds r = true → op.finds k.state.db = false ∧ cur.status ≠ .signed)) ∨
  (cur'.submissionAttemptCount = cur.submissionAttemptCount + 1 ∧ cur'.status ≠ .signed)

/-- **What a recording statement does.** -/
theorem records_step (hk : Reach (system P) ok k) (hs : Step (system P) k (.op pid l op r) k')
    (hrec : op.records = true) : ∃ id cur cur', l = .submit id ∧ k.state.db.find id = some cur ∧
      (∀ id', k'.state.db.find id' = if id' = id then some cur' else k.state.db.find id') ∧
      Recorded k op r cur cur' := by
  obtain ⟨hp, hx, -⟩ := reach_permit hk hs
  obtain ⟨c, hc, hl, ⟨request, rfl, hm, hfrom, hto⟩ | ⟨patch, rfl, hst, ht⟩⟩ := hp.records hrec
  · rcases transition_step (reach_ok hk) hc hm hx with
      ⟨hsame, hnone, hmiss⟩ | ⟨cur, t, hf, -, -, -, -, -, hle, -, hst⟩
    · obtain ⟨-, cur, hf, -⟩ := hc
      refine ⟨c.id, cur, cur, hl, hf, fun id => ?_, .inl ⟨rfl, fun hok => ?_⟩⟩
      · rw [hsame]
        split_ifs with he
        · rw [he, hf]
        · rfl
      · have hnot := hmiss (eq_ok_none (by rintro e rfl; cases hok) hnone) cur hf
        refine ⟨by simpa [Op.finds, hf] using hnot, fun he => hnot ?_⟩
        rw [hfrom, he]
        exact List.mem_singleton_self _
    · refine ⟨c.id, cur, request.updated P t cur, hl, hf, fun id => ?_, .inr ⟨?_, ?_⟩⟩
      · rw [hst]
        exact Db.find_written hf hle id
      · change cur.submissionAttemptCount + request.patch.submissionAttemptCount.toNat = _
        have hone : request.patch.submissionAttemptCount = true := hrec
        rw [hone]
        rfl
      · have hall : ∀ s ∈ [Status.submitted, .rejected], s ≠ .signed := by decide
        exact hall request.toStatus hto
  · rcases updateInStatus_step (reach_ok hk) hc ht hx with
      ⟨hsame, hnone, hmiss⟩ | ⟨cur, t, hf, hle, hfrom, -, -, -, hle', -, hst'⟩
    · obtain ⟨-, cur, hf, hle⟩ := hc
      refine ⟨c.id, cur, cur, hl, hf, fun id => ?_, .inl ⟨rfl, fun hok => ?_⟩⟩
      · rw [hsame]
        split_ifs with he
        · rw [he, hf]
        · rfl
      · have hnot := hmiss (eq_ok_none (by rintro e rfl; cases hok) hnone) cur hf
        exact ⟨by simpa [Op.finds, hf] using hnot, hle.leads.ne_signed hst⟩
    · refine ⟨c.id, cur, patch.updated P t cur, hl, hf, fun id => ?_, .inr ⟨?_, ?_⟩⟩
      · rw [hst']
        exact Db.find_written hf hle' id
      · change cur.submissionAttemptCount + patch.submissionAttemptCount.toNat = _
        have hone : patch.submissionAttemptCount = true := hrec
        rw [hone]
        rfl
      · exact hle'.leads.ne_signed (List.mem_singleton.mp hfrom)

end Orchestrator
