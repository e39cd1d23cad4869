import Orchestrator.Interleave.Outcomes
import Orchestrator.Lifecycle.Changes

/-!
# What the statements of a run reply

The rows that a call is given satisfy `IntentRow.Ok`, a row that a write returns is the one it has
written, and no transition that the services ask for is one that the table forbids.

* `Sound`: what a reply satisfies;
* `Move.legal`, `Db.transition_legal`;
* **`reach_replies`**: in every run, every reply is sound;
* `Brings`, `Returns`, `Reach.returns`: what a call returns, if its replies bring rows with a
  property.
-/

namespace Orchestrator

open Interleave

/-- The reply of a statement: rows that satisfy `IntentRow.Ok`, or an error other than that of a
forbidden transition. -/
def Sound (P : Platform) : (op : Op) → op.Ret → Prop
  | .findById id, r => (∀ src dst, r ≠ .error (.illegalTransition src dst)) ∧
    ∀ row, r = .ok (some row) → row.Ok P ∧ row.id = id
  | .findByStatuses statuses, r => (∀ src dst, r ≠ .error (.illegalTransition src dst)) ∧
    ∀ rows, r = .ok rows → ∀ row ∈ rows, row.Ok P ∧ row.status ∈ statuses
  | .transition id request, r => (∀ src dst, r ≠ .error (.illegalTransition src dst)) ∧
    ∀ row, r = .ok (some row) → row.Ok P ∧ row.id = id ∧
      ∃ t cur, row = request.updated P t cur
  | .updateInStatus id _ patch, r => (∀ src dst, r ≠ .error (.illegalTransition src dst)) ∧
    ∀ row, r = .ok (some row) → row.Ok P ∧ row.id = id ∧ ∃ t cur, row = patch.updated P t cur
  | .createIdempotent _, r => ∀ src dst, r ≠ .error (.illegalTransition src dst)
  | _, _ => True

variable {P : Platform} {db : Db}

/-- Every transition that the services ask for is one of the table. -/
theorem Move.legal {h : History} {pid : ℕ} {l : Call} {c : IntentRow} {request : TransitionRequest}
    (hm : Move P h pid l c request) :
    ∀ s ∈ request.fromStatuses, canTransition s request.toStatus = true := by
  have hsigned : ∀ t ∈ [Status.validated, .expired, .failed], ∀ s ∈ signedActiveStatuses,
      canTransition s t = true := by decide
  have hunsigned : ∀ s ∈ unsignedActiveStatuses, canTransition s .expired = true := by decide
  have hone : ∀ {s t : Status}, canTransition s t = true → ∀ s' ∈ [s], canTransition s' t = true :=
    fun h s' hs => List.mem_singleton.mp hs ▸ h
  cases hm with
  | prepared | windowExpired | mismatch | simulated | simulationPassed | simulationRejected
  | signatureExpired | sequenceChanged | signed | malformed | submitted => exact hone rfl
  | unsignedExpired => exact hunsigned
  | validated => exact hsigned .validated (by decide)
  | absent => exact hsigned .expired (by decide)
  | inconsistent | unexpected | sequenceConflict | sequenceRegression =>
    exact hsigned .failed (by decide)

theorem Db.violation_ne (r : IntentRow) (src dst : Status) :
    db.violation r ≠ some (.illegalTransition src dst) := by
  unfold violation
  split_ifs <;> simp

theorem Db.transition_legal {request : TransitionRequest}
    (h : ∀ s ∈ request.fromStatuses, canTransition s request.toStatus = true) (now : ℕ) (id : String)
    (src dst : Status) :
    (db.transition P now id request).1 ≠ .error (.illegalTransition src dst) := by
  unfold transition
  split
  · simp
  · next cur hf =>
    split_ifs with hs hcan
    · simp
    · have hmem : cur.status ∈ request.fromStatuses := by simpa using hs
      rw [h _ hmem] at hcan
      cases hcan
    · dsimp only
      split
      · next error hv =>
        rintro ⟨⟩
        exact Db.violation_ne _ _ _ hv
      · simp

theorem Db.updateInStatus_legal (now : ℕ) (id : String) (statuses : List Status)
    (patch : IntentPatch) (src dst : Status) :
    (db.updateInStatus P now id statuses patch).1 ≠ .error (.illegalTransition src dst) := by
  unfold updateInStatus
  split
  · simp
  · split_ifs
    · simp
    · dsimp only
      split
      · next error hv =>
        rintro ⟨⟩
        exact Db.violation_ne _ _ _ hv
      · simp

theorem Db.createIdempotent_legal (new : NewIntentRow) (src dst : Status) :
    (db.createIdempotent P new).1 ≠ .error (.illegalTransition src dst) := by
  unfold createIdempotent
  split
  · simp
  · split_ifs
    · simp
    · split
      · next error hv =>
        rintro ⟨⟩
        exact Db.violation_ne _ _ _ hv
      · simp

section Runs

variable {ok : StepCond Op Op.Ret Failure Reply Call State} {k k' : Sys} {pid : ℕ} {l : Call}
  {op : Op} {r : op.Ret}

/-- **A step of a run is answered soundly.** -/
theorem step_sound (hk : Reach (system P) ok k) (hs : Step (system P) k (.op pid l op r) k') :
    Sound P op r := by
  obtain ⟨hp, hx, -⟩ := reach_permit hk hs
  have hok := reach_ok hk
  cases op with
  | findById id =>
    obtain ⟨-, rfl | rfl⟩ := exec_findById hx
    · exact ⟨by simp, by simp⟩
    · refine ⟨by simp, fun row hrow => ?_⟩
      have hf : k.state.db.find id = some row := by simpa using hrow
      exact ⟨reach_row hk hf, Db.find_id hf⟩
  | findByStatuses statuses =>
    obtain ⟨-, rfl | rfl⟩ := exec_findByStatuses hx
    · exact ⟨by simp, by simp⟩
    · refine ⟨by simp, fun rows hrows row hrow => ?_⟩
      cases hrows
      obtain ⟨hr, hst⟩ := Db.mem_findByStatuses hrow
      exact ⟨hok.rows row hr, hst⟩
  | transition id request =>
    obtain ⟨c, hc, rfl, hm⟩ := hp
    refine ⟨fun src dst => ?_, fun row hrow => ?_⟩
    · rcases exec_transition hx with ⟨rfl, -⟩ | ⟨t, rfl, -⟩
      · simp
      · exact Db.transition_legal hm.legal t c.id src dst
    · rcases transition_step hok hc hm hx with
        ⟨-, hno, -⟩ | ⟨cur, t, hf, -, -, -, -, hok', -, rfl, -⟩
      · exact absurd hrow (hno row)
      · cases hrow
        exact ⟨hok', show cur.id = c.id from Db.find_id hf, t, cur, rfl⟩
  | updateInStatus id statuses patch =>
    obtain ⟨c, hc, rfl, ht⟩ := hp
    refine ⟨fun src dst => ?_, fun row hrow => ?_⟩
    · rcases exec_updateInStatus hx with ⟨rfl, -⟩ | ⟨t, rfl, -⟩
      · simp
      · exact Db.updateInStatus_legal t c.id statuses patch src dst
    · rcases updateInStatus_step hok hc ht hx with
        ⟨-, hno, -⟩ | ⟨cur, t, hf, -, -, -, -, hok', -, rfl, -⟩
      · exact absurd hrow (hno row)
      · cases hrow
        exact ⟨hok', show cur.id = c.id from Db.find_id hf, t, cur, rfl⟩
  | createIdempotent row =>
    intro src dst
    rcases exec_createIdempotent hx with ⟨rfl, -⟩ | ⟨rfl, -⟩
    · simp
    · exact Db.createIdempotent_legal row src dst
  | _ => trivial

/-- **In every run**, every reply is sound. -/
theorem reach_replies (hk : Reach (system P) ok k) : ∀ e ∈ k.log, Sound P e.op e.ret := by
  refine hk.inv (P := fun k => ∀ e ∈ k.log, Sound P e.op e.ret) (by simp) ?_
  intro k a k' hk ih hs _ e he
  rcases step_log hs with hlog | ⟨pid, l, op, r, rfl, hlog⟩
  · exact ih e (hlog ▸ he)
  · rcases List.mem_append.mp (hlog ▸ he) with he | he
    · exact ih e he
    · obtain rfl := List.mem_singleton.mp he
      exact step_sound hk hs

end Runs

/-! ## What a call returns -/

/-- The rows of a reply are rows of the intent that was asked for and satisfy `Φ`; one that a
transition returns is the one it has written. -/
def Brings (P : Platform) (Φ : IntentRow → Prop) : (op : Op) → op.Ret → Prop
  | .findById id, r => ∀ row, r = .ok (some row) → Φ row ∧ row.id = id
  | .transition id request, r => ∀ row, r = .ok (some row) → Φ row ∧ row.id = id ∧
    ∃ t cur, row = request.updated P t cur
  | .updateInStatus id _ _, r => ∀ row, r = .ok (some row) → Φ row ∧ row.id = id
  | _, _ => True

/-- If the replies bring rows that satisfy `Φ`, the program ends with a value that satisfies `R`, or
with an error. -/
abbrev Returns {α : Type} (P : Platform) (Φ : IntentRow → Prop) (R : α → Prop) (p : Service α) :
    Prop :=
  p.Given (Brings P Φ) (Clean (fun _ => False) R)

section Returns

variable {Φ : IntentRow → Prop} {α : Type} {op : Op} {r : op.Ret}

theorem Brings.mono {Ψ : IntentRow → Prop} (h : Brings P Φ op r) (hΦ : ∀ row, Φ row → Ψ row) :
    Brings P Ψ op r := by
  cases op with
  | findById | updateInStatus => exact fun row hrow => ⟨hΦ row (h row hrow).1, (h row hrow).2⟩
  | transition => exact fun row hrow => ⟨hΦ row (h row hrow).1, (h row hrow).2⟩
  | _ => exact trivial

theorem Sound.brings (h : Sound P op r) : Brings P (fun row => row.Ok P) op r := by
  cases op with
  | findById | transition => exact h.2
  | updateInStatus => exact fun row hrow => ⟨(h.2 row hrow).1, (h.2 row hrow).2.1⟩
  | _ => exact trivial

/-- Nothing is said of a program that nothing is known of. -/
theorem returns_any (p : Service α) : Returns P Φ (fun _ => True) p :=
  Prog.Given.any p fun out => by cases out <;> simp [Clean]

theorem returns_ofExcept (x : Except Failure α) :
    Returns P Φ (fun v => x = .ok v) (ofExcept x) := by
  cases x with
  | ok v => exact rfl
  | error e => exact id

theorem returns_fail {R : α → Prop} (failure : Failure) : Returns P Φ R (throwFailure failure) := id

theorem returns_load (id : String) :
    Returns P Φ (fun row => Φ row ∧ row.id = id) (load id) := by
  intro r hr
  cases r with
  | error e => exact returns_fail _
  | ok found =>
    cases found with
    | none => exact returns_fail _
    | some row => exact hr row rfl

theorem returns_transition (id : String) (request : TransitionRequest) :
    Returns P Φ (fun out => ∀ row, out = some row → Φ row ∧ row.id = id ∧
      ∃ t cur, row = request.updated P t cur) (transition id request) := by
  intro r hr
  cases r with
  | error e => exact returns_fail _
  | ok out => exact fun row hrow => hr row (congrArg _ hrow)

theorem returns_updateInStatus (id : String) (statuses : List Status) (patch : IntentPatch) :
    Returns P Φ (fun out => ∀ row, out = some row → Φ row ∧ row.id = id)
      (updateInStatus id statuses patch) := by
  intro r hr
  cases r with
  | error e => exact returns_fail _
  | ok out => exact fun row hrow => hr row (congrArg _ hrow)

/-- **What a call of a run returns**, if the replies of the run bring rows that satisfy `Φ`. -/
theorem Reach.returns {ok : StepCond Op Op.Ret Failure Reply Call State} {k k' : Sys}
    {R : Call → Reply → Prop} (hk : Reach (system P) ok k)
    (hbody : ∀ l, Returns P Φ (R l) (handle P l)) (hbrings : ∀ e ∈ k.log, Brings P Φ e.op e.ret)
    {pid : ℕ} {l : Call} {reply : Reply} (hs : Step (system P) k (.finish pid l (.ok reply)) k') :
    R l reply := by
  have hgiven (l : Call) :
      ((system P).body l).Given (Brings P Φ) (Clean (fun _ => False) (R l)) := hbody l
  exact hk.outcome (Q := fun l => Clean (fun _ => False) (R l)) hgiven hs fun e he =>
    hbrings e (List.mem_of_mem_filter he)

end Returns

end Orchestrator
