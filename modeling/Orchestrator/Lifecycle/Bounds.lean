import Orchestrator.Lifecycle.InternalErrors
import Orchestrator.Submission.Harmless

/-!
# The bounds of the loops

Each step of `prepare` asks for one move of the intent, and finds it further on if the move does not
apply. So at most three of the eight steps move it, and the loop comes to its end.

* `movesLeft`: the moves that a status leaves to `prepare`;
* `watches_advance`, `watches_prepareStep`, **`watches_prepare`**: what a call ends with;
* **`step_bounds`**: the loops of `prepare` and `submit` do not run out.
-/

namespace Orchestrator

open Interleave

/-- A reply that does not bring the error `m`. -/
def spares (m : String) (op : Op) (r : op.Ret) : Bool := raises op r != some m

/-! ## The error is raised nowhere else -/

theorem didNotSettle_ne_of_last {id t : String} (ht : t.toList.getLast? ≠ some 's') :
    t ≠ didNotSettle id := by
  rintro rfl
  exact ht (didNotSettle_last id)

theorem DbError.failure_ne_didNotSettle (e : DbError) (id : String) :
    e.failure ≠ .internal (didNotSettle id) := by
  cases e with
  | accountBusy => exact fun h => didNotSettle_ne_of_last (by decide) (Failure.internal.inj h)
  | illegalTransition src dst =>
    exact fun h => (Inconsistent.illegalTransition src dst).ne_didNotSettle id (Failure.internal.inj h)
  | failed => exact fun h => didNotSettle_ne_of_last (by decide) (Failure.internal.inj h)

/-- The errors that a step of `prepare` ends with, on replies that satisfy `A`, are not bad. -/
structure Tame (A : (op : Op) → op.Ret → Bool) (bad : Failure → Prop) : Prop where
  api : ∀ code message details, ¬ bad (.api code message details)
  raised : ∀ op r m, A op r = true → raises op r = some m → ¬ bad (.internal m)
  database : ∀ e : DbError, ¬ bad e.failure
  inconsistent : ∀ m, Inconsistent m → ¬ bad (.internal m)
  canonicalForm : ∀ t m, toCanonicalForm t = .error m → ¬ bad (.internal m)

section Tame

variable {A : (op : Op) → op.Ret → Bool} {bad : Failure → Prop} {α : Type} (h : Tame A bad)
include h

theorem Tame.benign : Benign (fun op r => A op r = true) bad where
  api code message details _ := h.api code message details
  receive q m ha := h.raised (.receive q) (.error (.other m)) m ha rfl
  switchEndpoint reason m ha := h.raised (.switchEndpoint reason) (.error (.other m)) m ha rfl
  findById _ e _ := h.database e
  findByStatuses _ e _ := h.database e
  transition _ _ e _ _ := h.database e
  updateInStatus _ _ _ e _ := h.database e
  createIdempotent _ e _ := h.database e

theorem given_column {B : (op : Op) → op.Ret → Prop} (value : Option α) (column : String) :
    (required value column).Given B (Clean bad fun v => value = some v) := by
  cases value with
  | none => exact h.inconsistent _ (.nullColumn column)
  | some v => exact rfl

theorem spares_asIntentPayload (value : Json) : Spares bad (asIntentPayload value) := by
  have hshape := h.inconsistent _ .unknownShape
  intro e he
  unfold asIntentPayload at he
  dsimp only at he
  split at he
  · cases he
    exact hshape
  · split at he
    · cases he
    · cases he
      exact hshape

theorem spares_storedTransaction (row : IntentRow) : Spares bad (storedTransaction row) := by
  intro e he
  unfold storedTransaction at he
  split at he
  · cases he
  · cases he
    exact h.inconsistent _ (.noTransaction row.id)

theorem given_simulate (t : Record) :
    (simulate t).Given (fun op r => A op r = true) (Clean bad fun _ => True) :=
  (given_orThrow (h.canonicalForm t)).seq fun canonical _ =>
    given_ask h.benign _ (spares_readSimulation h.benign.api canonical)

end Tame

theorem tame_any : Tame (fun _ _ => true) fun _ => False :=
  ⟨fun _ _ _ => id, fun _ _ _ _ _ => id, fun _ => id, fun _ _ => id, fun _ _ _ => id⟩

/-- The text begins with another letter. -/
theorem canonicalForm_ne_didNotSettle (id : String) :
    "Payment has both Amount and DeliverMax with different values" ≠ didNotSettle id := by
  intro h
  have hi : (didNotSettle id).toList.head? = some 'i' := by
    rw [didNotSettle, String.append_assoc, String.toList_append, List.head?_append,
      show "intent ".toList.head? = some 'i' by decide, Option.some_or]
  rw [← h] at hi
  revert hi
  decide

theorem tame_spares (id : String) :
    Tame (spares (didNotSettle id)) (· = .internal (didNotSettle id)) where
  api _ _ _ h := by cases h
  raised _ _ _ ha hr h := by simp [spares, hr, Failure.internal.inj h] at ha
  database e := e.failure_ne_didNotSettle id
  inconsistent _ hm h := hm.ne_didNotSettle id (Failure.internal.inj h)
  canonicalForm _ _ hc h :=
    canonicalForm_ne_didNotSettle id (toCanonicalForm_error hc ▸ Failure.internal.inj h)

/-! ## The steps of `prepare` -/

/-- The moves that a status leaves to `prepare`. -/
def movesLeft : Status → ℕ
  | .created => 3
  | .prepared => 2
  | .simulated => 1
  | _ => 0

section Steps

variable {P : Platform} {A : (op : Op) → op.Ret → Bool} {id : String} {w : Watch} {row : IntentRow}
  {bad : Failure → Prop}

/-- What one step has left: it asked for one move at most, and for none where there is nothing left
to do; the intent is further on. -/
def StepEnds (bad : Failure → Prop) (row : IntentRow) (w : Watch)
    (out : Except Failure (Option IntentRow)) (w' : Watch) : Prop :=
  w'.moves ≤ w.moves + min 1 (movesLeft row.status) ∧
    match out with
    | .ok (some next) => next.id = row.id ∧ w'.known = .among next.status.later ∧
      movesLeft next.status < movesLeft row.status
    | .ok none => ∃ statuses, w'.known = .among statuses ∧
      ∀ s ∈ statuses, movesLeft s < movesLeft row.status
    | .error e => ¬ bad e

theorem stepEnds_fail {e : Failure} (he : ¬ bad e) : StepEnds bad row w (.error e) w :=
  ⟨Nat.le_add_right _ _, he⟩

/-- The statuses after the one that was to be moved leave less to do. -/
theorem movesLeft_missed : ∀ s : Status, 0 < movesLeft s → ∀ t ∈ later (s.later.filter fun u =>
    !([s] : List Status).contains u), movesLeft t < movesLeft s := by
  decide

/-- A move out of the status of the row, and what is done with the reply. -/
theorem watches_advance {request : TransitionRequest} {f : Except DbError (Option IntentRow) →
      Service (Option IntentRow)} (hid : row.id = id) (hknown : w.known = .among row.status.later)
    (hfrom : request.fromStatuses = [row.status])
    (hto : movesLeft request.toStatus < movesLeft row.status)
    (hok : ∀ out, f (.ok out) = .ret out) (herr : ∀ e, ∃ e', f (.error e) = .fail e' ∧ ¬ bad e') :
    Watches A id w (StepEnds bad row w) (Prog.perform (Op.transition id request) >>= f) := by
  have hone : w.moves + 1 ≤ w.moves + min 1 (movesLeft row.status) := by omega
  refine watches_perform_transition (fun next hid' hs => ?_) ?_ fun e => ?_
  · rw [hok]
    refine watches_ret _ ⟨hone, hid'.trans hid.symm, ?_, hs ▸ hto⟩
    simp only [hknown, Knowledge.moved]
  · rw [hok]
    refine watches_ret _ ⟨hone, _, ?_, movesLeft_missed row.status (by omega)⟩
    simp only [hknown, Knowledge.missed, hfrom]
  · obtain ⟨e', he, hbad⟩ := herr e
    rw [he]
    exact watches_fail e' ⟨hone, hbad⟩

/-- A move of a step, if errors of the database are not bad. -/
theorem watches_move {request : TransitionRequest} (hid : row.id = id)
    (hknown : w.known = .among row.status.later) (hfrom : request.fromStatuses = [row.status])
    (hto : movesLeft request.toStatus < movesLeft row.status)
    (herr : ∀ e : DbError, ¬ bad e.failure) :
    Watches A id w (StepEnds bad row w) (transition id request) :=
  watches_advance hid hknown hfrom hto (fun _ => rfl) fun e => ⟨_, rfl, herr e⟩

/-- A move to an end, which the caller is told. -/
theorem watches_end {request : TransitionRequest} {e : Failure} (hid : row.id = id)
    (hknown : w.known = .among row.status.later) (hfrom : request.fromStatuses = [row.status])
    (hto : movesLeft request.toStatus < movesLeft row.status)
    (herr : ∀ e : DbError, ¬ bad e.failure) (he : ¬ bad e) :
    Watches A id w (StepEnds bad row w) (transition id request >>= fun _ => throwFailure e) :=
  (watches_move hid hknown hfrom hto herr).bind (fun _ _ h => watches_fail e ⟨h.1, he⟩)
    fun _ _ h => h

end Steps

/-- The statuses in which `prepare` returns the intent. -/
def preparedStatuses : List Status := [.awaitingSignature, .signed, .submitted, .validated]

section Prepare

variable {P : Platform} {A : (op : Op) → op.Ret → Bool} {bad : Failure → Prop} {id : String}
  {w : Watch} {row : IntentRow} (h : Tame A bad)
include h

theorem watches_prepareCreated (hid : row.id = id) (hs : row.status = .created)
    (hknown : w.known = .among row.status.later) :
    Watches A id w (StepEnds bad row w)
      (prepareCreated P row) := by
  have herr : ∀ e, ¬ bad e → StepEnds bad row w (.error e) w :=
    fun _ => stepEnds_fail
  have hb := h.benign
  have hlt : movesLeft .prepared < movesLeft row.status := by rw [hs]; decide
  refine watches_given (performs_assertRecovered trivial) (given_assertRecovered hb) herr fun _ _ => ?_
  refine watches_given (performs_orThrow _ _) (given_ofExcept (spares_asIntentPayload h _)) herr
    fun intent _ => ?_
  refine watches_given (performs_ask _ _ trivial trivial) (given_validatedAccountInfo hb _) herr
    fun account _ => ?_
  cases account with
  | none => exact watches_fail _ (stepEnds_fail (h.api _ _ _))
  | some validated =>
    refine watches_given (performs_ask _ _ trivial trivial) (given_currentAccountInfo hb _) herr
      fun current _ => ?_
    refine watches_given (performs_orThrow _ _)
      (given_ofExcept (spares_assertQuiescent hb.api _ _)) herr fun _ _ => ?_
    refine watches_given (performs_ask _ _ trivial trivial) (given_validatedLedgerIndex hb) herr
      fun index _ => ?_
    refine watches_given (.bind (performs_ask _ _ trivial trivial) fun _ => performs_orThrow _ _)
      (given_cappedOpenLedgerFee hb) herr fun fee _ => ?_
    refine watches_given (Prog.performs_perform trivial) (given_perform _) herr fun networkId _ => ?_
    refine watches_given (performs_orThrow _ _) (given_ofExcept (spares_buildBlob hb.api _)) herr
      fun txBlob _ => ?_
    refine watches_given (Prog.performs_perform trivial) given_now herr fun t _ => ?_
    subst hid
    refine watches_advance rfl hknown (by rw [hs]; rfl) hlt (fun _ => rfl) fun e => ?_
    cases e with
    | accountBusy => exact ⟨_, rfl, h.api _ _ _⟩
    | illegalTransition src dst => exact ⟨_, rfl, h.database _⟩
    | failed => exact ⟨_, rfl, h.database _⟩

theorem watches_simulatePrepared (hid : row.id = id) (hs : row.status = .prepared)
    (hknown : w.known = .among row.status.later) :
    Watches A id w (StepEnds bad row w)
      (simulatePrepared P row) := by
  have herr : ∀ e, ¬ bad e → StepEnds bad row w (.error e) w :=
    fun _ => stepEnds_fail
  have hb := h.benign
  have hlt (s : Status) (h : movesLeft s < movesLeft .prepared) : movesLeft s < movesLeft row.status :=
    hs ▸ h
  have hsimulate (t : Record) : (simulate t).Performs Quiet :=
    .bind (performs_orThrow _ _) fun _ => performs_ask _ _ trivial trivial
  refine watches_given (performs_assertRecovered trivial) (given_assertRecovered hb) herr fun _ _ => ?_
  refine watches_given (performs_orThrow _ _) (given_ofExcept (spares_storedTransaction h row)) herr
    fun prepared _ => ?_
  refine watches_given (performs_required _ _) (given_column h _ _) herr fun last _ => ?_
  refine watches_given (performs_ask _ _ trivial trivial) (given_validatedLedgerIndex hb) herr
    fun index _ => ?_
  subst hid
  split_ifs
  · exact watches_end rfl hknown (by rw [hs]; rfl) (hlt .expired (by decide)) h.database (h.api _ _ _)
  refine watches_given (hsimulate prepared) (given_simulate h prepared) herr fun out _ => ?_
  dsimp only
  split_ifs
  · exact watches_end rfl hknown (by rw [hs]; rfl) (hlt .failed (by decide)) h.database (h.api _ _ _)
  · refine watches_given (Prog.performs_perform trivial) given_now herr fun t _ => ?_
    exact watches_move rfl hknown (by rw [hs]; rfl) (hlt .simulated (by decide)) h.database

theorem watches_completeSimulation (hid : row.id = id) (hs : row.status = .simulated)
    (hknown : w.known = .among row.status.later) :
    Watches A id w (StepEnds bad row w) (completeSimulation row) := by
  have herr : ∀ e, ¬ bad e → StepEnds bad row w (.error e) w := fun _ => stepEnds_fail
  have hlt (s : Status) (h : movesLeft s < movesLeft .simulated) :
      movesLeft s < movesLeft row.status := hs ▸ h
  refine watches_given (performs_required _ _) (given_column h _ _) herr fun engineResult _ => ?_
  subst hid
  split_ifs
  · exact watches_move rfl hknown (by rw [hs]; rfl) (hlt .awaitingSignature (by decide)) h.database
  · refine (watches_move rfl hknown (by rw [hs]; rfl) (hlt .rejected (by decide)) h.database).bind
      (fun out w' hout => ?_) fun _ _ hout => hout
    cases out with
    | none => exact watches_ret _ hout
    | some next => exact watches_fail _ ⟨hout.1, h.api _ _ _⟩

/-- What `step` has left: with `done`, the row is the answer. -/
def PrepareStepEnds (bad : Failure → Prop) (row : IntentRow) (w : Watch)
    (out : Except Failure StepResult) (w' : Watch) : Prop :=
  match out with
  | .ok .done => w' = w ∧ row.status ∈ preparedStatuses
  | .ok (.row next) => StepEnds bad row w (.ok (some next)) w'
  | .ok .reread => StepEnds bad row w (.ok none) w'
  | .error e => StepEnds bad row w (.error e) w'

theorem watches_prepareStep (hid : row.id = id) (hknown : w.known = .among row.status.later) :
    Watches A id w (PrepareStepEnds bad row w) (prepareStep P row) := by
  have moved {p : Service (Option IntentRow)} (hp : Watches A id w (StepEnds bad row w) p) :
      Watches A id w (PrepareStepEnds bad row w) (StepResult.ofRow? <$> p) := by
    refine hp.bind (fun out w' hout => ?_) fun _ _ hout => hout
    cases out with
    | none => exact watches_ret _ hout
    | some next => exact watches_ret _ hout
  have herr : ∀ e, ¬ bad e → StepEnds bad row w (.error e) w := fun _ => stepEnds_fail
  unfold prepareStep
  cases hs : row.status with
  | created => exact moved (watches_prepareCreated h hid hs hknown)
  | prepared => exact moved (watches_simulatePrepared h hid hs hknown)
  | simulated => exact moved (watches_completeSimulation h hid hs hknown)
  | awaitingSignature | signed | submitted | validated =>
    exact watches_ret _ ⟨rfl, by rw [hs]; decide⟩
  | expired | rejected | failed => exact watches_fail _ (herr _ (h.api _ _ _))

/-- What a call of `prepare` ends with. -/
def PrepareEnds (bad : Failure → Prop) (out : Except Failure IntentRow) (w : Watch) : Prop :=
  w.moves ≤ 3 ∧
    match out with
    | .ok row => row.status ∈ preparedStatuses
    | .error e => ¬ bad e

/-- What reading the intent for the next step leaves. -/
def RereadEnds (bad : Failure → Prop) (id : String) (moves : ℕ) (out : Except Failure IntentRow)
    (w : Watch) : Prop :=
  w.moves = moves ∧
    match out with
    | .ok row => row.id = id ∧ w.known = .among row.status.later
    | .error e => ¬ bad e

theorem watches_reread :
    Watches A id w (fun out w' => RereadEnds bad id w.moves out w' ∧
      ∀ row statuses, out = .ok row → w.known = .among statuses → row.status ∈ statuses)
      (load id) := by
  refine watches_load (fun row hid hc => ⟨⟨rfl, hid, ?_⟩, fun row' statuses he hst => ?_⟩)
    (fun e => ⟨⟨rfl, h.database e⟩, fun _ _ he => by cases he⟩)
    ⟨⟨rfl, h.api _ _ _⟩, fun _ _ he => by cases he⟩
  · cases hst : w.known with
    | nothing => rfl
    | contradiction => exact absurd (by rw [hst]; rfl) hc
    | among statuses =>
      simp only [Knowledge.seen]
      split_ifs with hmem
      · rfl
      · exact absurd (by rw [hst]; exact if_neg hmem) hc
  · cases he
    by_contra hn
    exact hc (by rw [hst]; exact if_neg hn)

/-- **The loop comes to its end**: every step leaves less to do. -/
theorem watches_prepareLoop (steps : ℕ) (hid : row.id = id)
    (hknown : w.known = .among row.status.later) (hmoves : w.moves + movesLeft row.status ≤ 3)
    (hsteps : movesLeft row.status < steps) :
    Watches A id w (PrepareEnds bad) (prepareLoop P id steps row) := by
  induction steps generalizing row w with
  | zero => exact absurd hsteps (Nat.not_lt_zero _)
  | succ steps ih =>
    refine (watches_prepareStep h hid hknown).bind (fun next w₁ hout => ?_)
      fun e w₁ hout => ⟨hout.1.trans (by omega), hout.2⟩
    cases next with
    | done =>
      obtain ⟨rfl, hs⟩ := hout
      exact watches_ret _ ⟨by omega, hs⟩
    | row next =>
      obtain ⟨hle, hid', hknown', hless⟩ := hout
      exact ih (hid'.trans hid) hknown' (by omega) (by omega)
    | reread =>
      obtain ⟨hle, statuses, hst, hless⟩ := hout
      refine (watches_reread h).bind (fun row' w₂ hread => ?_)
        fun e w₂ hread => ⟨hread.1.1.le.trans (hle.trans (by omega)), hread.1.2⟩
      obtain ⟨⟨hsame, hid', hknown'⟩, hmem⟩ := hread
      have := hless _ (hmem row' statuses rfl hst)
      exact ih hid' hknown' (by omega) (by omega)

/-- **What a call of `prepare` ends with.** -/
theorem watches_prepare (id : String) :
    Watches A id .start (fun out w => w.moves ≤ 3 ∧
      (∀ row, out = .ok (.intent row) → row.status ∈ preparedStatuses) ∧
        ∀ e, out = .error e → ¬ bad e) (handle P (.prepare id)) := by
  have hprepare : Watches A id .start (PrepareEnds bad) (prepare P id) := by
    refine (watches_reread h).bind (fun row w hread => ?_)
      fun e w hread => ⟨hread.1.1 ▸ Nat.zero_le 3, hread.1.2⟩
    obtain ⟨⟨hmoves, hid, hknown⟩, -⟩ := hread
    have hmoves : w.moves = 0 := hmoves
    have hthree : ∀ s : Status, movesLeft s ≤ 3 := by decide
    have := hthree row.status
    exact watches_prepareLoop h prepareMaxSteps hid hknown (by omega)
      (by simp only [prepareMaxSteps]; omega)
  change Watches _ id .start _ (prepare P id >>= fun row => .ret (Reply.intent row))
  refine hprepare.bind (fun row w hout => watches_ret _ ⟨hout.1, fun row' he => ?_, fun _ he => by cases he⟩)
    fun e w hout => ⟨hout.1, fun _ he => (by cases he), fun e' he => ?_⟩
  · cases he
    exact hout.2
  · cases he
    exact hout.2

end Prepare

/-! ## Every run -/

/-- **Step bounds are never hit.** In every run, a call of `submit` loads its intent at most once
for each of its three rounds (coming to the end of the loop takes a fourth time), and returns a row
that it has read as validated, or the row that its own recording of an answer has returned. A call
of `prepare` asks for three moves at most, returns the intent in a status from
`AWAITING_SIGNATURE` on, and ends with the error of its loop only if the connection has raised an
error with that very text. -/
theorem step_bounds (P : Platform) (k k' : Sys) (hk : Reach (system P) anyStep k) (pid : ℕ)
    (id : String) :
    (∀ out, Step (system P) k (.finish pid (.submit id) out) k' →
      (own pid k.log).countP (fun e => e.op.isLoad) ≤ submitMaxSteps ∧
      ∀ row, out = .ok (.intent row) →
        (row.status = .validated ∧ ∃ e ∈ own pid k.log, loadedRow e.op e.ret = some row) ∨
        ∃ e ∈ own pid k.log, recordedRow e.op e.ret = some row) ∧
    ∀ out, Step (system P) k (.finish pid (.prepare id) out) k' →
      (own pid k.log).countP (fun e => e.op.isTransition) ≤ 3 ∧
      (∀ row, out = .ok (.intent row) → row.status ∈ preparedStatuses) ∧
      (out = .error (.internal (didNotSettle id)) →
        ∃ e ∈ own pid k.log, raises e.op e.ret = some (didNotSettle id)) := by
  refine ⟨fun out hs => ?_, fun out hs => ?_⟩
  · obtain ⟨hloads, hrow, -⟩ :=
      Reach.watched (watches_submit (A := fun _ _ => true) id) hk hs fun _ _ => rfl
    refine ⟨?_, fun row hout => (hrow row hout).imp (fun h => ⟨h.1, ?_⟩) fun h => ?_⟩
    · rw [watched, after_loads] at hloads
      exact (Nat.zero_add _).symm.le.trans hloads
    · exact (after_loaded .start _ h.2).resolve_left (fun hn => by cases hn)
    · exact (after_recorded .start _ h).resolve_left (fun hn => by cases hn)
  · obtain ⟨hmoves, hrow, -⟩ := Reach.watched (watches_prepare tame_any id) hk hs fun _ _ => rfl
    rw [watched, after_moves] at hmoves
    refine ⟨(Nat.zero_add _).symm.le.trans hmoves, hrow, fun hout => ?_⟩
    by_contra hraised
    obtain ⟨-, -, hno⟩ := Reach.watched (watches_prepare (tame_spares id) id) hk hs fun e he => by
      simpa [spares] using fun hr => hraised ⟨e, he, hr⟩
    exact hno _ hout rfl

namespace Sample

/-- Call 3 has prepared `i5`. -/
def isPrepared : Act Op Op.Ret Failure Reply Call → Bool
  | .finish pid (.prepare id) (.ok (.intent _)) => pid = 3 && id = "i5"
  | _ => false

end Sample

/-- Two calls prepare the same intent: the second one loses both races, and reads the intent again
each time. -/
theorem step_bounds_raced : ∃ (k k' : Sys) (row : IntentRow),
    Step (system Sample.platform) k (.finish 3 (.prepare "i5") (.ok (.intent row))) k' ∧
      (own 3 k.log).countP (fun e => e.op.isLoad) = 3 ∧
      (own 3 k.log).countP (fun e => e.op.isTransition) ≤ 3 ∧ row.status ∈ preparedStatuses := by
  obtain ⟨k, a, k', hk, hs, hφ⟩ := exists_step_of_play Sample.platform anyStep []
    (Sample.recovered 0 3 ++ Sample.created 1 "i5" ++
      [.start (.prepare "i5"), .start (.prepare "i5")] ++ Sample.tick 2 1 ++ Sample.tick 3 1 ++
      Sample.gathered 2 5 3 ++ Sample.gathered 3 5 3 ++ Sample.tick 2 1 ++ Sample.tick 3 2 ++
      Sample.simulated 2 5 3 ++ Sample.tick 3 1 ++ Sample.told 3 (Sample.ledgerAnswer 3) ++
      Sample.told 3 (Sample.simulateAnswer 5) ++ Sample.tick 3 3) (.finish 3)
    (fun k a _ => Sample.isPrepared a && (own 3 k.log).countP (fun e => e.op.isLoad) = 3)
    (by decide +kernel)
  obtain ⟨hfin, hloads⟩ := Bool.and_eq_true_iff.mp hφ
  unfold Sample.isPrepared at hfin
  split at hfin
  · next pid id row =>
    simp only [Bool.and_eq_true, decide_eq_true_eq] at hfin
    obtain ⟨rfl, rfl⟩ := hfin
    obtain ⟨-, hprepare⟩ := step_bounds Sample.platform k k' hk 3 "i5"
    obtain ⟨hmoves, hrow, -⟩ := hprepare _ hs
    exact ⟨k, k', row, hs, of_decide_eq_true hloads, hmoves, hrow row rfl⟩
  · cases hfin

end Orchestrator
