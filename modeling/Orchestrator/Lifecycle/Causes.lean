import Orchestrator.Finality.Progress
import Orchestrator.Lifecycle.Bounds
import Orchestrator.Lifecycle.StatusData

/-!
# Causes of internal errors

What is not an `ApiError` is answered as `INTERNAL_ERROR`. In every run such an error comes from
outside: the connection or the codec has raised it, or the database has refused a statement of the
call. The unique index on active accounts refuses nothing but the move to `PREPARED`, which answers
with an error of its own.

* `Caused`: where an error comes from;
* `step_refusal`, `reach_refusal`: what the database refuses, and whom;
* `clears_of_not_caused`: an error without a cause is brought by no reply;
* **`internal_errors_caused`**.
-/

namespace Orchestrator

open Interleave

variable (P : Platform)

/-- Where the error `m` of call `pid` comes from: from outside, or from a statement of it that the
database has refused. -/
def Caused (k : Sys) (pid : ℕ) (m : String) : Prop :=
  Outside P k pid m ∨
    (DbError.failed.failure = .internal m ∧ ∃ e ∈ own pid k.log, refusal e.op e.ret = some .failed)

variable {P}

/-! ## What the database refuses -/

section Refusals

variable {ok : StepCond Op Op.Ret Failure Reply Call State} {k k' : Sys} {pid : ℕ} {l : Call}
  {op : Op} {r : op.Ret}

theorem Db.conflictsActive_of_busy {db : Db} {row : IntentRow}
    (h : db.violation row = some .accountBusy) : db.conflictsActive row = true := by
  by_contra hno
  unfold Db.violation at h
  rw [if_neg hno] at h
  split_ifs at h <;> cases h

/-- The new version of an active row does not meet the index on active accounts. -/
theorem Db.Ok.violation_ne_busy {db : Db} (hok : db.Ok P) {cur row : IntentRow}
    (hf : db.find cur.id = some cur) (hid : row.identity = cur.identity)
    (hactive : row.active = true → cur.active = true) : db.violation row ≠ some .accountBusy :=
  fun hv => by
    cases (Db.conflictsActive_of_busy hv).symm.trans (hok.conflictsActive_kept hf hid hactive)

/-- An active status is entered from an active one, or from `CREATED`. -/
theorem active_before : ∀ s t : Status, canTransition s t = true → s ≠ .created →
    t ∈ sequenceActiveIndexStatuses → s ∈ sequenceActiveIndexStatuses := by decide

theorem Db.Ok.transition_ne_busy {db : Db} (hok : db.Ok P) (t : ℕ) (id : String)
    {request : TransitionRequest} (hslot : Status.created ∉ request.fromStatuses) :
    (db.transition P t id request).1 ≠ .error .accountBusy := by
  intro h
  unfold Db.transition at h
  split at h
  · cases h
  next cur hf =>
    split_ifs at h with hfrom hcan
    · cases h
    have hfrom : cur.status ∈ request.fromStatuses := by simpa using hfrom
    have hcan : canTransition cur.status request.toStatus = true := by simpa using hcan
    have hne : cur.status ≠ .created := fun he => hslot (he ▸ hfrom)
    dsimp only at h
    split at h
    · next error hv =>
      obtain rfl := Except.error.inj h
      have hcur : db.find cur.id = some cur := (Db.find_id hf).symm ▸ hf
      have hid : (request.updated P t cur).identity = cur.identity := rfl
      refine hok.violation_ne_busy hcur hid (fun hto => ?_) hv
      have hto : request.toStatus ∈ sequenceActiveIndexStatuses := List.contains_iff_mem.mp hto
      exact List.contains_iff_mem.mpr (active_before _ _ hcan hne hto)
    · cases h

theorem Db.Ok.updateInStatus_ne_busy {db : Db} (hok : db.Ok P) (t : ℕ) (id : String)
    (statuses : List Status) (patch : IntentPatch) :
    (db.updateInStatus P t id statuses patch).1 ≠ .error .accountBusy := by
  intro h
  unfold Db.updateInStatus at h
  split at h
  · cases h
  next cur hf =>
    split_ifs at h
    dsimp only at h
    split at h
    · next error hv =>
      obtain rfl := Except.error.inj h
      have hcur : db.find cur.id = some cur := (Db.find_id hf).symm ▸ hf
      have hid : (patch.updated P t cur).identity = cur.identity := rfl
      exact hok.violation_ne_busy hcur hid (fun ha => ha) hv
    · cases h

theorem Db.createIdempotent_ne_busy (db : Db) (new : NewIntentRow) :
    (db.createIdempotent P new).1 ≠ .error .accountBusy := by
  intro h
  unfold Db.createIdempotent at h
  split at h
  · cases h
  split_ifs at h
  · cases h
  split at h
  · next error hv =>
    obtain rfl := Except.error.inj h
    cases (Bool.and_eq_true_iff.mp (Db.conflictsActive_of_busy hv)).1
  · cases h

/-- **The index on active accounts refuses nothing** but the move out of `CREATED`. -/
theorem step_refusal (hk : Reach (system P) ok k) (hs : Step (system P) k (.op pid l op r) k')
    (hr : refusal op r = some .accountBusy) : op.takesSlot = true := by
  obtain ⟨-, hx, -⟩ := reach_permit hk hs
  have hok := reach_ok hk
  cases op with
  | findById id =>
    obtain ⟨-, rfl | rfl⟩ := exec_findById hx <;> cases hr
  | findByStatuses statuses =>
    obtain ⟨-, rfl | rfl⟩ := exec_findByStatuses hx <;> cases hr
  | transition id request =>
    obtain ⟨rfl, -⟩ | ⟨t, rfl, -⟩ := exec_transition hx
    · cases hr
    by_contra hslot
    have hslot : Status.created ∉ request.fromStatuses := by simpa [Op.takesSlot] using hslot
    exact hok.transition_ne_busy t id hslot (errorOf_eq_some.mp hr)
  | updateInStatus id statuses patch =>
    obtain ⟨rfl, -⟩ | ⟨t, rfl, -⟩ := exec_updateInStatus hx
    · cases hr
    exact absurd (errorOf_eq_some.mp hr) (hok.updateInStatus_ne_busy t id statuses patch)
  | createIdempotent new =>
    obtain ⟨rfl, -⟩ | ⟨rfl, -⟩ := exec_createIdempotent hx
    · cases hr
    exact absurd (errorOf_eq_some.mp hr) (k.state.db.createIdempotent_ne_busy new)
  | _ => cases hr

/-- **In every run**, a statement is refused because it fails, or because another intent of the
account is active when one leaves `CREATED`. -/
theorem reach_refusal (hk : Reach (system P) ok k) : ∀ e ∈ k.log, ∀ error,
    refusal e.op e.ret = some error →
      error = .failed ∨ (error = .accountBusy ∧ e.op.takesSlot = true) := by
  refine hk.inv (P := fun k => ∀ e ∈ k.log, ∀ error, refusal e.op e.ret = some error →
    error = .failed ∨ (error = .accountBusy ∧ e.op.takesSlot = true)) (by simp)
    fun k a k' hk ih hs _ e he error herror => ?_
  rcases step_log hs with hlog | ⟨pid, l, op, r, rfl, hlog⟩
  · exact ih e (hlog ▸ he) error herror
  rcases List.mem_append.mp (hlog ▸ he) with he | he
  · exact ih e he error herror
  · obtain rfl := List.mem_singleton.mp he
    cases error with
    | failed => exact .inl rfl
    | accountBusy => exact .inr ⟨rfl, step_refusal hk hs herror⟩
    | illegalTransition src dst => exact absurd herror ((step_sound hk hs).refusal_ne src dst)

end Refusals

/-! ## Every run -/

section Runs

variable {ok : StepCond Op Op.Ret Failure Reply Call State} {k : Sys} {pid : ℕ} {m : String}

/-- If the error has no cause, every reply to the call clears it. -/
theorem clears_of_not_caused (hk : Reach (system P) ok k) (hno : ¬ Caused P k pid m) :
    ∀ e ∈ own pid k.log, Clears P m e.op e.ret := by
  obtain ⟨hout, hfail⟩ := not_or.mp hno
  intro e he
  have hlog := List.mem_of_mem_filter he
  refine ⟨reach_replies hk e hlog, fun hr => hout (.inl ⟨e, he, hr⟩), fun error herror hf => ?_⟩
  obtain rfl | h := reach_refusal hk e hlog error herror
  · exact absurd ⟨hf, e, he, herror⟩ hfail
  · exact h

/-- The error of the loop of `prepare` comes from the connection. -/
theorem raised_of_didNotSettle (hk : Reach (system P) ok k) {id : String} {k' : Sys}
    (hs : Step (system P) k (.finish pid (.prepare id) (.error (.internal (didNotSettle id)))) k') :
    ∃ e ∈ own pid k.log, raises e.op e.ret = some (didNotSettle id) := by
  by_contra hraised
  obtain ⟨-, -, hno⟩ := Reach.watched (watches_prepare (tame_spares id) id) hk hs fun e he => by
    simpa [spares] using fun hr => hraised ⟨e, he, hr⟩
  exact hno _ rfl rfl

end Runs

/-- **Internal errors come from outside.** In every run, a call that ends with an internal error
has got it from the connection, the codec or the database: none is an inconsistency of the data
stored, and neither a lost race nor a second active intent of the account ends a call with one. The
same holds of the error that has cut a finality cycle short. -/
theorem internal_errors_caused (P : Platform) (hjson : P.JsonbPreserves) (k : Sys)
    (hk : Reach (system P) anyStep k) (pid : ℕ) (m : String) :
    (∀ l k', Step (system P) k (.finish pid l (.error (.internal m))) k' → Caused P k pid m) ∧
      (Caught P k pid (.internal m) → Caused P k pid m) := by
  refine ⟨fun l k' hs => ?_, ?_⟩
  · by_contra hno
    have hP : ¬ P.Raises m := fun hraises => hno (.inl (.inr hraises))
    have hloop : ∀ id, l = .prepare id → m ≠ didNotSettle id := by
      rintro id rfl rfl
      exact hno (.inl (.inl (raised_of_didNotSettle hk hs)))
    have hbody (l : Call) : ((system P).body l).Given (Clears P m) fun out =>
        (∀ id, l = .prepare id → m ≠ didNotSettle id) →
          Clean (· = .internal m) (fun _ => True) out := by
      by_cases hne : ∀ id, l = .prepare id → m ≠ didNotSettle id
      · exact (avoids_handle hjson hP l hne).mono fun _ h _ => h
      · exact .any _ fun _ h => absurd h hne
    exact hk.outcome hbody hs (clears_of_not_caused hk hno) hloop rfl
  · rintro ⟨tr, hown, htrace⟩
    by_contra hno
    refine (avoids_cyclePass (P := P)).trace htrace (fun d hd => ?_) rfl
    exact clears_of_not_caused hk hno (d.entry pid .cycle) (hown ▸ List.mem_map_of_mem hd)

namespace Sample

/-- Call 2 has failed to prepare `i5`. -/
def isUnprepared : Act Op Op.Ret Failure Reply Call → Bool
  | .finish pid (.prepare id) (.error (.internal m)) =>
    pid = 2 && id = "i5" && m = "database error"
  | _ => false

end Sample

/-- The move to `PREPARED` fails in the database. -/
theorem internal_errors_caused_database : ∃ (k k' : Sys),
    Step (system Sample.platform) k
      (.finish 2 (.prepare "i5") (.error (.internal "database error"))) k' ∧
      Caused Sample.platform k 2 "database error" := by
  obtain ⟨k, a, k', hk, hs, hφ⟩ := exists_step_of_play Sample.platform anyStep []
    (Sample.recovered 0 3 ++ Sample.created 1 "i5" ++ [.start (.prepare "i5")] ++
      Sample.tick 2 1 ++ Sample.gathered 2 5 3 ++ [.op 2 .fault]) (.finish 2)
    (fun _ a _ => Sample.isUnprepared a) (by decide +kernel)
  unfold Sample.isUnprepared at hφ
  split at hφ
  · next pid id m =>
    simp only [Bool.and_eq_true, decide_eq_true_eq] at hφ
    obtain ⟨⟨rfl, rfl⟩, rfl⟩ := hφ
    exact ⟨k, k', hs,
      (internal_errors_caused Sample.platform Sample.jsonbPreserves k hk 2 _).1 _ k' hs⟩
  · cases hφ

end Orchestrator
