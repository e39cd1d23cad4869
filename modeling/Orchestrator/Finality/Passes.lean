import Orchestrator.Finality.Operations
import Orchestrator.Interleave.SingleFlight
import Orchestrator.Runtime.Schedules

/-!
# Finality passes

A finality cycle with what it comes to on the way, which `cycle` forgets: the outcomes of the
signed intents that it resolved, and whether anything stopped it. `FinalityService` runs cycles
one at a time and keeps its health between them.

* `examine`, `Pass`, `pass`; **`cycle_eq_pass`**: the same program, with its findings returned;
* `FinalityHealth`, `FinalityMemory`, `finalityService`: `runCycle` over cycles;
* **`single_flight`**: one cycle at a time, no lost trigger.
-/

namespace Orchestrator

open Interleave

variable (P : Platform)

/-- The loop of `cycle`: the outcomes before it ended, and how it ended. -/
def examine (currentLedger : ℕ) :
    List IntentRow → ℕ → Service (List SignedOutcome × Except Failure Unit)
  | [], _ => pure ([], .ok ())
  | row :: rows, switchBudget =>
    if unsignedActiveStatuses.contains row.status then
      (expireUnsigned row currentLedger).toExcept >>= fun
        | .ok () => examine currentLedger rows switchBudget
        | .error failure => pure ([], .error failure)
    else if signedActiveStatuses.contains row.status then
      (resolveSigned P row currentLedger switchBudget).toExcept >>= fun
        | .ok (outcome, switchBudget) => do
          let (outcomes, result) ← examine currentLedger rows switchBudget
          pure (outcome :: outcomes, result)
        | .error failure => pure ([], .error failure)
    else examine currentLedger rows switchBudget

/-- What a cycle came to. -/
structure Pass where
  outcomes : List SignedOutcome
  completed : Bool
  deriving DecidableEq

/-- The end of a cycle: it is completed if its loop ran to the end. -/
def passEnd : List SignedOutcome × Except Failure Unit → Service Pass
  | (outcomes, .ok ()) => do
    Prog.perform (Op.completeCycle (outcomes.any (· == .unprovable)))
    pure ⟨outcomes, true⟩
  | (outcomes, .error _) => pure ⟨outcomes, false⟩

/-- What a cycle reads before its loop. -/
def passRows : Service (ℕ × List IntentRow) := do
  let currentLedger ← validatedLedgerIndex
  let rows ← findByStatuses sequenceActiveStatuses
  pure (currentLedger, rows)

def pass : Service Pass :=
  passRows.toExcept >>= fun
    | .ok (currentLedger, rows) => examine P currentLedger rows 1 >>= passEnd
    | .error _ => pure ⟨[], false⟩

variable {P}

theorem walk_eq_examine (currentLedger : ℕ) (rows : List IntentRow) (switchBudget : ℕ)
    (degraded : Bool) : (walk P currentLedger rows switchBudget degraded).toExcept =
      examine P currentLedger rows switchBudget >>= fun found =>
        pure (found.2.map fun _ => degraded || found.1.any (· == .unprovable)) := by
  induction rows generalizing switchBudget degraded with
  | nil => simp [walk, examine, Prog.toExcept, Except.map]
  | cons row rows ih =>
    rw [walk, examine]
    split
    · rw [Prog.toExcept_bind, Prog.bind_assoc]
      congr 1
      funext r
      cases r with
      | ok u => exact ih switchBudget degraded
      | error e => rfl
    · split
      · rw [Prog.toExcept_bind, Prog.bind_assoc]
        congr 1
        funext r
        cases r with
        | ok r =>
          refine (ih r.2 (degraded || r.1 == .unprovable)).trans ?_
          change _ = (_ >>= _) >>= _
          rw [Prog.bind_assoc]
          congr 1
          funext found
          simp only [Prog.pure_def, Prog.ret_bind, List.any_cons, Bool.or_assoc]
        | error e => rfl
      · exact ih switchBudget degraded

/-- **A pass is a cycle.** -/
theorem cycle_eq_pass : cycle P = pass P >>= fun _ => pure () := by
  have rows : cyclePass P = passRows >>= fun r =>
      walk P r.1 r.2 1 false >>= fun degraded => Prog.perform (Op.completeCycle degraded) := by
    rw [cyclePass, passRows, Prog.bind_assoc]
    congr 1
    funext currentLedger
    rw [Prog.bind_assoc]
    rfl
  rw [cycle_eq, rows, pass, Prog.toExcept_bind, Prog.bind_assoc, Prog.bind_assoc]
  congr 1
  funext r
  cases r with
  | error e => rfl
  | ok r =>
    change (Prog.toExcept (_ >>= _) >>= _) = (_ >>= _) >>= _
    rw [Prog.toExcept_bind, walk_eq_examine, Prog.bind_assoc, Prog.bind_assoc, Prog.bind_assoc]
    congr 1
    funext found
    obtain ⟨outcomes, result⟩ := found
    cases result with
    | ok u => simp only [Prog.pure_def, Prog.ret_bind, Except.map, Bool.false_or]; rfl
    | error e => rfl

/-! ## What the loop comes to -/

section Performs

variable {φ : Op → Prop}

theorem performs_expireUnsigned {row : IntentRow} (currentLedger : ℕ)
    (h : ∀ last, φ (.transition row.id (unsignedExpiredRequest last currentLedger))) :
    (expireUnsigned row currentLedger).Performs φ := by
  refine (performs_required _ _).bind fun last => ?_
  split_ifs
  · trivial
  · exact (performs_transition _ _ (h _)).bind fun _ => trivial

theorem performs_examine (hr : ∀ row, Resolving φ row)
    (he : ∀ id request, φ (.transition id request)) (currentLedger : ℕ) (rows : List IntentRow)
    (switchBudget : ℕ) : (examine P currentLedger rows switchBudget).Performs φ := by
  induction rows generalizing switchBudget with
  | nil => trivial
  | cons row rows ih =>
    rw [examine]
    split
    · refine (performs_expireUnsigned _ fun _ => he row.id _).toExcept.bind fun r => ?_
      cases r with
      | ok u => exact ih _
      | error e => trivial
    · split
      · refine ((hr row).resolveSigned _ _).toExcept.bind fun r => ?_
        cases r with
        | ok r => exact (ih r.2).bind fun found => trivial
        | error e => trivial
      · exact ih _

theorem performs_walk (currentLedger : ℕ) {rows : List IntentRow}
    (hr : ∀ row ∈ rows, row.status ∈ signedActiveStatuses → Resolving φ row)
    (he : ∀ row ∈ rows, row.status ∈ unsignedActiveStatuses →
      ∀ last, φ (.transition row.id (unsignedExpiredRequest last currentLedger)))
    (switchBudget : ℕ) (degraded : Bool) :
    (walk P currentLedger rows switchBudget degraded).Performs φ := by
  induction rows generalizing switchBudget degraded with
  | nil => trivial
  | cons row rows ih =>
    have hrest := ih (fun o ho => hr o (List.mem_cons_of_mem _ ho))
      fun o ho => he o (List.mem_cons_of_mem _ ho)
    rw [walk]
    split_ifs with hu hs
    · refine (performs_expireUnsigned _ (he row List.mem_cons_self ?_)).bind fun _ => hrest _ _
      simpa using hu
    · refine ((hr row List.mem_cons_self ?_).resolveSigned _ _).bind fun _ => hrest _ _
      simpa using hs
    · exact hrest _ _

end Performs

/-! ## `runCycle` -/

inductive FinalityHealth where
  | starting
  | healthy
  | degraded
  deriving DecidableEq

/-- What `FinalityService` remembers between cycles. -/
structure FinalityMemory where
  health : FinalityHealth
  recovered : Bool
  deriving DecidableEq

/-- A cycle that is completed sets both. -/
def FinalityMemory.update (memory : FinalityMemory) (op : Op) (_ : op.Ret) : FinalityMemory :=
  match op with
  | .completeCycle degraded => ⟨if degraded then .degraded else .healthy, true⟩
  | _ => memory

/-- `FinalityService` of one process, as far as its own memory goes: calls of `runCycle`, answers
to the operations of its cycles, and the loop going on. -/
def finalityService (P : Platform) :
    Machine (Flight Op Op.Ret Failure Pass FinalityMemory) (FlightEvent Op Op.Ret) :=
  flights (pass P) FinalityMemory.update ⟨.starting, false⟩

/-- A cycle asks for the validated ledger first. -/
theorem pass_outcome : (pass P).outcome? = none := rfl

theorem completes_ret {α : Type} (a : α) : (Prog.ret a : Service α).Completes := ⟨a, rfl⟩

theorem completes_bind {α β : Type} {p : Service α} {f : α → Service β} (hp : p.Completes)
    (hf : ∀ a, (f a).Completes) : (p >>= f).Completes :=
  hp.bind (fun a _ => hf a) fun _ he => nomatch he.choose_spec

theorem completes_toExcept {α : Type} (p : Service α) : p.toExcept.Completes :=
  .toExcept (.any p fun out => ⟨out, rfl⟩)

theorem completes_examine (currentLedger : ℕ) (rows : List IntentRow) (switchBudget : ℕ) :
    (examine P currentLedger rows switchBudget).Completes := by
  induction rows generalizing switchBudget with
  | nil => exact completes_ret _
  | cons row rows ih =>
    rw [examine]
    split
    · refine completes_bind (completes_toExcept _) fun r => ?_
      cases r with
      | ok u => exact ih _
      | error e => exact completes_ret _
    · split
      · refine completes_bind (completes_toExcept _) fun r => ?_
        cases r with
        | ok r => exact completes_bind (ih r.2) fun found => completes_ret _
        | error e => exact completes_ret _
      · exact ih _

/-- **A cycle never rejects**: its errors end in its `catch`. -/
theorem completes_pass : (pass P).Completes := by
  refine completes_bind (completes_toExcept _) fun r => ?_
  cases r with
  | error e => exact completes_ret _
  | ok r =>
    refine completes_bind (completes_examine _ _ _) fun found => ?_
    obtain ⟨outcomes, result⟩ := found
    cases result with
    | ok u => exact fun _ _ => completes_ret _
    | error e => exact completes_ret _

/-- **One cycle at a time, and no lost trigger.** At most one loop is running, and without one no
trigger is outstanding; a promise settles after a cycle that started after the call; a cycle is
started for the calls that were made in the one before, or by a call when none was running; and a
loop whose cycle has finished goes on with one more cycle exactly if a call was made in it. -/
theorem single_flight {s : Flight Op Op.Ret Failure Pass FinalityMemory}
    (h : (finalityService P).Reach Machine.anyEvent s) :
    s.loops.length ≤ 1 ∧ (s.loops = [] → s.pending = false ∧ s.running = none) ∧
    (∀ before between after p,
      s.log = before ++ .called p :: (between ++ .settled p :: after) →
      ∃ n out b₁ b₂ b₃, between = b₁ ++ .started n :: (b₂ ++ .finished n out :: b₃)) ∧
    AllJustified s.log ∧
    ∀ l ∈ s.loops, l.prog.outcome? ≠ none →
      ∃ s' since, (finalityService P).step s (.resume l.promise) = some s' ∧
        Since s.log l.number since ∧
        ((∃ p, Mark.called p ∈ since) → s'.log = s.log ++ [.started (l.number + 1)]) ∧
        ((∀ p, Mark.called p ∉ since) →
          s'.log = s.log ++ [.settled l.promise] ∧ s'.loops = []) := by
  have hb : (pass P).outcome? = none := pass_outcome
  obtain ⟨hone, hnone⟩ := flight_single hb completes_pass h
  exact ⟨hone, hnone, fun _ _ _ _ => flight_settled hb completes_pass h,
    (flight_invariant hb completes_pass h).2,
    fun l hl => flight_resume hb completes_pass h hl⟩

namespace Sample

/-- The answers while no endpoint can be reached. -/
def unreachable : (op : Op) → op.Ret
  | .now => (0 : ℕ)
  | .randomUUID => ""
  | .networkId => (0 : ℕ)
  | .recovered => false
  | .completeCycle _ => ()
  | .send _ => ()
  | .receive _ => .error .unavailable
  | .switchEndpoint _ => .error .unavailable
  | .findById _ => .ok none
  | .findByStatuses _ => .ok []
  | .transition _ _ => .ok none
  | .updateInStatus _ _ _ => .ok none
  | .createIdempotent _ => .error .failed

end Sample

/-- Two triggers during a cycle that fails: one more cycle. -/
theorem single_flight_coalesced : ∃ s : Flight Op Op.Ret Failure Pass FinalityMemory,
    s.log = [.called 0, .started 0, .called 0, .called 0, .finished 0 (.ok ⟨[], false⟩),
      .started 1] ∧ s.loops.length ≤ 1 ∧ AllJustified s.log := by
  obtain ⟨hone, -, -, hj, -⟩ := single_flight (P := Sample.platform) (.of_play rfl
    (show (finalityService Sample.platform).play ⟨false, none, [], 0, 0, ⟨.starting, false⟩, []⟩
      [.call, .call, .call, .reply 0 Sample.unreachable, .reply 0 Sample.unreachable,
        .resume 0] = some _ from rfl))
  exact ⟨_, rfl, hone, hj⟩

end Orchestrator
