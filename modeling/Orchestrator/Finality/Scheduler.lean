import Orchestrator.Finality.Passes

/-!
# The scheduler and its end

`finality.scheduler.ts` triggers cycles at startup, on every validated ledger and at an interval.
`onModuleDestroy` stops the triggers and awaits the cycle that is running, so that none is left when
the connection and the database pool are closed.

* `FinalityScheduler`, `SchedulerEvent`, `scheduler`: the service with its scheduler;
* `step_finality`, `scheduler_finality`: what it does to the cycles is a run of them;
* `FinalityScheduler.Sound`, `FinalityScheduler.Quiet`, `runs_quiet`: what holds once it has been
  stopped; **`destroy_quiesces`**.
-/

namespace Orchestrator

open Interleave

/-- The `await` that `onModuleDestroy` is at: it has not been called, or it is `idle()` on the
promise of a loop, or it has returned. -/
inductive ModuleDestroy where
  | notCalled
  | idle (promise : ℕ)
  | done
  deriving DecidableEq

/-- The cycles, the callback on validated ledgers, the interval timer, and the flag. -/
structure FinalityScheduler where
  finality : Flight Op Op.Ret Failure Pass FinalityMemory
  listening : Bool
  timer : Bool
  stopped : Bool
  destroy : ModuleDestroy

/-- The two hooks, what the callback and the timer deliver, and what the cycles do. -/
inductive SchedulerEvent where
  | onApplicationBootstrap
  | validatedLedger
  | interval
  | onModuleDestroy
  | reply (promise : ℕ) (answer : (op : Op) → op.Ret)
  | resume (promise : ℕ)

namespace FinalityScheduler

variable (P : Platform)

def trigger (s : FinalityScheduler) : FinalityScheduler :=
  if s.stopped then s else { s with finality := s.finality.call (pass P) }

def step (s : FinalityScheduler) : SchedulerEvent → Option FinalityScheduler
  | .onApplicationBootstrap =>
    if s.listening then none else some ({ s with listening := true, timer := true }.trigger P)
  | .validatedLedger => if s.listening then some (s.trigger P) else none
  | .interval => if s.timer then some (s.trigger P) else none
  | .onModuleDestroy =>
    if s.destroy = .notCalled then some { s with
      stopped := true
      timer := false
      destroy := match s.finality.running with
        | some promise => .idle promise
        | none => .done }
    else none
  | .reply promise answer =>
    ((finalityService P).step s.finality (.reply promise answer)).map fun finality =>
      { s with finality }
  | .resume promise =>
    ((finalityService P).step s.finality (.resume promise)).map fun finality => { s with
      finality
      destroy := if s.destroy = .idle promise ∧ finality.running ≠ some promise then .done
        else s.destroy }

end FinalityScheduler

/-- The scheduler of one process. -/
def scheduler (P : Platform) : Machine FinalityScheduler SchedulerEvent where
  init s := s = ⟨⟨false, none, [], 0, 0, ⟨.starting, false⟩, []⟩, false, false, false, .notCalled⟩
  step := FinalityScheduler.step P

theorem finalityService_step {P : Platform} {f : Flight Op Op.Ret Failure Pass FinalityMemory}
    {e : FlightEvent Op Op.Ret} :
    (finalityService P).step f e = Flight.step (pass P) FinalityMemory.update f e :=
  rfl

namespace FinalityScheduler

variable {P : Platform} {s s' : FinalityScheduler} {e : SchedulerEvent}

/-- **What an event does to the cycles**: it calls `runCycle`, which a stopped scheduler does not,
or the loop that is running goes on, or nothing happens to them. -/
theorem step_finality (h : s.step P e = some s') :
    s'.finality = s.finality ∨ (s.stopped = false ∧ s'.finality = s.finality.call (pass P)) ∨
      ∃ promise, (finalityService P).step s.finality (.resume promise) = some s'.finality ∨
        ∃ answer,
          (finalityService P).step s.finality (.reply promise answer) = some s'.finality := by
  have trigger (s : FinalityScheduler) : (s.trigger P).finality = s.finality ∨
      (s.stopped = false ∧ (s.trigger P).finality = s.finality.call (pass P)) := by
    unfold FinalityScheduler.trigger
    split
    · exact .inl rfl
    next hs => exact .inr ⟨by simpa using hs, rfl⟩
  have either {p q r : Prop} (h : p ∨ q) : p ∨ q ∨ r := h.imp id .inl
  cases e with
  | onApplicationBootstrap =>
    obtain ⟨-, h⟩ := Option.ite_none_left_eq_some.mp h
    obtain rfl := Option.some.inj h
    exact either (trigger { s with listening := true, timer := true })
  | validatedLedger | interval =>
    obtain ⟨-, h⟩ := Option.ite_none_right_eq_some.mp h
    obtain rfl := Option.some.inj h
    exact either (trigger s)
  | onModuleDestroy =>
    obtain ⟨-, h⟩ := Option.ite_none_right_eq_some.mp h
    obtain rfl := Option.some.inj h
    exact .inl rfl
  | reply promise answer =>
    obtain ⟨f, hf, rfl⟩ := Option.map_eq_some_iff.mp h
    exact .inr (.inr ⟨promise, .inr ⟨answer, hf⟩⟩)
  | resume promise =>
    obtain ⟨f, hf, rfl⟩ := Option.map_eq_some_iff.mp h
    exact .inr (.inr ⟨promise, .inl hf⟩)

theorem step_stopped (hs : s.stopped = true) (h : s.step P e = some s') : s'.stopped = true := by
  have trigger (s : FinalityScheduler) (hs : s.stopped = true) : (s.trigger P).stopped = true := by
    rw [FinalityScheduler.trigger, if_pos hs]
    exact hs
  cases e with
  | onApplicationBootstrap =>
    obtain ⟨-, h⟩ := Option.ite_none_left_eq_some.mp h
    obtain rfl := Option.some.inj h
    exact trigger { s with listening := true, timer := true } hs
  | validatedLedger | interval =>
    obtain ⟨-, h⟩ := Option.ite_none_right_eq_some.mp h
    obtain rfl := Option.some.inj h
    exact trigger s hs
  | onModuleDestroy =>
    obtain ⟨-, h⟩ := Option.ite_none_right_eq_some.mp h
    obtain rfl := Option.some.inj h
    rfl
  | reply | resume =>
    obtain ⟨f, -, rfl⟩ := Option.map_eq_some_iff.mp h
    exact hs

/-- `onModuleDestroy` sets the flag, awaits the loop that is running, and returns when none is. -/
structure Sound (s : FinalityScheduler) : Prop where
  stopped : s.destroy ≠ .notCalled ↔ s.stopped = true
  idle : ∀ promise, s.destroy = .idle promise → s.finality.running = some promise
  done : s.destroy = .done → s.finality.running = none

theorem trigger_sound (h : s.Sound) : (s.trigger P).Sound := by
  unfold trigger
  split
  · exact h
  next hs =>
    have hcalled : s.destroy = .notCalled := not_not.mp fun hd => hs (h.stopped.mp hd)
    refine ⟨h.stopped, fun p hd => ?_, fun hd => ?_⟩
    · cases hcalled.symm.trans hd
    · cases hcalled.symm.trans hd

/-- A loop that goes on, or settles, is the one that is awaited. -/
theorem resume_promise (hsingle : s.finality.Single) {promise : ℕ}
    {f : Flight Op Op.Ret Failure Pass FinalityMemory}
    (hf : (finalityService P).step s.finality (.resume promise) = some f) :
    s.finality.running = some promise := by
  obtain idle | ⟨l, since, busy⟩ := hsingle
  · simp [finalityService_step, Flight.step, Flight.find, idle.loops] at hf
  · rw [finalityService_step, Flight.step, busy.find] at hf
    split_ifs at hf with hp
    exact hp ▸ busy.running

theorem Sound.step (h : s.Sound) (hsingle : s.finality.Single) (hs : s.step P e = some s') :
    s'.Sound := by
  cases e with
  | onApplicationBootstrap =>
    obtain ⟨-, hs⟩ := Option.ite_none_left_eq_some.mp hs
    obtain rfl := Option.some.inj hs
    exact trigger_sound ⟨h.stopped, h.idle, h.done⟩
  | validatedLedger | interval =>
    obtain ⟨-, hs⟩ := Option.ite_none_right_eq_some.mp hs
    obtain rfl := Option.some.inj hs
    exact trigger_sound h
  | onModuleDestroy =>
    obtain ⟨-, hs⟩ := Option.ite_none_right_eq_some.mp hs
    obtain rfl := Option.some.inj hs
    cases hr : s.finality.running with
    | none => exact ⟨by simp, by simp, fun _ => hr⟩
    | some promise =>
      refine ⟨by simp, fun p hp => ?_, by simp⟩
      cases hp
      exact hr
  | reply promise answer =>
    obtain ⟨f, hf, rfl⟩ := Option.map_eq_some_iff.mp hs
    rw [finalityService_step] at hf
    obtain ⟨-, -, hrunning | ⟨-, promise', hp⟩⟩ := Flight.step_quiet (by simp) hf
    · exact ⟨h.stopped, fun p hp => hrunning.trans (h.idle p hp),
        fun hd => hrunning.trans (h.done hd)⟩
    · cases hp
  | resume promise =>
    obtain ⟨f, hf, rfl⟩ := Option.map_eq_some_iff.mp hs
    have hpromise := resume_promise hsingle hf
    have hdone : s.destroy ≠ .done := fun hd => by cases hpromise.symm.trans (h.done hd)
    rw [finalityService_step] at hf
    obtain ⟨-, -, hrunning | ⟨hrunning, -⟩⟩ := Flight.step_quiet (by simp) hf
    · have hstays : ¬(s.destroy = .idle promise ∧ f.running ≠ some promise) :=
        fun hd => hd.2 (hrunning.trans hpromise)
      simp only [if_neg hstays]
      exact ⟨h.stopped, fun p hp => hrunning.trans (h.idle p hp), fun hd => absurd hd hdone⟩
    · have hne : f.running ≠ some promise := fun he => by cases hrunning.symm.trans he
      by_cases hd : s.destroy = .idle promise
      · simp only [if_pos (And.intro hd hne)]
        refine ⟨⟨fun _ => h.stopped.mp (by simp [hd]), fun _ => by simp⟩, fun p hp => ?_,
          fun _ => hrunning⟩
        cases hp
      · have hstays : ¬(s.destroy = .idle promise ∧ f.running ≠ some promise) := fun hc => hd hc.1
        simp only [if_neg hstays]
        refine ⟨h.stopped, fun p hp => ?_, fun hd => absurd hd hdone⟩
        cases hpromise.symm.trans (h.idle p hp)
        exact absurd hp hd

/-! ## Runs -/

/-- **What the scheduler does to the cycles** is a run of them. -/
theorem scheduler_finality (h : (scheduler P).Reach Machine.anyEvent s) :
    (finalityService P).Reach Machine.anyEvent s.finality := by
  refine h.inv (P := fun s => (finalityService P).Reach Machine.anyEvent s.finality)
    (fun s hi => ?_) fun s e s' _ ih hs _ => ?_
  · obtain rfl := hi
    exact ⟨_, [], rfl, .refl⟩
  · obtain he | ⟨-, he⟩ | ⟨promise, he | ⟨answer, he⟩⟩ := step_finality hs
    · rwa [he]
    · exact ih.step (e := .call) (congrArg some he.symm) trivial
    · exact ih.step he trivial
    · exact ih.step he trivial

theorem reach_single (h : (scheduler P).Reach Machine.anyEvent s) : s.finality.Single :=
  (flight_invariant pass_outcome completes_pass (scheduler_finality h)).1

theorem reach_sound (h : (scheduler P).Reach Machine.anyEvent s) : s.Sound := by
  refine h.inv (fun s hi => ?_) fun s e s' hk ih hs _ => ih.step (reach_single hk) hs
  obtain rfl := hi
  exact ⟨by simp, by simp, by simp⟩

/-- What a stopped scheduler leaves as it is. -/
structure Quiet (s s' : FinalityScheduler) : Prop where
  stopped : s'.stopped = true
  log : ∃ marks, s'.finality.log = s.finality.log ++ marks ∧ ∀ p, Mark.called p ∉ marks
  outstanding : s'.finality.outstanding = s.finality.outstanding

theorem Quiet.cycles {s₁ : FinalityScheduler} (h : Quiet s s₁) (hs : s₁.step P e = some s')
    {e' : FlightEvent Op Op.Ret} (he' : e' ≠ .call)
    (he : (finalityService P).step s₁.finality e' = some s'.finality) : Quiet s s' := by
  obtain ⟨⟨marks, hlog, hm⟩, ho, -⟩ := Flight.step_quiet he' (finalityService_step ▸ he)
  obtain ⟨before, hbefore, hb⟩ := h.log
  refine ⟨step_stopped h.stopped hs, ⟨before ++ marks, ?_, fun p hp => ?_⟩, ho.trans h.outstanding⟩
  · rw [hlog, hbefore, List.append_assoc]
  · obtain hp | hp := List.mem_append.mp hp
    · exact hb p hp
    · exact hm p hp

theorem runs_quiet (hstopped : s.stopped = true) {es : List SchedulerEvent}
    (h : (scheduler P).Runs Machine.anyEvent s es s') : Quiet s s' := by
  induction h with
  | refl => exact ⟨hstopped, ⟨[], (List.append_nil _).symm, by simp⟩, rfl⟩
  | step _ hs _ ih =>
    obtain he | ⟨hfalse, -⟩ | ⟨promise, he | ⟨answer, he⟩⟩ := step_finality hs
    · exact ⟨step_stopped ih.stopped hs, he ▸ ih.log, he ▸ ih.outstanding⟩
    · cases ih.stopped.symm.trans hfalse
    · exact ih.cycles hs (by simp) he
    · exact ih.cycles hs (by simp) he

/-- Nothing happens any more. -/
theorem step_done (hsingle : s.finality.Single) (h : s.Sound) (hd : s.destroy = .done)
    (hs : s.step P e = some s') : s'.finality = s.finality ∧ s'.destroy = .done := by
  have hrunning := h.done hd
  have hstopped := h.stopped.mp (by simp [hd])
  have trigger (s : FinalityScheduler) (hs : s.stopped = true) : s.trigger P = s := if_pos hs
  have hloops : s.finality.loops = [] := by
    obtain idle | ⟨l, since, busy⟩ := hsingle
    · exact idle.loops
    · cases busy.running.symm.trans hrunning
  cases e with
  | onApplicationBootstrap =>
    obtain ⟨-, hs⟩ := Option.ite_none_left_eq_some.mp hs
    obtain rfl := Option.some.inj hs
    rw [trigger { s with listening := true, timer := true } hstopped]
    exact ⟨rfl, hd⟩
  | validatedLedger | interval =>
    obtain ⟨-, hs⟩ := Option.ite_none_right_eq_some.mp hs
    obtain rfl := Option.some.inj hs
    rw [trigger s hstopped]
    exact ⟨rfl, hd⟩
  | onModuleDestroy => simp [step, hd] at hs
  | reply | resume =>
    simp [step, finalityService_step, Flight.step, Flight.find, hloops] at hs

theorem runs_done (hk : (scheduler P).Reach Machine.anyEvent s) (hd : s.destroy = .done)
    {es : List SchedulerEvent} (h : (scheduler P).Runs Machine.anyEvent s es s') :
    s'.finality = s.finality ∧ s'.destroy = .done := by
  induction h with
  | refl => exact ⟨rfl, hd⟩
  | step hr hs _ ih =>
    have hk := hk.runs hr
    obtain ⟨hf, hd⟩ := step_done (reach_single hk) (reach_sound hk) ih.2 hs
    exact ⟨hf.trans ih.1, hd⟩

/-- While it waits, the loop that is running goes on with the last cycle, or it ends. -/
theorem idle_resume (hk : (scheduler P).Reach Machine.anyEvent s) {promise : ℕ}
    (hd : s.destroy = .idle promise) : ∃ l, s.finality.loops = [l] ∧ l.promise = promise ∧
      (l.prog.outcome? ≠ none → ∃ s', s.step P (.resume promise) = some s' ∧
        if s.finality.pending then s'.destroy = .idle promise ∧ s'.finality.pending = false
        else s'.destroy = .done) := by
  have hrunning := (reach_sound hk).idle promise hd
  obtain idle | ⟨l, since, busy⟩ := reach_single hk
  · cases idle.running.symm.trans hrunning
  · obtain rfl : l.promise = promise := Option.some.inj (busy.running.symm.trans hrunning)
    refine ⟨l, busy.loops, rfl, fun hout => ?_⟩
    obtain ⟨out, hl⟩ := Option.ne_none_iff_exists'.mp hout
    obtain ⟨a, rfl⟩ := busy.outcome hl
    have hnext : (finalityService P).step s.finality (.resume l.promise) =
        some (Flight.next (pass P) { s.finality with loops := [] } l.promise) := by
      rw [finalityService_step, Flight.step, busy.find, if_pos rfl]
      simp only [hl, busy.loops_filter]
    refine ⟨_, by rw [step, hnext]; rfl, ?_⟩
    split
    next hp => simp [Flight.next, hp, hrunning, hd]
    next hp => simp [Flight.next, Flight.leave, hp, hd]

end FinalityScheduler

/-- **The scheduler comes to rest.** Once `onModuleDestroy` has been called, in every run from there
on no call of `runCycle` is made and no cycle starts but the one that was asked for while another
was running. While it awaits, one loop is running, and as soon as its cycle has ended it goes on
with that last cycle or the hook returns. Once the hook has returned, no cycle is running, and none
starts, reads or writes anything again. -/
theorem destroy_quiesces (P : Platform) (s : FinalityScheduler)
    (hk : (scheduler P).Reach Machine.anyEvent s) (hd : s.destroy ≠ .notCalled) :
    (∀ es s', (scheduler P).Runs Machine.anyEvent s es s' →
      (∃ marks, s'.finality.log = s.finality.log ++ marks ∧ ∀ p, Mark.called p ∉ marks) ∧
      s'.finality.cycles ≤ s.finality.cycles + (if s.finality.pending then 1 else 0) ∧
      (s.destroy = .done → s'.finality = s.finality)) ∧
    (s.destroy = .done → s.finality.loops = []) ∧
    ∀ promise, s.destroy = .idle promise → ∃ l, s.finality.loops = [l] ∧ l.promise = promise ∧
      (l.prog.outcome? ≠ none → ∃ s', s.step P (.resume promise) = some s' ∧
        if s.finality.pending then s'.destroy = .idle promise ∧ s'.finality.pending = false
        else s'.destroy = .done) := by
  have hsound := FinalityScheduler.reach_sound hk
  refine ⟨fun es s' hr => ?_, fun hdone => ?_, fun promise => FinalityScheduler.idle_resume hk⟩
  · have quiet := FinalityScheduler.runs_quiet (hsound.stopped.mp hd) hr
    have ho := quiet.outstanding
    unfold Flight.outstanding at ho
    exact ⟨quiet.log, by omega, fun hdone => (FinalityScheduler.runs_done hk hdone hr).1⟩
  · obtain idle | ⟨l, since, busy⟩ := FinalityScheduler.reach_single hk
    · exact idle.loops
    · cases busy.running.symm.trans (hsound.done hdone)

/-- A process that is stopped in its first cycle, with a validated ledger reported meanwhile: one
more cycle. -/
theorem destroy_quiesces_triggered : ∃ s : FinalityScheduler, s.destroy = .idle 0 ∧
    s.finality.cycles = 1 ∧ s.finality.pending = true ∧
    ∀ es s', (scheduler Sample.platform).Runs Machine.anyEvent s es s' →
      s'.finality.cycles ≤ 2 := by
  have hk := Machine.Reach.of_play (m := scheduler Sample.platform) rfl
    (show (scheduler Sample.platform).play _
      [.onApplicationBootstrap, .validatedLedger, .onModuleDestroy] = some _ from rfl)
  have hquiet := (destroy_quiesces Sample.platform _ hk (by decide)).1
  exact ⟨_, rfl, rfl, rfl, fun es s' hr => (hquiet es s' hr).2.1⟩

end Orchestrator
