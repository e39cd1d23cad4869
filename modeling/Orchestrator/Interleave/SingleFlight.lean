import Orchestrator.Interleave.Machine
import Orchestrator.Interleave.Outcomes

/-!
# Single-flight, coalescing cycles

A cycle is a program that must not run twice at once. Whoever wants one sets a flag and starts a
loop if none is running; the loop clears the flag before each cycle, tests it after, and ends when
it is clear. A call gets the promise of the loop. The log shows what happened in which order.

* `Loop`, `Flight`, `FlightEvent`, `flights`: the machine;
* `Mark`, `Justified`: what the log says of a start, an end and a settled promise;
* `Flight.Single`: the invariant; **`flight_single`**, **`flight_justified`**;
* **`flight_resume`**: how a loop goes on after its cycle.
-/

namespace Interleave

variable {Op : Type} {Ret : Op → Type} {ε α σ : Type}

/-- What is seen of the loops: calls, cycles and settled promises. -/
inductive Mark (ε α : Type)
  | called (promise : ℕ)
  | started (number : ℕ)
  | finished (number : ℕ) (out : Except ε α)
  | settled (promise : ℕ)

/-- A loop that waits for its cycle: what is left of it. -/
structure Loop (Op : Type) (Ret : Op → Type) (ε α : Type) where
  promise : ℕ
  number : ℕ
  prog : Prog Op Ret ε α

/-- The flag, the promise of the running loop, and the memory that the cycles write. -/
structure Flight (Op : Type) (Ret : Op → Type) (ε α σ : Type) where
  pending : Bool
  running : Option ℕ
  loops : List (Loop Op Ret ε α)
  promises : ℕ
  cycles : ℕ
  memory : σ
  log : List (Mark ε α)

/-- A call, the answer to the next operation of a cycle, or the continuation of a loop. -/
inductive FlightEvent (Op : Type) (Ret : Op → Type)
  | call
  | reply (promise : ℕ) (answer : (op : Op) → Ret op)
  | resume (promise : ℕ)

namespace Flight

variable (body : Prog Op Ret ε α) (update : σ → (op : Op) → Ret op → σ)

/-- The end of a loop: nothing is running, and its promise settles. -/
def leave (s : Flight Op Ret ε α σ) (promise : ℕ) : Flight Op Ret ε α σ :=
  { s with running := none, log := s.log ++ [.settled promise] }

/-- The test of a loop. -/
def next (s : Flight Op Ret ε α σ) (promise : ℕ) : Flight Op Ret ε α σ :=
  if s.pending then
    { s with
      pending := false
      loops := s.loops ++ [⟨promise, s.cycles, body⟩]
      cycles := s.cycles + 1
      log := s.log ++ [.started s.cycles] }
  else s.leave promise

/-- A call sets the flag, and starts a loop if none is running. -/
def call (s : Flight Op Ret ε α σ) : Flight Op Ret ε α σ :=
  match s.running with
  | some promise => { s with pending := true, log := s.log ++ [.called promise] }
  | none =>
    { next body { s with
        pending := true
        promises := s.promises + 1
        log := s.log ++ [.called s.promises] } s.promises with
      running := some s.promises }

def find (s : Flight Op Ret ε α σ) (promise : ℕ) : Option (Loop Op Ret ε α) :=
  s.loops.find? fun l => l.promise == promise

/-- The log of a cycle that may have come to its end. -/
def ended (number : ℕ) (prog : Prog Op Ret ε α) : List (Mark ε α) :=
  match prog.outcome? with
  | some out => [.finished number out]
  | none => []

def step (s : Flight Op Ret ε α σ) : FlightEvent Op Ret → Option (Flight Op Ret ε α σ)
  | .call => some (s.call body)
  | .reply promise answer => match s.find promise with
    | some ⟨_, number, .call op k⟩ => some { s with
        loops := s.loops.map fun l =>
          if l.promise = promise then ⟨promise, number, k (answer op)⟩ else l
        memory := update s.memory op (answer op)
        log := s.log ++ ended number (k (answer op)) }
    | _ => none
  | .resume promise => match s.find promise with
    | some l =>
      let s := { s with loops := s.loops.filter fun l => l.promise != promise }
      match l.prog.outcome? with
      | some (.ok _) => some (s.next body promise)
      | some (.error _) => some (s.leave promise)
      | none => none
    | none => none

end Flight

/-! ## What a step can do -/

namespace Flight

/-- No cycle takes a step: the memory stays, and a new loop waits for a new cycle. -/
structure Grows (body : Prog Op Ret ε α) (s s' : Flight Op Ret ε α σ) : Prop where
  log : ∃ marks, s'.log = s.log ++ marks ∧ ∀ n out, Mark.finished n out ∉ marks
  memory : s'.memory = s.memory
  loops : ∀ l ∈ s'.loops, l ∈ s.loops ∨ l.prog = body

variable {body : Prog Op Ret ε α} {update : σ → (op : Op) → Ret op → σ}
  {s s' : Flight Op Ret ε α σ}

theorem Grows.next (h : Grows body s s') (promise : ℕ) : Grows body s (s'.next body promise) := by
  obtain ⟨marks, hlog, hm⟩ := h.log
  rw [Flight.next]
  split
  · refine ⟨⟨marks ++ [.started s'.cycles], by simp [hlog], by simpa using hm⟩, h.memory,
      fun l hl => ?_⟩
    obtain hl | hl := List.mem_append.mp hl
    · exact h.loops l hl
    · exact .inr (congrArg Loop.prog (List.mem_singleton.mp hl))
  · exact ⟨⟨marks ++ [.settled promise], by simp [leave, hlog], by simpa using hm⟩, h.memory,
      h.loops⟩

theorem find_some {promise : ℕ} {l : Loop Op Ret ε α} (h : s.find promise = some l) :
    l ∈ s.loops ∧ l.promise = promise :=
  ⟨List.mem_of_find?_eq_some h, by simpa using List.find?_some h⟩

/-- **What a step can do**: the cycle of a loop is answered, or no cycle takes a step. -/
theorem step_cases {e : FlightEvent Op Ret} (h : step body update s e = some s') :
    Grows body s s' ∨ ∃ l ∈ s.loops, ∃ answer op k, e = .reply l.promise answer ∧
      l.prog = .call op k ∧ s' = { s with
        loops := s.loops.map fun l' =>
          if l'.promise = l.promise then ⟨l.promise, l.number, k (answer op)⟩ else l'
        memory := update s.memory op (answer op)
        log := s.log ++ ended l.number (k (answer op)) } := by
  cases e with
  | call =>
    obtain rfl := Option.some.inj h
    refine .inl ?_
    rw [call]
    split
    · exact ⟨⟨[.called _], rfl, by simp⟩, rfl, fun l hl => .inl hl⟩
    · have start : Grows body s { s with
          pending := true
          promises := s.promises + 1
          log := s.log ++ [.called s.promises] } :=
        ⟨⟨[.called _], rfl, by simp⟩, rfl, fun l hl => .inl hl⟩
      exact { start.next s.promises with }
  | reply promise answer =>
    rw [step] at h
    split at h
    next promise' number op k hf =>
      obtain ⟨hl, rfl⟩ := find_some hf
      exact .inr ⟨_, hl, answer, op, k, rfl, rfl, (Option.some.inj h).symm⟩
    next => cases h
  | resume promise =>
    rw [step] at h
    split at h
    next l hf =>
      have rest : Grows body s { s with
          loops := s.loops.filter fun l => l.promise != promise } :=
        ⟨⟨[], by simp, by simp⟩, rfl, fun l hl => .inl (List.mem_filter.mp hl).1⟩
      dsimp only at h
      split at h
      · obtain rfl := Option.some.inj h
        exact .inl (rest.next promise)
      · obtain rfl := Option.some.inj h
        refine .inl ⟨⟨[.settled promise], by simp [leave], by simp⟩, rfl, fun l hl => ?_⟩
        exact .inl (List.mem_filter.mp hl).1
      · cases h
    next => cases h

end Flight

/-- Cycles of `body` from a memory on. -/
def flights (body : Prog Op Ret ε α) (update : σ → (op : Op) → Ret op → σ) (memory : σ) :
    Machine (Flight Op Ret ε α σ) (FlightEvent Op Ret) where
  init s := s = ⟨false, none, [], 0, 0, memory, []⟩
  step := Flight.step body update

/-! ## What the log says -/

/-- The log up to now is that of the start of cycle `n` and what came since. -/
def Since (log : List (Mark ε α)) (n : ℕ) (since : List (Mark ε α)) : Prop :=
  (∃ before, log = before ++ .started n :: since) ∧ ∀ m, Mark.started m ∉ since

/-- What a mark says of the log before it. A cycle finishes that has not finished before. A promise
settles when the last cycle has finished and no call was made in it. A cycle starts when the last
one has finished and calls were made in it, or when the loop had ended and a call was made. -/
def Justified (log : List (Mark ε α)) : Mark ε α → Prop
  | .called _ => True
  | .finished n _ => ∃ since, Since log n since ∧ ∀ m out, Mark.finished m out ∉ since
  | .settled _ => ∃ n since, Since log n since ∧ (∃ out, Mark.finished n out ∈ since) ∧
      ∀ p, Mark.called p ∉ since
  | .started m => (m = 0 ∧ ∃ p, log = [.called p]) ∨
      ∃ n since, Since log n since ∧ m = n + 1 ∧ (∃ out, Mark.finished n out ∈ since) ∧
        (((∃ p, Mark.called p ∈ since) ∧ ∀ p, Mark.settled p ∉ since) ∨
          ∃ since' p q, since = since' ++ [.settled p, .called q])

/-- Every mark of the log is justified. -/
def AllJustified (log : List (Mark ε α)) : Prop :=
  ∀ before x after, log = before ++ x :: after → Justified before x

theorem AllJustified.snoc {log : List (Mark ε α)} {x : Mark ε α} (h : AllJustified log)
    (hx : Justified log x) : AllJustified (log ++ [x]) := by
  intro before y after he
  obtain rfl | ⟨after, z, rfl⟩ := List.eq_nil_or_concat after
  · obtain ⟨rfl, hy⟩ := List.append_inj' he rfl
    cases hy
    exact hx
  · have he : log ++ [x] = (before ++ y :: after) ++ [z] := by simpa using he
    exact h before y after (List.append_inj' he rfl).1

theorem Since.snoc {log since : List (Mark ε α)} {n : ℕ} {x : Mark ε α} (h : Since log n since)
    (hx : ∀ m, x ≠ .started m) : Since (log ++ [x]) n (since ++ [x]) := by
  obtain ⟨⟨before, rfl⟩, hs⟩ := h
  refine ⟨⟨before, by simp⟩, fun m hm => ?_⟩
  obtain hm | hm := List.mem_append.mp hm
  · exact hs m hm
  · exact hx m (List.mem_singleton.mp hm).symm

theorem Since.start (log : List (Mark ε α)) (n : ℕ) : Since (log ++ [.started n]) n [] :=
  ⟨⟨log, rfl⟩, by simp⟩

/-! ## The invariant -/

/-- The program cannot reject, whatever it is answered. -/
def Prog.Completes (p : Prog Op Ret ε α) : Prop := p.Given (fun _ _ => True) fun out => ∃ a, out = .ok a

namespace Flight

/-- The loop that is running, and the log since its cycle started. -/
structure Busy (s : Flight Op Ret ε α σ) (l : Loop Op Ret ε α) (since : List (Mark ε α)) : Prop where
  loops : s.loops = [l]
  running : s.running = some l.promise
  cycles : s.cycles = l.number + 1
  log : Since s.log l.number since
  pending : s.pending = true ↔ ∃ p, Mark.called p ∈ since
  unsettled : ∀ p, Mark.settled p ∉ since
  unfinished : l.prog.outcome? = none → ∀ m out, Mark.finished m out ∉ since
  finished : l.prog.outcome? ≠ none → ∃ out, Mark.finished l.number out ∈ since
  completes : l.prog.Completes

/-- No loop is running: none ever was, or the last one has settled. -/
structure Idle (s : Flight Op Ret ε α σ) : Prop where
  loops : s.loops = []
  running : s.running = none
  pending : s.pending = false
  log : (s.log = [] ∧ s.cycles = 0) ∨ ∃ n since p, s.cycles = n + 1 ∧
    Since s.log n (since ++ [.settled p]) ∧ ∃ out, Mark.finished n out ∈ since

/-- At most one loop is running, and its flag is about the cycle it is in. -/
def Single (s : Flight Op Ret ε α σ) : Prop := s.Idle ∨ ∃ l since, s.Busy l since

variable {body : Prog Op Ret ε α} {update : σ → (op : Op) → Ret op → σ}
  {s : Flight Op Ret ε α σ} {l : Loop Op Ret ε α} {since : List (Mark ε α)}

/-- A call in a cycle is remembered. -/
theorem Busy.call (body : Prog Op Ret ε α) (h : s.Busy l since) :
    (s.call body).Busy l (since ++ [.called l.promise]) ∧
      (AllJustified s.log → AllJustified (s.call body).log) := by
  have hc : s.call body = { s with pending := true, log := s.log ++ [.called l.promise] } := by
    rw [Flight.call, h.running]
  rw [hc]
  refine ⟨{ h with
    log := h.log.snoc (x := .called _) nofun
    pending := ⟨fun _ => ⟨l.promise, by simp⟩, fun _ => rfl⟩
    unsettled := ?_
    unfinished := ?_
    finished := ?_ }, fun hj => hj.snoc (x := .called _) trivial⟩
  · simpa using h.unsettled
  · simpa using h.unfinished
  · simpa using h.finished

/-- A first call starts a loop. -/
theorem Idle.call (h : s.Idle) (hb : body.outcome? = none) (hc : body.Completes) :
    (∃ l, (s.call body).Busy l []) ∧
      (AllJustified s.log → AllJustified (s.call body).log) := by
  have hcall : s.call body = { s with
      pending := false
      running := some s.promises
      loops := [⟨s.promises, s.cycles, body⟩]
      promises := s.promises + 1
      cycles := s.cycles + 1
      log := s.log ++ [.called s.promises] ++ [.started s.cycles] } := by
    rw [Flight.call, h.running]
    simp [Flight.next, h.loops]
  rw [hcall]
  refine ⟨⟨⟨s.promises, s.cycles, body⟩, {
    loops := rfl
    running := rfl
    cycles := rfl
    log := .start _ _
    pending := by simp
    unsettled := by simp
    unfinished := by simp
    finished := fun hne => absurd hb hne
    completes := hc }⟩, fun hj => (hj.snoc (x := .called _) trivial).snoc ?_⟩
  obtain ⟨hlog, hcycles⟩ | ⟨n, since, p, hcycles, hlog, out, hout⟩ := h.log
  · exact .inl ⟨hcycles, s.promises, by rw [hlog]; rfl⟩
  · exact .inr ⟨n, since ++ [.settled p] ++ [.called s.promises], hlog.snoc (x := .called _) nofun, hcycles,
      ⟨out, by simp [hout]⟩, .inr ⟨since, p, s.promises, by simp⟩⟩

theorem Busy.find (h : s.Busy l since) (promise : ℕ) :
    s.find promise = if l.promise = promise then some l else none := by
  rw [Flight.find, h.loops]
  by_cases hp : l.promise = promise <;> simp [hp]

/-- A cycle takes a step. -/
theorem Busy.reply (h : s.Busy l since) {op : Op} {k : Ret op → Prog Op Ret ε α}
    (hl : l.prog = .call op k) (r : Ret op) (memory : σ) :
    (∃ l' since', Busy { s with
      loops := s.loops.map fun l' =>
        if l'.promise = l.promise then ⟨l.promise, l.number, k r⟩ else l'
      memory := memory
      log := s.log ++ ended l.number (k r) } l' since') ∧
      (AllJustified s.log → AllJustified (s.log ++ ended l.number (k r))) := by
  have hnone : l.prog.outcome? = none := by
    rw [hl]
    rfl
  have hk : (k r).Completes := by
    have hc := h.completes
    rw [hl] at hc
    exact hc r trivial
  cases hout : (k r).outcome? with
  | none =>
    rw [ended, hout, List.append_nil]
    refine ⟨⟨⟨l.promise, l.number, k r⟩, since, { h with
      loops := by simp [h.loops]
      unfinished := fun _ => h.unfinished hnone
      finished := fun hne => absurd hout hne
      completes := hk }⟩, fun hj => hj⟩
  | some out =>
    rw [ended, hout]
    refine ⟨⟨⟨l.promise, l.number, k r⟩, since ++ [.finished l.number out], {
      loops := by simp [h.loops]
      running := h.running
      cycles := h.cycles
      log := h.log.snoc (x := .finished _ _) nofun
      pending := by simpa using h.pending
      unsettled := by simpa using h.unsettled
      unfinished := fun hn => nomatch hout.symm.trans hn
      finished := fun _ => ⟨out, by simp⟩
      completes := hk }⟩, fun hj => hj.snoc ⟨since, h.log, h.unfinished hnone⟩⟩

/-- A loop goes on after its cycle: with the next cycle if a call was made in this one. -/
theorem Busy.next (h : s.Busy l since) (hb : body.outcome? = none) (hc : body.Completes)
    (hl : l.prog.outcome? ≠ none) {s' : Flight Op Ret ε α σ}
    (hs : s' = ({ s with loops := [] }.next body l.promise)) :
    s'.Single ∧ (AllJustified s.log → AllJustified s'.log) ∧
      ((∃ p, Mark.called p ∈ since) → s'.log = s.log ++ [.started (l.number + 1)]) ∧
      ((∀ p, Mark.called p ∉ since) → s'.log = s.log ++ [.settled l.promise] ∧ s'.loops = []) := by
  obtain ⟨out, hout⟩ := h.finished hl
  by_cases hp : ∃ p, Mark.called p ∈ since
  · obtain rfl : s' = { s with
        pending := false
        loops := [⟨l.promise, s.cycles, body⟩]
        cycles := s.cycles + 1
        log := s.log ++ [.started s.cycles] } := by
      rw [hs, Flight.next, if_pos (h.pending.mpr hp), List.nil_append]
    refine ⟨.inr ⟨⟨l.promise, s.cycles, body⟩, [], {
      loops := rfl
      running := h.running
      cycles := rfl
      log := .start _ _
      pending := by simp
      unsettled := by simp
      unfinished := by simp
      finished := fun hne => absurd hb hne
      completes := hc }⟩, fun hj => hj.snoc ?_, fun _ => by rw [h.cycles], fun hn => ?_⟩
    · exact .inr ⟨l.number, since, h.log, h.cycles, ⟨out, hout⟩, .inl ⟨hp, h.unsettled⟩⟩
    · exact absurd hp (not_exists.mpr hn)
  · have hpending : s.pending = false := Bool.eq_false_iff.mpr fun hp' => hp (h.pending.mp hp')
    obtain rfl : s' = { s with
        loops := []
        running := none
        log := s.log ++ [.settled l.promise] } := by
      rw [hs, Flight.next, if_neg (by simp [hpending]), Flight.leave]
    refine ⟨.inl {
      loops := rfl
      running := rfl
      pending := hpending
      log := .inr ⟨l.number, since, l.promise, h.cycles, h.log.snoc nofun, out, hout⟩ },
      fun hj => hj.snoc ?_, fun hc => absurd hc hp, fun _ => ⟨rfl, rfl⟩⟩
    exact ⟨l.number, since, h.log, ⟨out, hout⟩, not_exists.mp hp⟩

theorem Busy.loops_filter (h : s.Busy l since) :
    (s.loops.filter fun l' => l'.promise != l.promise) = [] := by
  rw [h.loops]
  simp

/-- The cycle of a loop that cannot reject has completed when it has come to its end. -/
theorem Busy.outcome (h : s.Busy l since) {out : Except ε α} (hl : l.prog.outcome? = some out) :
    ∃ a, out = .ok a := by
  have hc := h.completes
  cases hp : l.prog with
  | ret a =>
    rw [hp] at hl
    exact ⟨a, (Option.some.inj hl).symm⟩
  | fail e =>
    rw [hp] at hc
    obtain ⟨a, ha⟩ := hc
    cases ha
  | call op k =>
    rw [hp] at hl
    cases hl

/-- **Every event keeps the invariant**, and what it logs is justified. -/
theorem Single.step (h : s.Single) (hb : body.outcome? = none) (hc : body.Completes)
    {e : FlightEvent Op Ret} {s' : Flight Op Ret ε α σ}
    (hs : Flight.step body update s e = some s') :
    s'.Single ∧ (AllJustified s.log → AllJustified s'.log) := by
  cases e with
  | call =>
    obtain rfl := Option.some.inj hs
    obtain h | ⟨l, since, h⟩ := h
    · obtain ⟨⟨l, hl⟩, hj⟩ := h.call hb hc
      exact ⟨.inr ⟨l, [], hl⟩, hj⟩
    · obtain ⟨hl, hj⟩ := h.call body
      exact ⟨.inr ⟨l, _, hl⟩, hj⟩
  | reply promise answer =>
    obtain h | ⟨l, since, h⟩ := h
    · simp [Flight.step, Flight.find, h.loops] at hs
    · rw [Flight.step, h.find] at hs
      split_ifs at hs with hp
      · obtain ⟨promise', number, prog⟩ := l
        subst hp
        cases prog with
        | call op k =>
          obtain rfl := Option.some.inj hs
          obtain ⟨⟨l', since', hl⟩, hj⟩ := h.reply rfl (answer op) (update s.memory op (answer op))
          exact ⟨.inr ⟨l', since', hl⟩, hj⟩
        | ret a => cases hs
        | fail e => cases hs
  | resume promise =>
    obtain h | ⟨l, since, h⟩ := h
    · simp [Flight.step, Flight.find, h.loops] at hs
    · rw [Flight.step, h.find] at hs
      split_ifs at hs with hp
      · subst hp
        cases hout : l.prog.outcome? with
        | none => simp [hout] at hs
        | some out =>
          obtain ⟨a, rfl⟩ := h.outcome hout
          simp only [hout, h.loops_filter, Option.some.injEq] at hs
          obtain ⟨hsingle, hj, -⟩ := h.next hb hc (by simp [hout]) hs.symm
          exact ⟨hsingle, hj⟩

end Flight

variable {body : Prog Op Ret ε α} {update : σ → (op : Op) → Ret op → σ} {memory : σ}
  {s : Flight Op Ret ε α σ}

theorem flight_invariant (hb : body.outcome? = none) (hc : body.Completes)
    (h : (flights body update memory).Reach Machine.anyEvent s) :
    s.Single ∧ AllJustified s.log := by
  refine h.inv (P := fun s => s.Single ∧ AllJustified s.log) (fun s hi => ?_)
    fun s e s' _ ih hs _ => ?_
  · obtain rfl := hi
    exact ⟨.inl ⟨rfl, rfl, rfl, .inl ⟨rfl, rfl⟩⟩, fun before x after he => by simp at he⟩
  · obtain ⟨hsingle, hj⟩ := ih.1.step hb hc hs
    exact ⟨hsingle, hj ih.2⟩

/-- **At most one loop is running**, and without one no trigger is outstanding. -/
theorem flight_single (hb : body.outcome? = none) (hc : body.Completes)
    (h : (flights body update memory).Reach Machine.anyEvent s) :
    s.loops.length ≤ 1 ∧ (s.loops = [] → s.pending = false ∧ s.running = none) := by
  obtain hi | ⟨l, since, hbusy⟩ := (flight_invariant hb hc h).1
  · simp [hi.loops, hi.pending, hi.running]
  · simp [hbusy.loops]

/-- **A promise settles after a cycle that started after the call.** -/
theorem flight_settled (hb : body.outcome? = none) (hc : body.Completes)
    (h : (flights body update memory).Reach Machine.anyEvent s) {before between after : List (Mark ε α)}
    {p : ℕ} (hlog : s.log = before ++ .called p :: (between ++ .settled p :: after)) :
    ∃ n out b₁ b₂ b₃, between = b₁ ++ .started n :: (b₂ ++ .finished n out :: b₃) := by
  have hj : Justified (before ++ .called p :: between) (.settled p) :=
    (flight_invariant hb hc h).2 _ _ after (by simp [hlog])
  obtain ⟨n, since, ⟨⟨pre, hpre⟩, -⟩, ⟨out, hout⟩, hcalls⟩ := hj
  obtain ⟨b₂, b₃, hsince⟩ := List.append_of_mem hout
  -- The last cycle started after the call, because no call was made in it.
  obtain ⟨as, -, has⟩ | ⟨bs, -, hbs⟩ := List.append_eq_append_iff.mp hpre
  · cases as with
    | nil => cases has
    | cons a as =>
      obtain ⟨-, rfl⟩ := List.cons.inj has
      exact ⟨n, out, as, b₂, b₃, hsince ▸ rfl⟩
  · cases bs with
    | nil => cases hbs
    | cons b bs =>
      obtain ⟨-, rfl⟩ := List.cons.inj hbs
      exact absurd (by simp) (hcalls p)

/-- **A loop goes on after its cycle**: one more cycle if a call was made in this one, else none. -/
theorem flight_resume (hb : body.outcome? = none) (hc : body.Completes)
    (h : (flights body update memory).Reach Machine.anyEvent s) {l : Loop Op Ret ε α}
    (hl : l ∈ s.loops) (hout : l.prog.outcome? ≠ none) :
    ∃ s' since, Flight.step body update s (.resume l.promise) = some s' ∧
      Since s.log l.number since ∧
      ((∃ p, Mark.called p ∈ since) → s'.log = s.log ++ [.started (l.number + 1)]) ∧
      ((∀ p, Mark.called p ∉ since) → s'.log = s.log ++ [.settled l.promise] ∧ s'.loops = []) := by
  obtain hi | ⟨l', since, hbusy⟩ := (flight_invariant hb hc h).1
  · rw [hi.loops] at hl
    cases hl
  · rw [hbusy.loops] at hl
    obtain rfl := List.mem_singleton.mp hl
    cases hl' : l.prog.outcome? with
    | none => exact absurd hl' hout
    | some out =>
      obtain ⟨a, rfl⟩ := hbusy.outcome hl'
      refine ⟨_, since, ?_, hbusy.log, (hbusy.next hb hc hout rfl).2.2⟩
      rw [Flight.step, hbusy.find, if_pos rfl]
      simp only [hl', hbusy.loops_filter]

namespace Flight

/-- The cycles that have started, and the one that is sure to start. -/
def outstanding (s : Flight Op Ret ε α σ) : ℕ := s.cycles + if s.pending then 1 else 0

/-- **Without a call** no further cycle becomes outstanding, and a loop is running until it settles. -/
theorem step_quiet {e : FlightEvent Op Ret} {s' : Flight Op Ret ε α σ} (he : e ≠ .call)
    (hs : Flight.step body update s e = some s') :
    (∃ marks, s'.log = s.log ++ marks ∧ ∀ p, Mark.called p ∉ marks) ∧
      s'.outstanding = s.outstanding ∧
      (s'.running = s.running ∨ s'.running = none ∧ ∃ promise, e = .resume promise) := by
  cases e with
  | call => exact absurd rfl he
  | reply promise answer =>
    rw [Flight.step] at hs
    split at hs
    next number op k _ =>
      obtain rfl := Option.some.inj hs
      refine ⟨⟨ended number (k (answer op)), rfl, fun p => ?_⟩, rfl, .inl rfl⟩
      unfold ended
      split <;> simp
    · cases hs
  | resume promise =>
    have left : ∃ marks, s.log ++ [Mark.settled promise] = s.log ++ marks ∧
        ∀ p, (Mark.called p : Mark ε α) ∉ marks := ⟨_, rfl, by simp⟩
    rw [Flight.step] at hs
    split at hs
    · dsimp only at hs
      split at hs <;> cases hs
      · unfold Flight.next
        split
        next hp =>
          have hpending : s.pending = true := hp
          exact ⟨⟨_, rfl, by simp⟩, by simp [outstanding, hpending], .inl rfl⟩
        · exact ⟨left, rfl, .inr ⟨rfl, promise, rfl⟩⟩
      · exact ⟨left, rfl, .inr ⟨rfl, promise, rfl⟩⟩
    · cases hs

end Flight

end Interleave
