import Mathlib.Data.List.Basic

/-!
# Event machines

A machine takes events one at a time: each either leads to a next state or cannot happen there.

* `Machine`, `Machine.Runs`: runs with the list of their events, each step under a condition;
* **`Machine.Reach.inv`**: invariants over whole runs;
* `Machine.play`, `Machine.play_runs`, `Machine.restrict`: runs that are computed.
-/

namespace Interleave

variable {S E : Type}

/-- A deterministic reaction to each event that can happen. -/
structure Machine (S E : Type) where
  init : S → Prop
  step : S → E → Option S

namespace Machine

variable (m : Machine S E) (ok : S → E → Prop)

/-- A run from `s`: its events, each of which satisfies `ok` where it happens. -/
inductive Runs (s : S) : List E → S → Prop
  | refl : Runs s [] s
  | step {es s' e s''} : Runs s es s' → m.step s' e = some s'' → ok s' e → Runs s (es ++ [e]) s''

/-- The states that the runs from a start lead to. -/
def Reach (s : S) : Prop := ∃ s₀ es, m.init s₀ ∧ m.Runs ok s₀ es s

/-- Every event is allowed. -/
abbrev anyEvent : S → E → Prop := fun _ _ => True

variable {m ok}

theorem Reach.step {s s' : S} {e : E} (h : m.Reach ok s) (hs : m.step s e = some s')
    (hok : ok s e) : m.Reach ok s' :=
  let ⟨s₀, es, hi, hr⟩ := h
  ⟨s₀, es ++ [e], hi, hr.step hs hok⟩

theorem Reach.runs {s s' : S} {es : List E} (h : m.Reach ok s) (hr : m.Runs ok s es s') :
    m.Reach ok s' := by
  induction hr with
  | refl => exact h
  | step _ hs hok ih => exact ih.step hs hok

/-- **Invariants over whole runs**: true of every start, and kept by every event of a run. -/
theorem Reach.inv {P : S → Prop} {s : S} (h : m.Reach ok s) (h0 : ∀ s, m.init s → P s)
    (hstep : ∀ s e s', m.Reach ok s → P s → m.step s e = some s' → ok s e → P s') : P s := by
  obtain ⟨s₀, es, hi, hr⟩ := h
  induction hr with
  | refl => exact h0 _ hi
  | step hr hs hok ih => exact hstep _ _ _ ⟨s₀, _, hi, hr⟩ ih hs hok

/-- The state that a list of events leads to. -/
def play (m : Machine S E) (s : S) : List E → Option S
  | [] => some s
  | e :: es => (m.step s e).bind fun s' => play m s' es

theorem Runs.cons {s s' s'' : S} {e : E} {es : List E} (hs : m.step s e = some s')
    (hok : ok s e) (hr : m.Runs ok s' es s'') : m.Runs ok s (e :: es) s'' := by
  induction hr with
  | refl => exact Runs.step .refl hs hok
  | step _ hs' hok' ih => exact ih.step hs' hok'

/-- What is played is a run, if its events are allowed wherever they happen. -/
theorem Runs.of_play {s s' : S} {es : List E} (h : m.play s es = some s')
    (hok : ∀ e ∈ es, ∀ s, ok s e) : m.Runs ok s es s' := by
  induction es generalizing s with
  | nil =>
    obtain rfl := Option.some.inj h
    exact .refl
  | cons e es ih =>
    obtain ⟨s₁, hs, hp⟩ := Option.bind_eq_some_iff.mp h
    exact .cons hs (hok e List.mem_cons_self s)
      (ih hp fun e' he' => hok e' (List.mem_cons_of_mem _ he'))

/-- **What is played is a run.** -/
theorem play_runs {s s' : S} {es : List E} (h : m.play s es = some s') :
    m.Runs anyEvent s es s' :=
  .of_play h fun _ _ _ => trivial

theorem Reach.of_play {s₀ s : S} {es : List E} (hi : m.init s₀) (h : m.play s₀ es = some s) :
    m.Reach anyEvent s :=
  ⟨s₀, es, hi, play_runs h⟩

/-- The machine with the events that are not allowed taken away. -/
def restrict (m : Machine S E) (ok : S → E → Prop) [∀ s e, Decidable (ok s e)] : Machine S E where
  init := m.init
  step s e := if ok s e then m.step s e else none

/-- What is played with allowed events only. -/
theorem Reach.of_restrict {ok : S → E → Prop} [∀ s e, Decidable (ok s e)] {s₀ s : S} {es : List E}
    (hi : m.init s₀) (h : (m.restrict ok).play s₀ es = some s) : m.Reach ok s := by
  refine ⟨s₀, es, hi, ?_⟩
  clear hi
  induction es generalizing s₀ with
  | nil =>
    obtain rfl := Option.some.inj h
    exact .refl
  | cons e es ih =>
    obtain ⟨s₁, hs, hp⟩ := Option.bind_eq_some_iff.mp h
    obtain ⟨hok, hs⟩ := Option.ite_none_right_eq_some.mp hs
    exact .cons hs hok (ih hp)

end Machine

end Interleave
