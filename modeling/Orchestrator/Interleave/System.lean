import Orchestrator.Interleave.Program
import Mathlib.Data.List.Basic

/-!
# Pools of programs over a shared state

A `System` says what each call of the outside runs, what an operation may do to the shared state,
how the rest of the world may change that state, and what a restart leaves of it. A configuration
holds the state, the history of all operations performed so far, and the calls in flight.

* `Step`: one call starts, performs its next operation, returns, or is cut off; or the world
  moves, or the process restarts and loses every call in flight;
* `Reach ok`: the configurations of the runs all of whose steps satisfy `ok`;
* `anyStep`, `noStart`, `startsOnly`, `oneAtATime`: conditions on the calls that start;
* `Reach.inv`: what holds at the start and is kept by every step of a run holds throughout;
* `System.withInit`: the same system, started elsewhere.
-/

namespace Interleave

variable {Op : Type} {Ret : Op → Type} {ε α L S : Type}

/-- The calls of a system, the meaning of their operations, and the moves of its surroundings. -/
structure System (Op : Type) (Ret : Op → Type) (ε α L S : Type) where
  init : S → Prop
  body : L → Prog Op Ret ε α
  exec : S → (op : Op) → Ret op → S → Prop
  env : S → S → Prop
  restart : S → S → Prop

/-- One operation of the history: which call performed it, and how it was answered. -/
structure Entry (Op : Type) (Ret : Op → Type) (L : Type) where
  pid : ℕ
  label : L
  op : Op
  ret : Ret op

/-- The shared state with the history of the operations performed on it. -/
structure World (Op : Type) (Ret : Op → Type) (L S : Type) where
  state : S
  log : List (Entry Op Ret L)

/-- A call in flight: its number, what was called, and what is left to run. -/
structure Thread (Op : Type) (Ret : Op → Type) (ε α L : Type) where
  pid : ℕ
  label : L
  prog : Prog Op Ret ε α

structure Config (Op : Type) (Ret : Op → Type) (ε α L S : Type) extends World Op Ret L S where
  pool : List (Thread Op Ret ε α L)
  next : ℕ

/-- The world after one more operation. -/
def World.record (w : World Op Ret L S) (pid : ℕ) (l : L) (op : Op) (r : Ret op) (s : S) :
    World Op Ret L S :=
  ⟨s, w.log ++ [⟨pid, l, op, r⟩]⟩

@[simp] theorem World.record_state (w : World Op Ret L S) (pid : ℕ) (l : L) (op : Op) (r : Ret op)
    (s : S) : (w.record pid l op r s).state = s := rfl

@[simp] theorem World.record_log (w : World Op Ret L S) (pid : ℕ) (l : L) (op : Op) (r : Ret op)
    (s : S) : (w.record pid l op r s).log = w.log ++ [⟨pid, l, op, r⟩] := rfl

/-- What happens in one step. -/
inductive Act (Op : Type) (Ret : Op → Type) (ε α L : Type)
  | start (pid : ℕ) (l : L)
  | op (pid : ℕ) (l : L) (op : Op) (r : Ret op)
  | finish (pid : ℕ) (l : L) (out : Except ε α)
  | kill (t : Thread Op Ret ε α L)
  | env
  | restart

/-- The outcome of a program that has nothing left to perform. -/
def Prog.outcome? : Prog Op Ret ε α → Option (Except ε α)
  | .ret a => some (.ok a)
  | .fail e => some (.error e)
  | .call _ _ => none

variable (sys : System Op Ret ε α L S)

/-- One step of the system. -/
inductive Step : Config Op Ret ε α L S → Act Op Ret ε α L → Config Op Ret ε α L S → Prop
  | start (c : Config Op Ret ε α L S) (l : L) :
      Step c (.start c.next l)
        { c with pool := c.pool ++ [⟨c.next, l, sys.body l⟩], next := c.next + 1 }
  | op {c : Config Op Ret ε α L S} {as bs pid l op k r s} :
      c.pool = as ++ ⟨pid, l, .call op k⟩ :: bs → sys.exec c.state op r s →
      Step c (.op pid l op r)
        { c.toWorld.record pid l op r s with pool := as ++ ⟨pid, l, k r⟩ :: bs, next := c.next }
  | finish {c : Config Op Ret ε α L S} {as bs pid l p out} :
      c.pool = as ++ ⟨pid, l, p⟩ :: bs → p.outcome? = some out →
      Step c (.finish pid l out) { c with pool := as ++ bs }
  | kill {c : Config Op Ret ε α L S} {as bs t} :
      c.pool = as ++ t :: bs → Step c (.kill t) { c with pool := as ++ bs }
  | env {c : Config Op Ret ε α L S} {s} :
      sys.env c.state s → Step c .env { c with state := s }
  | restart {c : Config Op Ret ε α L S} {s} :
      sys.restart c.state s → Step c .restart { c with state := s, pool := [] }

/-- A condition on the steps of a run. -/
abbrev StepCond (Op : Type) (Ret : Op → Type) (ε α L S : Type) : Type :=
  Config Op Ret ε α L S → Act Op Ret ε α L → Config Op Ret ε α L S → Prop

variable (ok : StepCond Op Ret ε α L S)

/-- `Runs sys ok c c'`: a run leads from `c` to `c'`, and each of its steps satisfies `ok`. -/
inductive Runs (c : Config Op Ret ε α L S) : Config Op Ret ε α L S → Prop
  | refl : Runs c c
  | step {c' a c''} : Runs c c' → Step sys c' a c'' → ok c' a c'' → Runs c c''

/-- The configurations reached from a start without history or calls in flight. -/
def Reach (c : Config Op Ret ε α L S) : Prop :=
  ∃ s, sys.init s ∧ Runs sys ok ⟨⟨s, []⟩, [], 0⟩ c

/-- Every step is allowed. -/
abbrev anyStep : StepCond Op Ret ε α L S := fun _ _ _ => True

/-- No call starts. -/
abbrev noStart : StepCond Op Ret ε α L S := fun _ a _ => ∀ pid l, a ≠ .start pid l

/-- No call starts but with this label. -/
abbrev startsOnly (l : L) : StepCond Op Ret ε α L S := fun _ a _ =>
  ∀ pid l', a = .start pid l' → l' = l

/-- A call with this label starts only while no other one is in flight. -/
abbrev oneAtATime (l : L) : StepCond Op Ret ε α L S := fun c a _ =>
  ∀ pid, a = .start pid l → ∀ t ∈ c.pool, t.label ≠ l

variable {sys ok}

theorem Runs.trans {c c' c'' : Config Op Ret ε α L S} (h : Runs sys ok c c')
    (h' : Runs sys ok c' c'') : Runs sys ok c c'' := by
  induction h' with
  | refl => exact h
  | step _ hs hok ih => exact .step ih hs hok

theorem Runs.mono {ok' : StepCond Op Ret ε α L S} (hok : ∀ c a c', ok c a c' → ok' c a c')
    {c c' : Config Op Ret ε α L S} (h : Runs sys ok c c') : Runs sys ok' c c' := by
  induction h with
  | refl => exact .refl
  | step _ hs ha ih => exact .step ih hs (hok _ _ _ ha)

theorem Runs.any {c c' : Config Op Ret ε α L S} (h : Runs sys ok c c') : Runs sys anyStep c c' :=
  h.mono fun _ _ _ _ => trivial

theorem Runs.of_noStart {c c' : Config Op Ret ε α L S} (h : Runs sys noStart c c') (l : L) :
    Runs sys (startsOnly l) c c' :=
  h.mono fun _ _ _ hno pid l' ha => absurd ha (hno pid l')

theorem Runs.of_startsOnly {c c' : Config Op Ret ε α L S} {l l' : L}
    (h : Runs sys (startsOnly l) c c') (hne : l' ≠ l) : Runs sys (oneAtATime l') c c' :=
  h.mono fun _ _ _ honly pid ha => absurd (honly pid l' ha) hne

/-- **Invariance along a run.** -/
theorem Runs.inv {P : Config Op Ret ε α L S → Prop} {c c' : Config Op Ret ε α L S}
    (h : Runs sys ok c c') (h0 : P c)
    (hstep : ∀ c₁ a c₂, Runs sys ok c c₁ → P c₁ → Step sys c₁ a c₂ → ok c₁ a c₂ → P c₂) :
    P c' := by
  induction h with
  | refl => exact h0
  | step hr hs hok ih => exact hstep _ _ _ hr ih hs hok

theorem Reach.step {c c' : Config Op Ret ε α L S} {a} (h : Reach sys ok c) (hs : Step sys c a c')
    (hok : ok c a c') : Reach sys ok c' :=
  let ⟨s, hi, hr⟩ := h
  ⟨s, hi, hr.step hs hok⟩

theorem Reach.runs {c c' : Config Op Ret ε α L S} (h : Reach sys ok c) (hr : Runs sys ok c c') :
    Reach sys ok c' :=
  let ⟨s, hi, h⟩ := h
  ⟨s, hi, h.trans hr⟩

theorem Reach.mono {ok' : StepCond Op Ret ε α L S} (hok : ∀ c a c', ok c a c' → ok' c a c')
    {c : Config Op Ret ε α L S} (h : Reach sys ok c) : Reach sys ok' c :=
  let ⟨s, hi, hr⟩ := h
  ⟨s, hi, hr.mono hok⟩

/-- **Invariants over whole runs**: true of every start, and kept by every step of a run. -/
theorem Reach.inv {P : Config Op Ret ε α L S → Prop} {c : Config Op Ret ε α L S}
    (h : Reach sys ok c) (h0 : ∀ s, sys.init s → P ⟨⟨s, []⟩, [], 0⟩)
    (hstep : ∀ c₁ a c₂, Reach sys ok c₁ → P c₁ → Step sys c₁ a c₂ → ok c₁ a c₂ → P c₂) : P c :=
  let ⟨_, hi, hr⟩ := h
  hr.inv (h0 _ hi) fun _ _ _ hr' hp hs hok => hstep _ _ _ ⟨_, hi, hr'⟩ hp hs hok

/-- The same system, started elsewhere. -/
def System.withInit (sys : System Op Ret ε α L S) (init : S → Prop) : System Op Ret ε α L S :=
  { sys with init }

theorem Step.withInit {c c' : Config Op Ret ε α L S} {a} (h : Step sys c a c') (init : S → Prop) :
    Step (sys.withInit init) c a c' := by
  cases h with
  | start l => exact .start _ l
  | op hp hx => exact .op hp hx
  | finish hp ho => exact .finish hp ho
  | kill hp => exact .kill hp
  | env hx => exact .env hx
  | restart hx => exact .restart hx

theorem Reach.withInit {init : S → Prop} (hinit : ∀ s, sys.init s → init s)
    {c : Config Op Ret ε α L S} (h : Reach sys ok c) : Reach (sys.withInit init) ok c := by
  refine h.inv (fun s hs => ⟨s, hinit s hs, .refl⟩) fun _ _ _ _ hc hs hok => ?_
  exact hc.step (hs.withInit init) hok

end Interleave
