import Orchestrator.Interleave.System

/-!
# Schedules

A run is a path in a relation; a schedule is a list that picks one. A `Runner` turns what the
outside contributes to each operation into the operation's effect, and `play` follows a schedule,
checking the condition on every step.

* `Runner`, `Turn`, `Runner.turn`, `Runner.play`;
* **`Runner.play_runs`**: a schedule that can be played is a run.
-/

namespace Interleave

variable {Op : Type} {Ret : Op → Type} {ε α L S C E N : Type}

/-- The choices of the outside as functions: `C` for operations, `E` for the surroundings, `N` for
restarts. -/
structure Runner (sys : System Op Ret ε α L S) (C E N : Type) where
  perform : S → C → (op : Op) → Option (Ret op × S)
  exec : ∀ {s ch op r s'}, perform s ch op = some (r, s') → sys.exec s op r s'
  move : S → E → S
  env : ∀ s e, sys.env s (move s e)
  reboot : S → N → S
  restart : ∀ s n, sys.restart s (reboot s n)

/-- Whose turn it is. -/
inductive Turn (L C E N : Type)
  | start (l : L)
  | op (pid : ℕ) (ch : C)
  | finish (pid : ℕ)
  | kill (pid : ℕ)
  | env (e : E)
  | restart (n : N)

/-- The call with a given number, with those before and after it. -/
def extract (pid : ℕ) : List (Thread Op Ret ε α L) →
    Option (List (Thread Op Ret ε α L) × Thread Op Ret ε α L × List (Thread Op Ret ε α L))
  | [] => none
  | t :: ts =>
    if t.pid = pid then some ([], t, ts)
    else (extract pid ts).map fun found => (t :: found.1, found.2)

theorem extract_eq {pid : ℕ} {pool as bs : List (Thread Op Ret ε α L)} {t : Thread Op Ret ε α L}
    (h : extract pid pool = some (as, t, bs)) : pool = as ++ t :: bs := by
  induction pool generalizing as with
  | nil => cases h
  | cons t' ts ih =>
    unfold extract at h
    split_ifs at h
    · cases h
      rfl
    · obtain ⟨⟨as', t'', bs'⟩, hf, he⟩ := Option.map_eq_some_iff.mp h
      cases he
      rw [ih hf]
      rfl

variable {sys : System Op Ret ε α L S} (m : Runner sys C E N)

/-- One turn: what happens, and the configuration after it. -/
def Runner.turn (c : Config Op Ret ε α L S) :
    Turn L C E N → Option (Act Op Ret ε α L × Config Op Ret ε α L S)
  | .start l => some (.start c.next l,
      { c with pool := c.pool ++ [⟨c.next, l, sys.body l⟩], next := c.next + 1 })
  | .op pid ch => match extract pid c.pool with
    | some (as, ⟨pid, l, .call op k⟩, bs) => match m.perform c.state ch op with
      | some (r, s) => some (.op pid l op r,
          { c.toWorld.record pid l op r s with pool := as ++ ⟨pid, l, k r⟩ :: bs, next := c.next })
      | none => none
    | _ => none
  | .finish pid => match extract pid c.pool with
    | some (as, t, bs) => match t.prog.outcome? with
      | some out => some (.finish t.pid t.label out, { c with pool := as ++ bs })
      | none => none
    | none => none
  | .kill pid => match extract pid c.pool with
    | some (as, t, bs) => some (.kill t, { c with pool := as ++ bs })
    | none => none
  | .env e => some (.env, { c with state := m.move c.state e })
  | .restart n => some (.restart, { c with state := m.reboot c.state n, pool := [] })

theorem Runner.turn_step {c c' : Config Op Ret ε α L S} {t : Turn L C E N} {a}
    (h : m.turn c t = some (a, c')) : Step sys c a c' := by
  cases t with
  | start l => cases h; exact .start c l
  | op pid ch =>
    simp only [Runner.turn] at h
    split at h
    · next as pid l op k bs hx =>
      split at h
      · next r s hp => cases h; exact .op (extract_eq hx) (m.exec hp)
      · cases h
    · cases h
  | finish pid =>
    simp only [Runner.turn] at h
    split at h
    · next as t bs hx =>
      split at h
      · next out ho => cases h; exact .finish (extract_eq hx) ho
      · cases h
    · cases h
  | kill pid =>
    simp only [Runner.turn] at h
    split at h
    · next as t bs hx => cases h; exact .kill (extract_eq hx)
    · cases h
  | env e => cases h; exact .env (m.env _ e)
  | restart n => cases h; exact .restart (m.restart _ n)

variable (ok : StepCond Op Ret ε α L S) [∀ c a c', Decidable (ok c a c')]

/-- Follows a schedule as long as every step can be taken and satisfies the condition. -/
def Runner.play (c : Config Op Ret ε α L S) : List (Turn L C E N) → Option (Config Op Ret ε α L S)
  | [] => some c
  | t :: ts => match m.turn c t with
    | some (a, c') => if ok c a c' then Runner.play c' ts else none
    | none => none

/-- **A schedule that can be played is a run.** -/
theorem Runner.play_runs {c c' : Config Op Ret ε α L S} {ts : List (Turn L C E N)}
    (h : m.play ok c ts = some c') : Runs sys ok c c' := by
  induction ts generalizing c with
  | nil => cases h; exact .refl
  | cons t ts ih =>
    simp only [Runner.play] at h
    split at h
    · next a c₁ ht =>
      split_ifs at h with hok
      exact (Runs.step .refl (m.turn_step ht) hok).trans (ih h)
    · cases h

theorem Runner.play_reach {s : S} (hs : sys.init s) {c : Config Op Ret ε α L S}
    {ts : List (Turn L C E N)} (h : m.play ok ⟨⟨s, []⟩, [], 0⟩ ts = some c) : Reach sys ok c :=
  ⟨s, hs, m.play_runs ok h⟩

end Interleave
