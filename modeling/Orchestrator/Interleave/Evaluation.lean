import Orchestrator.Interleave.System

/-!
# Programs evaluated on their own

A program alone with surroundings that answer by rule: `react` is what an operation does to a
state, with the reply. Nothing else happens in between, so the program is a function of the state.

* `Prog.eval`: the outcome and the last state;
* `eval_bind_ok`, `eval_bind_error`, `eval_bind_inv`, `eval_toExcept`: sequencing and `catch`;
* **`eval_related`**, `eval_inv`: what operations keep, programs keep;
* **`eval_runs`**: an evaluation is a run of a system that admits the reactions;
* `InFlight`, `InFlight.eval`, **`Reach.eval_call`**: a part of a call on its own, and a whole one;
* **`exists_ended`**: the calls of a label can be let end.
-/

namespace Interleave

variable {Op : Type} {Ret : Op → Type} {ε α β L S σ : Type}

namespace Prog

/-- What a program comes to when `react` performs its operations. -/
def eval (react : σ → (op : Op) → Ret op × σ) : Prog Op Ret ε α → σ → Except ε α × σ
  | ret a, s => (.ok a, s)
  | fail e, s => (.error e, s)
  | call op k, s => (k (react s op).1).eval react (react s op).2

variable {react : σ → (op : Op) → Ret op × σ} {s s' : σ}

@[simp] theorem eval_ret (a : α) (s : σ) :
    (ret a : Prog Op Ret ε α).eval react s = (.ok a, s) := rfl

@[simp] theorem eval_fail (e : ε) (s : σ) :
    (fail e : Prog Op Ret ε α).eval react s = (.error e, s) := rfl

@[simp] theorem eval_call (op : Op) (k : Ret op → Prog Op Ret ε α) (s : σ) :
    (call op k).eval react s = (k (react s op).1).eval react (react s op).2 := rfl

/-- The first part ends with a value: the second goes on from there. -/
theorem eval_bind_ok {p : Prog Op Ret ε α} {a : α} (h : p.eval react s = (.ok a, s'))
    (f : α → Prog Op Ret ε β) : (p >>= f).eval react s = (f a).eval react s' := by
  induction p generalizing s with
  | ret b => cases h; rfl
  | fail e => cases h
  | call op k ih => exact ih _ h

/-- The first part ends with an error: so does the whole. -/
theorem eval_bind_error {p : Prog Op Ret ε α} {e : ε} (h : p.eval react s = (.error e, s'))
    (f : α → Prog Op Ret ε β) : (p >>= f).eval react s = (.error e, s') := by
  induction p generalizing s with
  | ret b => cases h
  | fail e => cases h; rfl
  | call op k ih => exact ih _ h

/-- A whole that ends with a value: so did its first part. -/
theorem eval_bind_inv {p : Prog Op Ret ε α} {f : α → Prog Op Ret ε β} {b : β}
    (h : (p >>= f).eval react s = (.ok b, s')) :
    ∃ a s₁, p.eval react s = (.ok a, s₁) ∧ (f a).eval react s₁ = (.ok b, s') := by
  cases he : p.eval react s with
  | mk out s₁ =>
    cases out with
    | ok a => exact ⟨a, s₁, rfl, (eval_bind_ok he f).symm.trans h⟩
    | error e => cases (eval_bind_error he f).symm.trans h

theorem eval_map (g : α → β) (p : Prog Op Ret ε α) (s : σ) :
    (g <$> p).eval react s = ((p.eval react s).1.map g, (p.eval react s).2) := by
  induction p generalizing s with
  | ret a => rfl
  | fail e => rfl
  | call op k ih => exact ih _ _

theorem eval_toExcept (p : Prog Op Ret ε α) (s : σ) :
    p.toExcept.eval react s = (.ok (p.eval react s).1, (p.eval react s).2) := by
  induction p generalizing s with
  | ret a => rfl
  | fail e => rfl
  | call op k ih => exact ih _ _

/-- **Related states**: if the operations of a program are answered alike in related states and
lead to related states, so is the program, and so does it. -/
theorem eval_related {R : σ → σ → Prop} {φ : Op → Prop}
    (hreact : ∀ s s' op, φ op → R s s' →
      (react s op).1 = (react s' op).1 ∧ R (react s op).2 (react s' op).2)
    {p : Prog Op Ret ε α} (hp : p.Performs φ) (h : R s s') :
    (p.eval react s).1 = (p.eval react s').1 ∧ R (p.eval react s).2 (p.eval react s').2 := by
  induction p generalizing s s' with
  | ret a => exact ⟨rfl, h⟩
  | fail e => exact ⟨rfl, h⟩
  | call op k ih =>
    obtain ⟨hret, hnext⟩ := hreact s s' op hp.1 h
    rw [eval_call, eval_call, hret]
    exact ih _ (hp.2 _) hnext

/-- What the operations of a program keep, the program keeps. -/
theorem eval_inv {I : σ → Prop} {φ : Op → Prop}
    (hreact : ∀ s op, φ op → I s → I (react s op).2) {p : Prog Op Ret ε α} (hp : p.Performs φ)
    (h : I s) : I (p.eval react s).2 := by
  induction p generalizing s with
  | ret a => exact h
  | fail e => exact h
  | call op k ih => exact ih _ (hp.2 _) (hreact s op hp.1 h)

/-- **An evaluation is a run**: a call in flight, with nothing else happening until it has an
outcome. `view` is the shared state as far as the system knows it. -/
theorem eval_runs {sys : System Op Ret ε α L S} {view : σ → S}
    (hreact : ∀ s op, sys.exec (view s) op (react s op).1 (view (react s op).2))
    (p : Prog Op Ret ε α) (s : σ) {c : Config Op Ret ε α L S} {as bs pid l}
    (hstate : c.state = view s) (hpool : c.pool = as ++ ⟨pid, l, p⟩ :: bs) :
    ∃ c' p', Runs sys noStart c c' ∧ c'.state = view (p.eval react s).2 ∧
      c'.pool = as ++ ⟨pid, l, p'⟩ :: bs ∧ p'.outcome? = some (p.eval react s).1 := by
  induction p generalizing s c with
  | ret a => exact ⟨c, _, .refl, hstate, hpool, rfl⟩
  | fail e => exact ⟨c, _, .refl, hstate, hpool, rfl⟩
  | call op k ih =>
    have hexec := hreact s op
    rw [← hstate] at hexec
    obtain ⟨c', p', hruns, hlast⟩ := ih _ (react s op).2
      (c := { c.toWorld.record pid l op (react s op).1 (view (react s op).2) with
        pool := as ++ ⟨pid, l, k (react s op).1⟩ :: bs, next := c.next }) rfl rfl
    exact ⟨c', p', (Runs.refl.step (.op hpool hexec) (fun _ _ => by simp)).trans hruns, hlast⟩

end Prog

/-- The call `pid` of a run is about to run `p`, among the calls `as` and `bs`. -/
structure InFlight (sys : System Op Ret ε α L S) (as bs : List (Thread Op Ret ε α L)) (pid : ℕ)
    (l : L) (c : Config Op Ret ε α L S) (p : Prog Op Ret ε α) : Prop where
  reach : Reach sys anyStep c
  pool : c.pool = as ++ ⟨pid, l, p⟩ :: bs

section Call

variable {sys : System Op Ret ε α L S} {react : S → (op : Op) → Ret op × S}
  {c : Config Op Ret ε α L S} {as bs : List (Thread Op Ret ε α L)} {pid : ℕ} {l : L}

/-- A call starts. -/
theorem Reach.call (h : Reach sys anyStep c) (l : L) : ∃ c', Runs sys (startsOnly l) c c' ∧
    c'.state = c.state ∧ InFlight sys c.pool [] c.next l c' (sys.body l) := by
  have hstart : Runs sys (startsOnly l) c
      { c with pool := c.pool ++ [⟨c.next, l, sys.body l⟩], next := c.next + 1 } :=
    Runs.refl.step (.start _ _) fun _ _ ha => by cases ha; rfl
  exact ⟨_, hstart, rfl, h.runs hstart.any, rfl⟩

/-- **Part of a call on its own**: with nothing else in between, the call comes to what is left. -/
theorem InFlight.eval (hreact : ∀ s op, sys.exec s op (react s op).1 (react s op).2)
    {p : Prog Op Ret ε β} {f : β → Prog Op Ret ε α} (h : InFlight sys as bs pid l c (p >>= f))
    {b : β} {s' : S} (he : p.eval react c.state = (.ok b, s')) :
    ∃ c', Runs sys noStart c c' ∧ c'.state = s' ∧ InFlight sys as bs pid l c' (f b) := by
  generalize hs : c.state = s at he
  induction p generalizing s c with
  | ret a =>
    cases he
    exact ⟨c, .refl, hs, h⟩
  | fail e => cases he
  | call op k ih =>
    have hexec := hreact c.state op
    have hop : Runs sys noStart c { c.toWorld.record pid l op (react c.state op).1
        (react c.state op).2 with
      pool := as ++ ⟨pid, l, k (react c.state op).1 >>= f⟩ :: bs
      next := c.next } := Runs.refl.step (.op h.pool hexec) fun _ _ => by simp
    subst hs
    obtain ⟨c', hruns, hlast⟩ := ih _ ⟨h.reach.runs hop.any, rfl⟩ _ rfl he
    exact ⟨c', hop.trans hruns, hlast⟩

/-- The call ends. -/
theorem InFlight.finish {a : α} (h : InFlight sys as bs pid l c (.ret a)) :
    ∃ c', Step sys c (.finish pid l (.ok a)) c' ∧ c'.pool = as ++ bs ∧ c'.state = c.state :=
  ⟨_, .finish h.pool rfl, rfl, rfl⟩

/-- **A call on its own**: it starts, and ends with what it is evaluated to. -/
theorem Reach.eval_call (hreact : ∀ s op, sys.exec s op (react s op).1 (react s op).2)
    (h : Reach sys anyStep c) {a : α} {s' : S}
    (he : (sys.body l).eval react c.state = (.ok a, s')) :
    ∃ c₁ c', Runs sys (startsOnly l) c c₁ ∧ Step sys c₁ (.finish c.next l (.ok a)) c' ∧
      c'.pool = c.pool ∧ c'.state = s' := by
  obtain ⟨c₀, hstart, hstate, hcall⟩ := h.call l
  obtain ⟨c₁, p, hruns, hlast, hpool, hout⟩ :=
    Prog.eval_runs hreact (sys.body l) c₀.state rfl hcall.pool
  rw [hstate, he] at hlast hout
  exact ⟨c₁, _, hstart.trans (hruns.of_noStart l), .finish hpool hout, List.append_nil _, hlast⟩

/-- **Calls can be let end**: those with one label, one after the other, with nothing else in
between. What their operations keep is kept. -/
theorem exists_ended [DecidableEq L]
    (hreact : ∀ s op, sys.exec s op (react s op).1 (react s op).2) {I : S → Prop}
    (hkeep : ∀ s op, I s → I (react s op).2) (l : L) (h : I c.state) :
    ∃ c', Runs sys noStart c c' ∧ c'.pool = c.pool.filter (fun t => t.label ≠ l) ∧ I c'.state := by
  suffices hrest : ∀ bs as (c : Config Op Ret ε α L S), I c.state → c.pool = as ++ bs →
      ∃ c', Runs sys noStart c c' ∧ c'.pool = as ++ bs.filter (fun t => t.label ≠ l) ∧
        I c'.state from hrest c.pool [] c h rfl
  intro bs
  induction bs with
  | nil => exact fun as c h hpool => ⟨c, .refl, hpool, h⟩
  | cons t bs ih =>
    intro as c h hpool
    by_cases hl : t.label = l
    · -- the first of them ends, and leaves the pool
      obtain ⟨c₁, p, hruns, hstate, hpool₁, hout⟩ :=
        Prog.eval_runs hreact t.prog c.state rfl hpool
      have hkept : I c₁.state :=
        hstate ▸ Prog.eval_inv (fun s op _ => hkeep s op) (Prog.performs_any t.prog) h
      have hend : Runs sys noStart c { c₁ with pool := as ++ bs } :=
        hruns.step (.finish hpool₁ hout) fun _ _ => by simp
      obtain ⟨c', hruns', hpool', hkept'⟩ := ih as { c₁ with pool := as ++ bs } hkept rfl
      exact ⟨c', hend.trans hruns', by simpa [hl] using hpool', hkept'⟩
    · obtain ⟨c', hruns, hpool', hkept⟩ := ih (as ++ [t]) c h (by simpa using hpool)
      exact ⟨c', hruns, by simpa [hl] using hpool', hkept⟩

end Call

end Interleave
