import Orchestrator.Interleave.System

/-!
# Disciplines: proving a property of every operation of every run

A discipline is an invariant of the world, a preorder that every step of the system follows, and
a permit saying which operations may be performed where. The laws of a discipline are about
single operations. `Obeys` then reads one program, alone: whatever other calls do between its
operations, each operation it comes to is permitted.

* `Discipline`: invariant, preorder, permit, and their laws;
* `Obeys`, `obeys_bind`, `obeys_toExcept`, `Obeys.frame`, `Obeys.seq`: the program logic;
* **`Discipline.sound`**: in every run, the invariant holds, and every operation performed was
  permitted where it was performed.
-/

namespace Interleave

variable {Op : Type} {Ret : Op → Type} {ε α β L S : Type}

/-- An invariant, a preorder of worlds and a permit that fit the operations of a system. -/
structure Discipline (sys : System Op Ret ε α L S) where
  Inv : World Op Ret L S → Prop
  Rely : World Op Ret L S → World Op Ret L S → Prop
  Permit : World Op Ret L S → ℕ → L → Op → Prop
  refl : ∀ w, Rely w w
  trans : ∀ {w w' w''}, Rely w w' → Rely w' w'' → Rely w w''
  exec : ∀ {w pid l op r s}, Inv w → Permit w pid l op → sys.exec w.state op r s →
    Inv (w.record pid l op r s) ∧ Rely w (w.record pid l op r s)
  env : ∀ {w s}, Inv w → sys.env w.state s → Inv { w with state := s } ∧ Rely w { w with state := s }
  restart : ∀ {w s}, Inv w → sys.restart w.state s →
    Inv { w with state := s } ∧ Rely w { w with state := s }

variable {sys : System Op Ret ε α L S} (d : Discipline sys) (pid : ℕ) (l : L)

/-- The program asks only for permitted operations, and `Q` holds where it ends. Between two of
its operations the world moves along `d.Rely`. -/
def Obeys (Q : Except ε β → World Op Ret L S → Prop) :
    Prog Op Ret ε β → World Op Ret L S → Prop
  | .ret a, w => Q (.ok a) w
  | .fail e, w => Q (.error e) w
  | .call op k, w => ∀ w₁, d.Rely w w₁ → d.Inv w₁ → d.Permit w₁ pid l op ∧
      ∀ r s, sys.exec w₁.state op r s → Obeys Q (k r) (w₁.record pid l op r s)

variable {d pid l} {γ : Type} {op : Op} {Q Q' : Except ε β → World Op Ret L S → Prop}
  {w w' : World Op Ret L S}

@[simp] theorem obeys_ret (a : β) : Obeys d pid l Q (.ret a) w ↔ Q (.ok a) w := Iff.rfl

@[simp] theorem obeys_fail (e : ε) : Obeys d pid l Q (.fail e) w ↔ Q (.error e) w := Iff.rfl

/-- What follows a program runs from where the program ended. -/
theorem obeys_bind {R : Except ε γ → World Op Ret L S → Prop} (p : Prog Op Ret ε β)
    (f : β → Prog Op Ret ε γ) (w : World Op Ret L S) :
    Obeys d pid l R (p >>= f) w ↔ Obeys d pid l (fun out w' => match out with
      | .ok a => Obeys d pid l R (f a) w'
      | .error e => R (.error e) w') p w := by
  induction p generalizing w with
  | ret a => exact Iff.rfl
  | fail e => exact Iff.rfl
  | call op k ih =>
    simp only [Prog.call_bind, Obeys, ih]

/-- A `catch` clause goes on from where the error was raised. -/
theorem obeys_toExcept {R : Except ε (Except ε β) → World Op Ret L S → Prop} (p : Prog Op Ret ε β)
    (w : World Op Ret L S) : Obeys d pid l R p.toExcept w ↔
      Obeys d pid l (fun out w' => R (.ok out) w') p w := by
  induction p generalizing w with
  | ret a => exact Iff.rfl
  | fail e => exact Iff.rfl
  | call op k ih => simp only [Prog.toExcept, Obeys, ih]

theorem Obeys.mono {p : Prog Op Ret ε β} (h : Obeys d pid l Q p w)
    (hQ : ∀ out w', Q out w' → Q' out w') : Obeys d pid l Q' p w := by
  induction p generalizing w with
  | ret a => exact hQ _ _ h
  | fail e => exact hQ _ _ h
  | call op k ih =>
    intro w₁ hr hi
    obtain ⟨hp, hk⟩ := h w₁ hr hi
    exact ⟨hp, fun r s hx => ih r (hk r s hx)⟩

/-- A program still obeys after the world has moved, as long as it has an operation to perform;
where it has none, `Q` has to bear the move. -/
theorem Obeys.rely {p : Prog Op Ret ε β} (h : Obeys d pid l Q p w) (hr : d.Rely w w')
    (hQ : ∀ out w w', d.Rely w w' → Q out w → Q out w') : Obeys d pid l Q p w' := by
  cases p with
  | ret a => exact hQ _ _ _ hr h
  | fail e => exact hQ _ _ _ hr h
  | call op k => exact fun w₁ hr₁ hi => h w₁ (d.trans hr hr₁) hi

/-- **Framing.** The end of a program is later than its beginning, and the invariant holds there. -/
theorem Obeys.frame {p : Prog Op Ret ε β} (h : Obeys d pid l Q p w) (hi : d.Inv w) :
    Obeys d pid l (fun out w' => Q out w' ∧ d.Inv w' ∧ d.Rely w w') p w := by
  induction p generalizing w with
  | ret a => exact ⟨h, hi, d.refl w⟩
  | fail e => exact ⟨h, hi, d.refl w⟩
  | call op k ih =>
    intro w₁ hr hi₁
    obtain ⟨hp, hk⟩ := h w₁ hr hi₁
    refine ⟨hp, fun r s hx => ?_⟩
    obtain ⟨hi₂, hr₂⟩ := d.exec hi₁ hp hx
    exact (ih r (hk r s hx) hi₂).mono fun out w' ⟨hq, hi', hr'⟩ =>
      ⟨hq, hi', d.trans hr (d.trans hr₂ hr')⟩

/-- **Sequencing with the frame.** -/
theorem Obeys.bind {R : Except ε γ → World Op Ret L S → Prop} {p : Prog Op Ret ε β}
    {f : β → Prog Op Ret ε γ} (h : Obeys d pid l Q p w) (hi : d.Inv w)
    (hok : ∀ a w', Q (.ok a) w' → d.Inv w' → d.Rely w w' → Obeys d pid l R (f a) w')
    (herr : ∀ e w', Q (.error e) w' → d.Inv w' → d.Rely w w' → R (.error e) w') :
    Obeys d pid l R (p >>= f) w := by
  rw [obeys_bind]
  refine (h.frame hi).mono fun out w' ⟨hq, hi', hr⟩ => ?_
  cases out with
  | ok a => exact hok a w' hq hi' hr
  | error e => exact herr e w' hq hi' hr

/-- `R` holds of the result, if there is one. -/
def Ends (R : β → World Op Ret L S → Prop) : Except ε β → World Op Ret L S → Prop
  | .ok a, w => R a w
  | .error _, _ => True

/-- **Sequencing** where an error owes nothing. -/
theorem Obeys.seq {R : β → World Op Ret L S → Prop} {R' : γ → World Op Ret L S → Prop}
    {p : Prog Op Ret ε β} {f : β → Prog Op Ret ε γ} (h : Obeys d pid l (Ends R) p w)
    (hi : d.Inv w)
    (hf : ∀ a w', R a w' → d.Inv w' → d.Rely w w' → Obeys d pid l (Ends R') (f a) w') :
    Obeys d pid l (Ends R') (p >>= f) w :=
  h.bind hi hf fun _ _ _ _ _ => trivial

theorem Obeys.ends {R R' : β → World Op Ret L S → Prop} {p : Prog Op Ret ε β}
    (h : Obeys d pid l (Ends R) p w) (hR : ∀ a w', R a w' → R' a w') :
    Obeys d pid l (Ends R') p w :=
  h.mono fun out w' hq => match out with
    | .ok a => hR a w' hq
    | .error _ => trivial

/-- An operation that is always permitted. -/
theorem obeys_perform {R : Ret op → World Op Ret L S → Prop}
    (hp : ∀ w₁, d.Rely w w₁ → d.Inv w₁ → d.Permit w₁ pid l op)
    (hR : ∀ w₁, d.Rely w w₁ → d.Inv w₁ → ∀ r s, sys.exec w₁.state op r s →
      R r (w₁.record pid l op r s)) : Obeys d pid l (Ends R) (Prog.perform op) w :=
  fun w₁ hr hi => ⟨hp w₁ hr hi, hR w₁ hr hi⟩

/-! ## Soundness -/

/-- What soundness carries along a run: the invariant, and that every call in flight obeys. -/
def Discipline.Holds (d : Discipline sys) (c : Config Op Ret ε α L S) : Prop :=
  d.Inv c.toWorld ∧
    ∀ t ∈ c.pool, Obeys d t.pid t.label (fun _ _ => True) t.prog c.toWorld

/-- The calls that did not move still obey after a step of another one. -/
theorem Discipline.holds_rely {c : Config Op Ret ε α L S} {w : World Op Ret L S}
    {pool : List (Thread Op Ret ε α L)} {n : ℕ} (h : d.Holds c) (hi : d.Inv w)
    (hr : d.Rely c.toWorld w) (hsub : ∀ t ∈ pool, t ∈ c.pool) :
    d.Holds { w with pool := pool, next := n } :=
  ⟨hi, fun t ht => (h.2 t (hsub t ht)).rely hr fun _ _ _ _ _ => trivial⟩

/-- An operation that a call in flight comes to is permitted. -/
theorem Discipline.Holds.permit {c : Config Op Ret ε α L S} (h : d.Holds c) {as bs pid l op k}
    (hp : c.pool = as ++ ⟨pid, l, .call op k⟩ :: bs) : d.Permit c.toWorld pid l op :=
  (h.2 ⟨pid, l, .call op k⟩ (by simp [hp]) c.toWorld (d.refl _) h.1).1

theorem Discipline.holds_step (hbody : ∀ pid l w, d.Inv w →
      Obeys d pid l (fun _ _ => True) (sys.body l) w)
    {c c' : Config Op Ret ε α L S} {a} (h : d.Holds c) (hs : Step sys c a c') : d.Holds c' := by
  cases hs with
  | start l =>
    refine ⟨h.1, fun t ht => ?_⟩
    rcases List.mem_append.mp ht with ht | ht
    · exact h.2 t ht
    · rw [List.mem_singleton] at ht
      subst ht
      exact hbody _ _ _ h.1
  | @op as bs pid l op k r s hp hx =>
    have hobey := h.2 ⟨pid, l, .call op k⟩ (by simp [hp]) c.toWorld (d.refl _) h.1
    have hexec : d.Inv (c.toWorld.record pid l op r s) ∧
        d.Rely c.toWorld (c.toWorld.record pid l op r s) := d.exec h.1 hobey.1 hx
    obtain ⟨hi, hr⟩ := hexec
    refine ⟨hi, fun t ht => ?_⟩
    simp only [List.mem_append, List.mem_cons] at ht
    rcases ht with ht | rfl | ht
    · exact (h.2 t (by simp [hp, ht])).rely hr fun _ _ _ _ _ => trivial
    · exact hobey.2 r s hx
    · exact (h.2 t (by simp [hp, ht])).rely hr fun _ _ _ _ _ => trivial
  | @finish as bs pid l p out hp _ =>
    refine Discipline.holds_rely h h.1 (d.refl _) fun t ht => ?_
    rcases List.mem_append.mp ht with ht | ht <;> simp [hp, ht]
  | @kill as bs t hp =>
    refine Discipline.holds_rely h h.1 (d.refl _) fun t' ht => ?_
    rcases List.mem_append.mp ht with ht | ht <;> simp [hp, ht]
  | env hx =>
    obtain ⟨hi, hr⟩ := d.env h.1 hx
    exact Discipline.holds_rely h hi hr fun t ht => ht
  | restart hx =>
    obtain ⟨hi, hr⟩ := d.restart h.1 hx
    exact Discipline.holds_rely h hi hr fun t ht => absurd ht (by simp)

/-- **Soundness.** If every call obeys wherever it starts, then in every configuration of every
run the invariant holds and every call in flight obeys. -/
theorem Discipline.sound {ok : StepCond Op Ret ε α L S}
    (hinit : ∀ s, sys.init s → d.Inv ⟨s, []⟩)
    (hbody : ∀ pid l w, d.Inv w → Obeys d pid l (fun _ _ => True) (sys.body l) w)
    {c : Config Op Ret ε α L S} (h : Reach sys ok c) : d.Holds c :=
  h.inv (fun s hs => ⟨hinit s hs, by simp⟩) fun _ _ _ _ hp hs _ => d.holds_step hbody hp hs

/-- **Every step of a run follows the preorder.** -/
theorem Discipline.step_rely {c c' : Config Op Ret ε α L S} {a} (h : d.Holds c)
    (hs : Step sys c a c') : d.Rely c.toWorld c'.toWorld := by
  cases hs with
  | start => exact d.refl _
  | op hp hx => exact (d.exec h.1 (h.permit hp) hx).2
  | finish => exact d.refl _
  | kill => exact d.refl _
  | env hx => exact (d.env h.1 hx).2
  | restart hx => exact (d.restart h.1 hx).2

end Interleave
