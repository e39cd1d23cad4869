import Orchestrator.Interleave.Calls

/-!
# Outcomes of single calls

What a program ends with, if the replies to its operations can be relied on: the partial-correctness
rules of programs, with an assumption on replies in the place of a precondition.

* `Prog.Given`, `Given.bind`, `Given.toExcept`: the rules;
* `Clean`, `Given.seq`: a value with a property, or an error that is not a bad one;
* **`Given.trace`**: what a program has left to run, after replies that satisfy the assumption;
* `Reach.outcome`, `Reach.performs`: what a call of a run ends with, and what it performs.
-/

namespace Interleave

variable {Op : Type} {Ret : Op → Type} {ε α β L S : Type}

/-- If every reply satisfies `A`, the program ends with an outcome that satisfies `Q`. -/
def Prog.Given (A : (op : Op) → Ret op → Prop) (Q : Except ε α → Prop) : Prog Op Ret ε α → Prop
  | .ret a => Q (.ok a)
  | .fail e => Q (.error e)
  | .call op k => ∀ r, A op r → (k r).Given A Q

/-- The result satisfies `R`, or the error is not a bad one. -/
def Clean (bad : ε → Prop) (R : α → Prop) : Except ε α → Prop
  | .ok a => R a
  | .error e => ¬ bad e

namespace Prog.Given

variable {A : (op : Op) → Ret op → Prop} {Q Q' : Except ε α → Prop} {p : Prog Op Ret ε α}

theorem mono (h : p.Given A Q) (hQ : ∀ out, Q out → Q' out) : p.Given A Q' := by
  induction p with
  | ret a => exact hQ _ h
  | fail e => exact hQ _ h
  | call op k ih => exact fun r hr => ih r (h r hr)

/-- **Sequencing.** -/
theorem bind {R : Except ε β → Prop} {f : α → Prog Op Ret ε β} (h : p.Given A Q)
    (hok : ∀ a, Q (.ok a) → (f a).Given A R) (herr : ∀ e, Q (.error e) → R (.error e)) :
    (p >>= f).Given A R := by
  induction p with
  | ret a => exact hok a h
  | fail e => exact herr e h
  | call op k ih => exact fun r hr => ih r (h r hr)

/-- Nothing is asked of a program that may end as it likes. -/
theorem any (p : Prog Op Ret ε α) (hQ : ∀ out, Q out) : p.Given A Q := by
  induction p with
  | ret a => exact hQ _
  | fail e => exact hQ _
  | call op k ih => exact fun r _ => ih r

/-- A `catch` clause sees the outcome. -/
theorem toExcept {R : Except ε (Except ε α) → Prop} (h : p.Given A fun out => R (.ok out)) :
    p.toExcept.Given A R := by
  induction p with
  | ret a => exact h
  | fail e => exact h
  | call op k ih => exact fun r hr => ih r (h r hr)

theorem perform {op : Op} {R : Except ε (Ret op) → Prop} (h : ∀ r, A op r → R (.ok r)) :
    (Prog.perform op : Prog Op Ret ε (Ret op)).Given A R := h

variable {bad : ε → Prop} {R : α → Prop} {R' : β → Prop}

/-- **Sequencing** where no part ends with a bad error. -/
theorem seq {f : α → Prog Op Ret ε β} (h : p.Given A (Clean bad R))
    (hf : ∀ a, R a → (f a).Given A (Clean bad R')) : (p >>= f).Given A (Clean bad R') :=
  h.bind hf fun _ he => he

theorem clean {R'' : α → Prop} (h : p.Given A (Clean bad R)) (hR : ∀ a, R a → R'' a) :
    p.Given A (Clean bad R'') :=
  h.mono fun out ho => match out with
    | .ok a => hR a ho
    | .error _ => ho

/-- **What is left of a program** after replies that satisfy the assumption. -/
theorem trace {sys : System Op Ret ε β L S} {p' : Prog Op Ret ε α} {tr : List (Done Op Ret S)}
    (h : p.Given A Q) (ht : Trace sys p tr p') (hA : ∀ d ∈ tr, A d.op d.ret) : p'.Given A Q := by
  induction ht with
  | refl => exact h
  | call _ _ ih =>
    exact ih (h _ (hA _ List.mem_cons_self)) fun d hd => hA d (List.mem_cons_of_mem _ hd)

end Prog.Given

variable {sys : System Op Ret ε α L S} {ok : StepCond Op Ret ε α L S}
  {c c' : Config Op Ret ε α L S}

/-- **The outcome of a call of a run**, if its own replies satisfy the assumption. -/
theorem Reach.outcome {A : (op : Op) → Ret op → Prop} {Q : L → Except ε α → Prop}
    (hbody : ∀ l, (sys.body l).Given A (Q l)) (h : Reach sys ok c) {pid : ℕ} {l : L}
    {out : Except ε α} (hs : Step sys c (.finish pid l out) c')
    (hA : ∀ e ∈ own pid c.log, A e.op e.ret) : Q l out := by
  cases hs with
  | @finish as bs _ _ p _ hp hout =>
    obtain ⟨tr, htr, hown⟩ := h.calls.trace ⟨pid, l, p⟩ (by simp [hp])
    have hend : p.Given A (Q l) := (hbody l).trace htr fun d hd =>
      hA (d.entry pid l) (hown ▸ List.mem_map_of_mem hd)
    cases p with
    | ret a => cases hout; exact hend
    | fail e => cases hout; exact hend
    | call => cases hout

/-- What is left of a program comes to no other operations. -/
theorem Prog.Performs.trace {φ : Op → Prop} {sys : System Op Ret ε β L S} {p p' : Prog Op Ret ε α}
    {tr : List (Done Op Ret S)} (h : p.Performs φ) (ht : Trace sys p tr p') : p'.Performs φ := by
  induction ht with
  | refl => exact h
  | call _ _ ih => exact ih (h.2 _)

/-- **An operation of a run** is one that its call can come to. -/
theorem Reach.performs {φ : Op → Prop} {l : L} (hbody : (sys.body l).Performs φ)
    (h : Reach sys ok c) {pid : ℕ} {op : Op} {r : Ret op} (hs : Step sys c (.op pid l op r) c') :
    φ op := by
  cases hs with
  | @op as bs _ _ _ k _ _ hp hx =>
    obtain ⟨tr, htr, -⟩ := h.calls.trace ⟨pid, l, .call op k⟩ (by simp [hp])
    exact (hbody.trace htr).1

end Interleave
