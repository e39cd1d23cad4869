import Mathlib.Logic.Basic

/-!
# Programs that interact with a shared state

A program is a tree of operations: it returns, raises an error, or performs one operation and
goes on with the reply. Everything a program learns about the outside it learns from replies, so
a program can be cut between any two operations and other programs can be run in the gap.

* `Prog`, `bind`, `toExcept`: the trees, sequencing, and `try … catch`;
* `Prog.Performs`: a property of every operation a program can come to.
-/

namespace Interleave

/-- A program over operations `Op`, whose operation `op` is answered by a value of `Ret op`. -/
inductive Prog (Op : Type) (Ret : Op → Type) (ε α : Type) : Type
  | ret (a : α)
  | fail (e : ε)
  | call (op : Op) (k : Ret op → Prog Op Ret ε α)

namespace Prog

variable {Op : Type} {Ret : Op → Type} {ε α β : Type}

/-- Sequencing: an error of the first program ends the whole. -/
def bind : Prog Op Ret ε α → (α → Prog Op Ret ε β) → Prog Op Ret ε β
  | ret a, f => f a
  | fail e, _ => fail e
  | call op k, f => call op fun r => (k r).bind f

/-- The program with its outcome as a value, as a `catch` clause sees it. -/
def toExcept : Prog Op Ret ε α → Prog Op Ret ε (Except ε α)
  | ret a => ret (.ok a)
  | fail e => ret (.error e)
  | call op k => call op fun r => (k r).toExcept

instance : Monad (Prog Op Ret ε) where
  pure := ret
  bind := bind

/-- The program that performs one operation and returns its reply. -/
def perform (op : Op) : Prog Op Ret ε (Ret op) := call op ret

@[simp] theorem pure_def (a : α) : (pure a : Prog Op Ret ε α) = ret a := rfl

@[simp] theorem ret_bind (a : α) (f : α → Prog Op Ret ε β) : (ret a >>= f) = f a := rfl

@[simp] theorem fail_bind (e : ε) (f : α → Prog Op Ret ε β) :
    ((fail e : Prog Op Ret ε α) >>= f) = fail e := rfl

@[simp] theorem call_bind (op : Op) (k : Ret op → Prog Op Ret ε α) (f : α → Prog Op Ret ε β) :
    (call op k >>= f) = call op fun r => k r >>= f := rfl

@[simp] theorem perform_bind (op : Op) (f : Ret op → Prog Op Ret ε β) :
    (perform op >>= f) = call op f := rfl

@[simp] theorem map_def (g : α → β) (p : Prog Op Ret ε α) :
    (g <$> p) = p >>= fun a => ret (g a) := rfl

theorem bind_assoc {γ : Type} (p : Prog Op Ret ε α) (f : α → Prog Op Ret ε β)
    (g : β → Prog Op Ret ε γ) : (p >>= f >>= g) = p >>= fun a => f a >>= g := by
  induction p with
  | ret a => rfl
  | fail e => rfl
  | call op k ih =>
    simp only [call_bind]
    congr 1
    exact funext ih

/-- The outcome of a sequence: the first error, or the outcome of the second program. -/
theorem toExcept_bind (p : Prog Op Ret ε α) (f : α → Prog Op Ret ε β) :
    (p >>= f).toExcept = p.toExcept >>= fun
      | .ok a => (f a).toExcept
      | .error e => ret (.error e) := by
  induction p with
  | ret a => rfl
  | fail e => rfl
  | call op k ih =>
    simp only [call_bind, toExcept]
    congr 1
    exact funext ih

/-- `φ` holds of every operation the program can come to. -/
def Performs (φ : Op → Prop) : Prog Op Ret ε α → Prop
  | call op k => φ op ∧ ∀ r, (k r).Performs φ
  | _ => True

variable {φ : Op → Prop}

@[simp] theorem performs_ret (a : α) : (ret a : Prog Op Ret ε α).Performs φ := trivial

@[simp] theorem performs_fail (e : ε) : (fail e : Prog Op Ret ε α).Performs φ := trivial

theorem Performs.bind {p : Prog Op Ret ε α} {f : α → Prog Op Ret ε β} (hp : p.Performs φ)
    (hf : ∀ a, (f a).Performs φ) : (p >>= f).Performs φ := by
  induction p with
  | ret a => exact hf a
  | fail e => trivial
  | call op k ih => exact ⟨hp.1, fun r => ih r (hp.2 r)⟩

theorem Performs.mono {φ' : Op → Prop} {p : Prog Op Ret ε α} (hp : p.Performs φ)
    (h : ∀ op, φ op → φ' op) : p.Performs φ' := by
  induction p with
  | ret a => trivial
  | fail e => trivial
  | call op k ih => exact ⟨h op hp.1, fun r => ih r (hp.2 r)⟩

theorem Performs.toExcept {p : Prog Op Ret ε α} (hp : p.Performs φ) : p.toExcept.Performs φ := by
  induction p with
  | ret a => trivial
  | fail e => trivial
  | call op k ih => exact ⟨hp.1, fun r => ih r (hp.2 r)⟩

theorem performs_any (p : Prog Op Ret ε α) : p.Performs fun _ => True := by
  induction p with
  | ret a => trivial
  | fail e => trivial
  | call op k ih => exact ⟨trivial, ih⟩

theorem performs_perform {op : Op} (h : φ op) : (perform op : Prog Op Ret ε (Ret op)).Performs φ :=
  ⟨h, fun _ => trivial⟩

end Prog

end Interleave
