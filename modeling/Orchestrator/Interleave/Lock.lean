import Mathlib.Data.List.Chain
import Orchestrator.Interleave.Machine

/-!
# A lock

At most one owner holds it; what is taken is given back by the one who took it.

* `LockEvent`, `lock`: the machine;
* `LockEvent.Follows`, **`lock_alternates`**: in a run from the free lock, the owners take turns,
  and the last event says who holds it.
-/

namespace Interleave

variable {O : Type} [DecidableEq O]

inductive LockEvent (O : Type) where
  | acquire (owner : O)
  | release (owner : O)
  deriving DecidableEq

def LockEvent.owner {O : Type} : LockEvent O → O
  | .acquire owner | .release owner => owner

/-- The lock: its state is the owner who holds it. -/
def lock (O : Type) [DecidableEq O] : Machine (Option O) (LockEvent O) where
  init s := s = none
  step
    | none, .acquire owner => some (some owner)
    | some holder, .release owner => if owner = holder then some none else none
    | _, _ => none

/-- `b` comes directly after `a`: a release after its own acquire, an acquire after any release. -/
def LockEvent.Follows : LockEvent O → LockEvent O → Prop
  | .acquire owner, .release owner' => owner' = owner
  | .release _, .acquire _ => True
  | _, _ => False

/-- Who holds the lock after the event. -/
def LockEvent.holder : LockEvent O → Option O
  | .acquire owner => some owner
  | .release _ => none

theorem lock_step {s s' : Option O} {e : LockEvent O} (h : (lock O).step s e = some s') :
    s' = e.holder ∧ match e with
      | .acquire _ => s = none
      | .release owner => s = some owner := by
  cases s <;> cases e <;> simp only [lock, LockEvent.holder] at h ⊢
  · exact ⟨(Option.some.inj h).symm, trivial⟩
  · cases h
  · cases h
  · split at h
    next ho => exact ⟨(Option.some.inj h).symm, congrArg some ho.symm⟩
    · cases h

/-- **The owners take turns**: every release comes directly after the acquire of the same owner,
every acquire is the first event or comes directly after a release, and the lock is held by the
owner of the last event if that is an acquire. -/
theorem lock_alternates {ok : Option O → LockEvent O → Prop} {s : Option O}
    {es : List (LockEvent O)} (h : (lock O).Runs ok none es s) :
    es.IsChain LockEvent.Follows ∧ s = es.getLast?.bind LockEvent.holder := by
  induction h with
  | refl => exact ⟨.nil, rfl⟩
  | @step es s e s' _ hs _ ih =>
    obtain ⟨hchain, hlast⟩ := ih
    obtain ⟨hs', he⟩ := lock_step hs
    refine ⟨List.isChain_append.mpr ⟨hchain, List.isChain_singleton e, fun a ha b hb => ?_⟩, ?_⟩
    · obtain rfl : e = b := Option.some.inj hb
      rw [Option.mem_def.mp ha, Option.bind_some] at hlast
      cases e with
      | acquire owner =>
        cases a with
        | acquire => cases he.symm.trans hlast
        | release => trivial
      | release owner =>
        cases a with
        | acquire owner' => exact Option.some.inj (he.symm.trans hlast)
        | release => cases he.symm.trans hlast
    · rw [hs', List.getLast?_append]
      simp

end Interleave
