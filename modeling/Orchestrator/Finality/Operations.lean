import Orchestrator.Finality.Service

/-!
# What resolving an intent comes to

The operations of `resolveSigned`, over any property of operations: requests other than
submissions, the time, and transitions out of the signed statuses that conclude the intent.

* `TransitionRequest.Concludes`: such a transition;
* `Applying`, `Resolving`: a property that holds of all of them, before and with a switch;
* **`Resolving.resolveSigned`**.
-/

namespace Orchestrator

open Interleave

/-- Out of the signed statuses to a terminal one, counting no attempt and keeping the hash. -/
structure TransitionRequest.Concludes (request : TransitionRequest) : Prop where
  signed : request.fromStatuses = signedActiveStatuses
  terminal : isTerminal request.toStatus = true
  uncounted : request.patch.submissionAttemptCount = false
  hash : request.patch.transactionHash = none

/-- `φ` holds of every operation that applying a search to the signed intent `row` can come to. -/
structure Applying (φ : Op → Prop) (row : IntentRow) : Prop where
  send : ∀ q, (∀ txBlob, q ≠ .submit txBlob) → φ (.send q)
  receive : ∀ q, (∀ txBlob, q ≠ .submit txBlob) → φ (.receive q)
  now : φ .now
  transition : ∀ request : TransitionRequest, request.Concludes → φ (.transition row.id request)

/-- `φ` holds of every operation that resolving the signed intent `row` can come to. -/
structure Resolving (φ : Op → Prop) (row : IntentRow) : Prop extends Applying φ row where
  switchEndpoint : ∀ reason, φ (.switchEndpoint reason)

variable {P : Platform} {φ : Op → Prop} {row : IntentRow}

theorem Applying.ask (hφ : Applying φ row) {α : Type} (q : LedgerRequest)
    (read : LedgerResponse → Except Failure α) (hq : ∀ txBlob, q ≠ .submit txBlob) :
    (Orchestrator.ask q read).Performs φ :=
  performs_ask q read (hφ.send q hq) (hφ.receive q hq)

theorem Applying.failIntent (hφ : Applying φ row) (failureCode : FailureCode) (details : Record) :
    (Orchestrator.failIntent row failureCode details).Performs φ :=
  (performs_transition _ _ (hφ.transition _ ⟨rfl, rfl, rfl, rfl⟩)).bind fun _ => trivial

theorem Applying.applyProvenAbsent (hφ : Applying φ row) (last : ℕ) :
    (Orchestrator.applyProvenAbsent row last).Performs φ := by
  refine (performs_required _ _).bind fun sequence => ?_
  refine (hφ.ask _ _ (by simp)).bind fun account => ?_
  dsimp only
  split_ifs
  · trivial
  · exact (performs_transition _ _ (hφ.transition _ ⟨rfl, rfl, rfl, rfl⟩)).bind fun _ => trivial
  · exact hφ.failIntent _ _
  · exact hφ.failIntent _ _

theorem Applying.applyFound (hφ : Applying φ row) (lookup : TxLookup) (raw : Record) :
    (Orchestrator.applyFound P row lookup raw).Performs φ := by
  unfold Orchestrator.applyFound
  split_ifs
  · trivial
  refine (performs_required _ _).bind fun hash => ?_
  refine (performs_required _ _).bind fun prepared => ?_
  refine (performs_required _ _).bind fun last => ?_
  split
  · exact hφ.failIntent _ _
  split_ifs
  · exact hφ.failIntent _ _
  split
  · exact hφ.failIntent _ _
  split_ifs
  · exact hφ.failIntent _ _
  · refine (Prog.performs_perform hφ.now).bind fun t => ?_
    exact (performs_transition _ _ (hφ.transition _ ⟨rfl, rfl, rfl, rfl⟩)).bind fun _ => trivial

theorem Applying.applySearch (hφ : Applying φ row) (search : TxSearch) (n : ℕ) :
    (Orchestrator.applySearch P row search n).Performs φ := by
  cases search with
  | found lookup raw => exact hφ.applyFound lookup raw
  | absent searchedAll =>
    refine (performs_required _ _).bind fun last => ?_
    split_ifs
    · trivial
    · trivial
    · exact hφ.applyProvenAbsent last

theorem Resolving.resolveSigned (hφ : Resolving φ row) (n switchBudget : ℕ) :
    (Orchestrator.resolveSigned P row n switchBudget).Performs φ := by
  refine (performs_required _ _).bind fun hash => ?_
  refine (performs_required _ _).bind fun prepared => ?_
  refine (performs_required _ _).bind fun last => ?_
  refine (hφ.ask _ _ (by simp)).bind fun search => ?_
  split_ifs
  · refine Prog.Performs.bind ⟨hφ.switchEndpoint _, fun _ => performs_orThrow _ _⟩ fun _ => ?_
    refine (hφ.ask _ _ (by simp)).bind fun search' => ?_
    exact (hφ.applySearch _ _).bind fun _ => trivial
  · exact (hφ.applySearch _ _).bind fun _ => trivial

end Orchestrator
