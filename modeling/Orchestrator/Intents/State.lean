import Mathlib.Logic.Relation
import Mathlib.Data.Fintype.Defs
import Mathlib.Tactic.Common

/-!
# The intent state machine

The statuses of an intent and the transition table of `intent-state.ts`.

* `Status`, `canTransition`, `isTerminal` and the status sets the services ask for;
* `Leads`: one status is reached from another by moves of the table, with the facts the services
  rest on: no status before `SIGNED` is reached from `SIGNED`, nothing leads out of a terminal
  status.
-/

namespace Orchestrator

inductive IntentType where
  | payment
  | trustSet
  deriving DecidableEq

inductive Status where
  | created
  | prepared
  | simulated
  | awaitingSignature
  | signed
  | submitted
  | validated
  | rejected
  | expired
  | failed
  deriving DecidableEq

/-- All statuses, in the order of the source. -/
def intentStatuses : List Status :=
  [.created, .prepared, .simulated, .awaitingSignature, .signed, .submitted, .validated,
    .rejected, .expired, .failed]

instance : Fintype Status where
  elems := ⟨intentStatuses, by decide⟩
  complete := by intro s; cases s <;> decide

/-- The status as it is written in messages. -/
def Status.name : Status → String
  | .created => "CREATED"
  | .prepared => "PREPARED"
  | .simulated => "SIMULATED"
  | .awaitingSignature => "AWAITING_SIGNATURE"
  | .signed => "SIGNED"
  | .submitted => "SUBMITTED"
  | .validated => "VALIDATED"
  | .rejected => "REJECTED"
  | .expired => "EXPIRED"
  | .failed => "FAILED"

def terminalStatuses : List Status := [.validated, .rejected, .expired, .failed]

/-- States that own the source account's Sequence. -/
def sequenceActiveStatuses : List Status :=
  [.prepared, .simulated, .awaitingSignature, .signed, .submitted]

/-- Prepared but not signed. -/
def unsignedActiveStatuses : List Status := [.prepared, .simulated, .awaitingSignature]

/-- A signed artifact exists and may be on the network. -/
def signedActiveStatuses : List Status := [.signed, .submitted]

def transitions : Status → List Status
  | .created => [.prepared]
  | .prepared => [.simulated, .expired, .failed]
  | .simulated => [.awaitingSignature, .rejected, .expired, .failed]
  | .awaitingSignature => [.signed, .expired, .failed]
  | .signed => [.submitted, .validated, .rejected, .expired, .failed]
  | .submitted => [.validated, .expired, .failed]
  | .validated => []
  | .rejected => []
  | .expired => []
  | .failed => []

def canTransition (src dst : Status) : Bool := (transitions src).contains dst

def isTerminal (status : Status) : Bool := terminalStatuses.contains status

/-- Reason codes recorded on `intent_transitions` rows. -/
inductive TransitionReason where
  | intentCreated
  | transactionPrepared
  | simulationCompleted
  | simulationPassed
  | simulationRejected
  | simulationArtifactMismatch
  | signatureAccepted
  | signatureWindowExpired
  | transactionSubmitted
  | malformedTransaction
  | transactionValidated
  | lastLedgerSequenceExpired
  | sequenceConflict
  | sequenceRegression
  | finalityIntegrityError
  | unexpectedValidatedResult
  deriving DecidableEq

/-- `failure_code` values stored on `FAILED` intents. -/
inductive FailureCode where
  | simulationArtifactMismatch
  | sequenceConflict
  | sequenceRegression
  | finalityIntegrityError
  | unexpectedValidatedResult
  deriving DecidableEq

/-- `FailureCode & TransitionReason`: every failure code is also a reason. -/
def FailureCode.reason : FailureCode → TransitionReason
  | .simulationArtifactMismatch => .simulationArtifactMismatch
  | .sequenceConflict => .sequenceConflict
  | .sequenceRegression => .sequenceRegression
  | .finalityIntegrityError => .finalityIntegrityError
  | .unexpectedValidatedResult => .unexpectedValidatedResult

def FailureCode.name : FailureCode → String
  | .simulationArtifactMismatch => "SIMULATION_ARTIFACT_MISMATCH"
  | .sequenceConflict => "SEQUENCE_CONFLICT"
  | .sequenceRegression => "SEQUENCE_REGRESSION"
  | .finalityIntegrityError => "FINALITY_INTEGRITY_ERROR"
  | .unexpectedValidatedResult => "UNEXPECTED_VALIDATED_RESULT"

/-! ## Reachability in the table -/

/-- The statuses reached from a status by moves of the table, itself included. -/
def Status.later : Status → List Status
  | .created => [.created, .prepared, .simulated, .awaitingSignature, .signed, .submitted,
      .validated, .rejected, .expired, .failed]
  | .prepared => [.prepared, .simulated, .awaitingSignature, .signed, .submitted, .validated,
      .rejected, .expired, .failed]
  | .simulated => [.simulated, .awaitingSignature, .signed, .submitted, .validated, .rejected,
      .expired, .failed]
  | .awaitingSignature => [.awaitingSignature, .signed, .submitted, .validated, .rejected,
      .expired, .failed]
  | .signed => [.signed, .submitted, .validated, .rejected, .expired, .failed]
  | .submitted => [.submitted, .validated, .expired, .failed]
  | .validated => [.validated]
  | .rejected => [.rejected]
  | .expired => [.expired]
  | .failed => [.failed]

/-- `s.Leads t`: the table leads from `s` to `t`. -/
def Status.Leads (s t : Status) : Prop := t ∈ s.later

instance (s t : Status) : Decidable (s.Leads t) := inferInstanceAs (Decidable (t ∈ s.later))

theorem Status.Leads.refl : ∀ s : Status, s.Leads s := by decide

theorem Status.Leads.trans : ∀ {s t u : Status}, s.Leads t → t.Leads u → s.Leads u := by decide

theorem Status.Leads.of_canTransition : ∀ {s t : Status}, canTransition s t = true → s.Leads t := by
  decide

/-- `Leads` is exactly reachability in the transition table. -/
theorem Status.leads_iff (s t : Status) :
    s.Leads t ↔ Relation.ReflTransGen (fun s t => canTransition s t = true) s t := by
  constructor
  · intro h
    have step : ∀ s t : Status, s.Leads t → s ≠ t → ∃ u, canTransition s u = true ∧ u.Leads t ∧
        u.later.length < s.later.length := by decide
    induction hn : s.later.length using Nat.strong_induction_on generalizing s with
    | _ n ih =>
      by_cases hst : s = t
      · exact hst ▸ .refl
      · obtain ⟨u, hsu, hut, hlt⟩ := step s t h hst
        exact .head hsu (ih _ (hn ▸ hlt) u hut rfl)
  · intro h
    induction h with
    | refl => exact .refl s
    | tail _ h ih => exact ih.trans (.of_canTransition h)

/-- The table has no cycles. -/
theorem Status.Leads.antisymm : ∀ {s t : Status}, s.Leads t → t.Leads s → s = t := by decide

/-- Nothing leads out of a terminal status. -/
theorem Status.Leads.eq_of_isTerminal :
    ∀ {s t : Status}, s.Leads t → isTerminal s = true → t = s := by decide

end Orchestrator
