import Orchestrator.Finality.Service

/-!
# The submission service

`submission.service.ts`: sends the stored signed blob, byte for byte, and records the provisional
result.

* `recordBaseline`, `recordSubmit`, `submitSigned`, `submitLoop`, `submit`.
-/

namespace Orchestrator

open Interleave

variable (P : Platform)

/-- What every answered submission records; the counter is incremented in SQL. -/
def recorded (result : SubmitResult) (raw : Record) (attemptedAt : ℕ) : IntentPatch where
  submitEngineResult := some result.engineResult
  submitResponse := some (.obj raw)
  submissionAttemptCount := true
  lastSubmitAttemptAt := some attemptedAt

def engineResultDetails (engineResult : String) : Option Json :=
  some (.obj [("engineResult", .str engineResult)])

def malformedRequest (result : SubmitResult) (raw : Record) (attemptedAt : ℕ) :
    TransitionRequest where
  fromStatuses := [.signed]
  toStatus := .rejected
  reason := .malformedTransaction
  details := engineResultDetails result.engineResult
  patch := recorded result raw attemptedAt

def submittedRequest (result : SubmitResult) (raw : Record) (attemptedAt : ℕ) :
    TransitionRequest where
  fromStatuses := [.signed]
  toStatus := .submitted
  reason := .transactionSubmitted
  details := engineResultDetails result.engineResult
  patch := { recorded result raw attemptedAt with submittedAt := some attemptedAt }

def isMalformed (result : SubmitResult) : Bool := startsWith result.engineResult "tem"

/-- Records the answer of a submission, by the status the caller saw before it. -/
def recordSubmit (row : IntentRow) (result : SubmitResult) (raw : Record) (attemptedAt : ℕ) :
    Service (Option IntentRow) :=
  if row.status = .signed then
    if isMalformed result then transition row.id (malformedRequest result raw attemptedAt)
    else transition row.id (submittedRequest result raw attemptedAt)
  else
    -- a resubmission of the same blob; its result remains provisional
    updateInStatus row.id [.submitted] (recorded result raw attemptedAt)

def baseline (validatedLedger : ℕ) : IntentPatch :=
  { submissionValidatedLedger := some validatedLedger }

/-- Stores the validated ledger before the first request, so that a crash right after it still
leaves a recoverable baseline. -/
def recordBaseline (row : IntentRow) (validatedLedger : ℕ) : Service Unit :=
  if row.submissionValidatedLedger = none then do
    let _ ← updateInStatus row.id [.signed] (baseline validatedLedger)
    pure ()
  else pure ()

def attempted (attemptedAt : ℕ) : IntentPatch := { lastSubmitAttemptAt := some attemptedAt }

def submitSigned (row : IntentRow) : Service (Option IntentRow) := do
  assertRecovered
  let signedTxBlob ← required row.signedTxBlob "signed_tx_blob"
  let lastLedgerSequence ← required row.lastLedgerSequence "last_ledger_sequence"
  let validatedLedger ← validatedLedgerIndex
  if validatedLedger > lastLedgerSequence then
    -- submitting now cannot succeed: settle the outcome instead
    let (outcome, _) ← resolveSigned P row validatedLedger 1
    if outcome = .pending ∨ outcome = .unprovable then
      throwFailure (ApiError .xrplUnavailable
        "LastLedgerSequence has passed and the outcome cannot be proven yet; retry later.")
    else return none
  else
    recordBaseline row validatedLedger
    let attemptedAt ← now
    match ← (submitRequest signedTxBlob).toExcept with
    | .error failure =>
      let _ ← updateInStatus row.id signedActiveStatuses (attempted attemptedAt)
      throwFailure failure
    | .ok (result, raw) => recordSubmit row result raw attemptedAt

/-- The loop of `submit`. -/
def submitLoop (id : String) : ℕ → IntentRow → Service IntentRow
  | 0, row => pure row
  | steps + 1, row =>
    match row.status with
    | .validated => pure row
    | .signed | .submitted => do
      match ← submitSigned P row with
      | some next => pure next
      | none => submitLoop id steps (← load id)
    | status => throwFailure (ApiError .invalidIntentState ("The intent is " ++ status.name ++ "."))

/-- After a round of `submit`: the row it returns, or the next round. -/
def submitNext (id : String) (steps : ℕ) : Option IntentRow → Service IntentRow
  | some next => pure next
  | none => load id >>= submitLoop P id steps

theorem submitLoop_succ (id : String) (steps : ℕ) (row : IntentRow) :
    submitLoop P id (steps + 1) row =
      if row.status = .validated then pure row
      else if row.status ∈ signedActiveStatuses then
        submitSigned P row >>= submitNext P id steps
      else throwFailure
        (ApiError .invalidIntentState ("The intent is " ++ row.status.name ++ ".")) := by
  have round : submitLoop P id steps = fun r => submitLoop P id steps r := rfl
  have next : (fun x => match x with
      | some next => pure next
      | none => load id >>= submitLoop P id steps) = submitNext P id steps :=
    funext fun x => by cases x <;> rfl
  rw [submitLoop, ← next]
  cases row.status <;> rfl

def submitMaxSteps : ℕ := 3

def submit (id : String) : Service IntentRow := do
  submitLoop P id submitMaxSteps (← load id)

end Orchestrator
