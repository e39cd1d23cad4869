import Orchestrator.Preparation.Build
import Orchestrator.Finality.Service

/-!
# The preparation service

`preparation.service.ts` and `simulation.service.ts`: turns a `CREATED` intent into a simulated,
signable transaction. Every step is resumable from the persisted state.

* `simulationMatchesPrepared`: the echoed transaction, compared through the codec;
* `prepareCreated`, `simulatePrepared`, `completeSimulation`, `prepareStep`, `prepare`.
-/

namespace Orchestrator

open Interleave

variable (P : Platform)

/-! ## Comparing a simulation with what was prepared -/

def encodeComparableTransaction (transaction : Record) : Except String String :=
  P.encode (((transaction.remove "SigningPubKey").remove "TxnSignature").remove "hash")

/-- True when both transactions serialize alike; any exception counts as a difference. -/
def simulationMatchesPrepared (prepared : Record) (simulated : Option Record) : Bool :=
  match simulated with
  | none => false
  | some simulated =>
    match toCanonicalForm prepared >>= encodeComparableTransaction P,
        toCanonicalForm simulated >>= encodeComparableTransaction P with
    | .ok a, .ok b => a == b
    | _, _ => false

/-! ## The steps -/

/-- `validateTransaction`, `encodeTransaction`, and what a failure of either is answered. -/
def buildBlob (transaction : Record) : Except Failure String :=
  ((validateTransaction P transaction).bind fun _ => encodeTransaction P transaction).mapError
    fun reason => ApiError .transactionBuildInvalid
      ("The transaction could not be built: " ++ reason)

/-- The transition to `PREPARED`, with every prepared column. -/
def preparedRequest (transaction : Record) (preparedTxBlob : String)
    (preparedLedgerIndex sequence : ℕ) (fee : String) (lastLedgerSequence preparedAt : ℕ) :
    TransitionRequest where
  fromStatuses := [.created]
  toStatus := .prepared
  reason := .transactionPrepared
  details := some (.obj [("sequence", .num sequence), ("fee", .str fee),
    ("lastLedgerSequence", .num lastLedgerSequence)])
  patch := {
    preparedTxJson := some (.obj transaction)
    preparedTxBlob := some preparedTxBlob
    preparedLedgerIndex := some preparedLedgerIndex
    sequence := some sequence
    feeDrops := some fee
    lastLedgerSequence := some lastLedgerSequence
    preparedAt := some preparedAt }

/-- Refuses an account with pending activity. -/
def assertQuiescent (validated current : AccountInfo) : Except Failure Unit :=
  if current.sequence ≠ validated.sequence ∨ current.queuedTransactionCount ≠ 0 then
    .error (.api .accountNotQuiescent
      "The source account has pending activity; try again after it settles."
      (some [("validatedSequence", .num validated.sequence),
        ("currentSequence", .num current.sequence),
        ("queuedTransactions", .num current.queuedTransactionCount)]))
  else .ok ()

def prepareCreated (row : IntentRow) : Service (Option IntentRow) := do
  assertRecovered
  let intent ← ofExcept (asIntentPayload row.intentPayload)
  match ← validatedAccountInfo intent.account with
  | none => throwFailure (ApiError .accountNotFound
      "The source account does not exist in a validated ledger.")
  | some validated =>
    let current ← currentAccountInfo intent.account
    ofExcept (assertQuiescent validated current)
    let preparedLedgerIndex ← validatedLedgerIndex
    let fee ← cappedOpenLedgerFee
    let lastLedgerSequence := lastLedgerSequenceFor preparedLedgerIndex
    let networkId ← Prog.perform Op.networkId
    let transaction := buildTransaction intent
      { fee, sequence := validated.sequence, lastLedgerSequence, networkId }
    let preparedTxBlob ← ofExcept (buildBlob P transaction)
    let preparedAt ← now
    match ← Prog.perform (Op.transition row.id (preparedRequest transaction preparedTxBlob
        preparedLedgerIndex validated.sequence fee lastLedgerSequence preparedAt)) with
    | .ok prepared => pure prepared
    | .error .accountBusy => throwFailure (ApiError .accountBusy
        "Another prepared transaction is active for this source account.")
    | .error error => throwFailure error.failure

/-- `storedTransaction`. -/
def storedTransaction (row : IntentRow) : Except Failure Record :=
  match row.preparedTxJson.bind asRecord with
  | some transaction => .ok transaction
  | none => .error (.internal ("intent " ++ row.id ++ " has no prepared transaction"))

/-- `SimulationService.simulate`: exactly the prepared transaction, in canonical form. -/
def simulate (prepared : Record) : Service (SimulationResult × Record) := do
  let canonical ← orThrow Failure.internal (toCanonicalForm prepared)
  simulateRequest canonical

def windowExpiredRequest (lastLedgerSequence : ℕ) : TransitionRequest where
  fromStatuses := [.prepared]
  toStatus := .expired
  reason := .signatureWindowExpired
  details := some (.obj [("lastLedgerSequence", .num lastLedgerSequence)])
  patch := {}

def mismatchRequest (raw : Record) : TransitionRequest where
  fromStatuses := [.prepared]
  toStatus := .failed
  reason := .simulationArtifactMismatch
  details := none
  patch := {
    failureCode := some .simulationArtifactMismatch
    simulationResult := some (.obj raw) }

def simulatedRequest (result : SimulationResult) (raw : Record) (simulatedAt : ℕ) :
    TransitionRequest where
  fromStatuses := [.prepared]
  toStatus := .simulated
  reason := .simulationCompleted
  details := some (.obj [("engineResult", .str result.engineResult)])
  patch := {
    simulationEngineResult := some result.engineResult
    simulationResult := some (.obj raw)
    simulatedAt := some simulatedAt }

def simulatePrepared (row : IntentRow) : Service (Option IntentRow) := do
  assertRecovered
  let prepared ← ofExcept (storedTransaction row)
  let lastLedgerSequence ← required row.lastLedgerSequence "last_ledger_sequence"
  let validatedLedger ← validatedLedgerIndex
  if validatedLedger > lastLedgerSequence then
    let _ ← transition row.id (windowExpiredRequest lastLedgerSequence)
    throwFailure (ApiError .intentExpired "The intent expired before simulation.")
  else
    let (result, raw) ← simulate prepared
    if !simulationMatchesPrepared P prepared result.txJson then
      let _ ← transition row.id (mismatchRequest raw)
      throwFailure (ApiError .invalidIntentState
        "Simulation returned a different transaction; the intent failed with SIMULATION_ARTIFACT_MISMATCH.")
    else
      let simulatedAt ← now
      transition row.id (simulatedRequest result raw simulatedAt)

/-- The message of the stored simulation result, if it is a string. -/
def engineResultMessage (row : IntentRow) : Json :=
  strOrNull (optionalStr ((row.simulationResult.bind asRecord).bind
    fun r => r.get? "engine_result_message"))

def simulationPassedRequest : TransitionRequest where
  fromStatuses := [.simulated]
  toStatus := .awaitingSignature
  reason := .simulationPassed
  details := none
  patch := {}

def simulationRejectedRequest (details : Record) : TransitionRequest where
  fromStatuses := [.simulated]
  toStatus := .rejected
  reason := .simulationRejected
  details := some (.obj details)
  patch := {}

def completeSimulation (row : IntentRow) : Service (Option IntentRow) := do
  let engineResult ← required row.simulationEngineResult "simulation_engine_result"
  if engineResult = "tesSUCCESS" then transition row.id simulationPassedRequest
  else
    let details : Record :=
      [("engineResult", .str engineResult), ("engineResultMessage", engineResultMessage row)]
    match ← transition row.id (simulationRejectedRequest details) with
    | none => pure none
    | some _ => throwFailure (.api .simulationRejected "Simulation did not return tesSUCCESS."
        (some details))

/-- What one step of `prepare` says: the updated row, re-read a concurrent change, or done. -/
inductive StepResult where
  | row (row : IntentRow)
  | reread
  | done

def StepResult.ofRow? : Option IntentRow → StepResult
  | some next => .row next
  | none => .reread

/-- `PreparationService.step`: advances the intent by one state. -/
def prepareStep (row : IntentRow) : Service StepResult :=
  match row.status with
  | .created => StepResult.ofRow? <$> prepareCreated P row
  | .prepared => StepResult.ofRow? <$> simulatePrepared P row
  | .simulated => StepResult.ofRow? <$> completeSimulation row
  | .awaitingSignature | .signed | .submitted | .validated => pure .done
  | .expired => throwFailure (ApiError .intentExpired "The intent expired.")
  | .rejected | .failed =>
    throwFailure (ApiError .invalidIntentState ("The intent is " ++ row.status.name ++ "."))

/-- The loop of `prepare`. -/
def prepareLoop (id : String) : ℕ → IntentRow → Service IntentRow
  | 0, _ => throwFailure (.internal ("intent " ++ id ++ " did not settle within 8 preparation steps"))
  | steps + 1, row => do
    match ← prepareStep P row with
    | .done => return row
    | .row next => prepareLoop id steps next
    | .reread => prepareLoop id steps (← load id)

def prepareMaxSteps : ℕ := 8

def prepare (id : String) : Service IntentRow := do
  prepareLoop P id prepareMaxSteps (← load id)

end Orchestrator
