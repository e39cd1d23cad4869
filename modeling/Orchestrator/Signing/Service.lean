import Orchestrator.Finality.Service
import Orchestrator.Signing.SignedBlob

/-!
# The signing service

`signing.service.ts`: accepts the externally signed blob of an intent that awaits its signature,
and stores it before anything can submit it.

* `settledAnswer`, `settledAnswer_none`, `attachSignature`.
-/

namespace Orchestrator

open Interleave

variable (P : Platform)

/-- The answer for any state other than `AWAITING_SIGNATURE`, or none when the signature still
has to be processed. -/
def settledAnswer (row : IntentRow) (txBlob : String) : Except Failure (Option IntentRow) :=
  match row.status with
  | .awaitingSignature => .ok none
  | .signed | .submitted | .validated =>
    if row.signedTxBlob = some (P.toUpperCase txBlob) then .ok (some row)
    else .error (ApiError .signatureAlreadyAttached
      "A different signed transaction is already attached to this intent.")
  | .expired => .error (ApiError .intentExpired "The intent expired.")
  | status => .error (ApiError .invalidIntentState ("The intent is " ++ status.name ++ "."))

/-- Only a row that awaits its signature has no settled answer. -/
theorem settledAnswer_none {P : Platform} {row : IntentRow} {txBlob : String}
    (h : settledAnswer P row txBlob = .ok none) : row.status = .awaitingSignature := by
  unfold settledAnswer at h
  split at h
  · assumption
  all_goals first | (split at h <;> cases h) | cases h

def signatureExpiredRequest (lastLedgerSequence validatedLedger : ℕ) : TransitionRequest where
  fromStatuses := [.awaitingSignature]
  toStatus := .expired
  reason := .signatureWindowExpired
  details := some (.obj [("lastLedgerSequence", .num lastLedgerSequence),
    ("validatedLedger", .num validatedLedger)])
  patch := {}

def sequenceChangedCode (accountSequence preparedSequence : ℕ) : FailureCode :=
  if accountSequence > preparedSequence then .sequenceConflict else .sequenceRegression

def sequenceChangedRequest (accountSequence preparedSequence : ℕ) : TransitionRequest where
  fromStatuses := [.awaitingSignature]
  toStatus := .failed
  reason := (sequenceChangedCode accountSequence preparedSequence).reason
  details := some (.obj [("preparedSequence", .num preparedSequence),
    ("accountSequence", .num accountSequence)])
  patch := { failureCode := some (sequenceChangedCode accountSequence preparedSequence) }

def signedRequest (verified : VerifiedSignedBlob) (signedAt : ℕ) : TransitionRequest where
  fromStatuses := [.awaitingSignature]
  toStatus := .signed
  reason := .signatureAccepted
  details := some (.obj [("transactionHash", .str verified.transactionHash)])
  patch := {
    signedTxBlob := some verified.txBlob
    transactionHash := some verified.transactionHash
    signingPubKey := some verified.signingPubKey
    signedAt := some signedAt }

/-- `account.ledgerIndex ?? (await this.ledger.validatedLedgerIndex())`. -/
def ledgerIndexOf (account : AccountInfo) : Service ℕ :=
  match account.ledgerIndex with
  | some index => pure index
  | none => validatedLedgerIndex

/-- The checks against the validated account, and the transition they end in. -/
def settleSignature (id : String) (row : IntentRow) (verified : VerifiedSignedBlob)
    (account : AccountInfo) (preparedSequence lastLedgerSequence : ℕ) :
    Service (Option IntentRow) := do
  let validatedLedger ← ledgerIndexOf account
  if validatedLedger > lastLedgerSequence then
    let _ ← transition id (signatureExpiredRequest lastLedgerSequence validatedLedger)
    throwFailure (ApiError .intentExpired "The signature arrived after LastLedgerSequence.")
  else
    ofExcept (assertAuthorized P verified.signingPubKey row.sourceAccount account)
    if account.sequence ≠ preparedSequence then
      let _ ← transition id (sequenceChangedRequest account.sequence preparedSequence)
      throwFailure (ApiError .invalidIntentState
        ("The source account Sequence changed; the intent failed with " ++
          (sequenceChangedCode account.sequence preparedSequence).name ++ "."))
    else
      let signedAt ← now
      transition id (signedRequest verified signedAt)

def attachSignature (id txBlob : String) : Service IntentRow := do
  let row ← load id
  match ← ofExcept (settledAnswer P row txBlob) with
  | some answer => return answer
  | none =>
    assertRecovered
    let preparedTxBlob ← required row.preparedTxBlob "prepared_tx_blob"
    let preparedSequence ← required row.sequence "sequence"
    let lastLedgerSequence ← required row.lastLedgerSequence "last_ledger_sequence"
    -- local checks first: nothing about an invalid blob reaches the network
    let verified ← ofExcept (verify P txBlob preparedTxBlob)
    match ← validatedAccountInfo row.sourceAccount with
    | none => throwFailure (ApiError .accountNotFound
        "The source account does not exist in a validated ledger.")
    | some account =>
      match ← settleSignature P id row verified account preparedSequence lastLedgerSequence with
      | some signed => return signed
      | none =>
        -- the intent changed concurrently, for example another signature won
        let current ← load id
        match ← ofExcept (settledAnswer P current txBlob) with
        | some answer => return answer
        | none => throwFailure (ApiError .invalidIntentState
            ("The intent is " ++ current.status.name ++ "."))

end Orchestrator
