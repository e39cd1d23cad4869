import Orchestrator.Common.Json

/-!
# Failures

`Failure` is what a service call ends with when it does not return: an `ApiError` of the public
contract, or any other error, which the exception filter answers as `INTERNAL_ERROR`.
-/

namespace Orchestrator

/-- The codes of `error-codes.ts`. -/
inductive ErrorCode where
  | validationError
  | invalidIdempotencyKey
  | intentNotFound
  | idempotencyKeyReused
  | invalidIntentState
  | intentExpired
  | accountNotQuiescent
  | accountBusy
  | signatureAlreadyAttached
  | accountNotFound
  | transactionBuildInvalid
  | simulationRejected
  | invalidSignedTransaction
  | signedTransactionMismatch
  | invalidSignature
  | signerNotAuthorized
  | feeTooHigh
  | xrplUnavailable
  | serviceNotReady
  | internalError
  deriving DecidableEq

inductive Failure where
  | api (code : ErrorCode) (message : String) (details : Option Record)
  | internal (message : String)
  deriving DecidableEq

/-- `new ApiError(code, message)`. -/
abbrev ApiError (code : ErrorCode) (message : String) : Failure := .api code message none

end Orchestrator
