import Orchestrator.Xrpl.Ledger

/-!
# Creating intents

`IntentsService.create`: a `CREATED` intent, or the existing one of a repeated idempotency key
with the same canonical request.
-/

namespace Orchestrator

open Interleave

variable (P : Platform)

/-- The row that `create` asks to insert. -/
def newIntentRow (idempotencyKey : String) (payload : IntentPayload) (id : String)
    (networkId createdAt : ℕ) : NewIntentRow where
  id := id
  idempotencyKey := idempotencyKey
  requestHash := requestHash P payload
  networkId := networkId
  intentType := payload.type
  sourceAccount := payload.account
  intentPayload := payload.toJson
  createdAt := createdAt
  updatedAt := createdAt

def create (idempotencyKey : String) (dto : CreateIntentDto) : Service (Bool × IntentRow) := do
  let payload := toCanonicalIntent dto
  let createdAt ← now
  let id ← Prog.perform Op.randomUUID
  let networkId ← Prog.perform Op.networkId
  let result ← Prog.perform (Op.createIdempotent
    (newIntentRow P idempotencyKey payload id networkId createdAt)) >>= orThrow DbError.failure
  if result.1 = false ∧ result.2.requestHash ≠ requestHash P payload then
    throwFailure (ApiError .idempotencyKeyReused
      "This Idempotency-Key was already used for a different request.")
  else pure result

end Orchestrator
