import Orchestrator.Interleave.Program
import Orchestrator.Database.Tables

/-!
# Operations and the ledger service

What a service call does between two `await`s is one operation: a statement of a repository, a
request to the connected endpoint, or a read of the clock or of the service's own memory. A
request is two operations, because other calls run while its answer is on the way.

* `Op`, `Op.Ret`, `Service`: operations, replies and service calls;
* `LedgerRequest`, `LedgerResponse`, `request`: what `ConnectionManagerService.request` carries;
* `ask`, `validatedAccountInfo` … `tx`: the commands of `ledger.service.ts`, each a request and a
  reading of its answer;
* `performs_ask` … `performs_load`: the operations that a command or a statement comes to.
-/

namespace Orchestrator

open Interleave

/-- The requests the service makes, with the fields that vary: `account_info` of the validated or
the current ledger, `tx` within a range of ledgers. -/
inductive LedgerRequest where
  | accountInfo (account : String) (current : Bool)
  | fee
  | ledger
  | simulate (txJson : Record)
  | submit (txBlob : String)
  | tx (transaction : String) (minLedger maxLedger : ℕ)
  deriving DecidableEq

def LedgerRequest.command : LedgerRequest → String
  | .accountInfo _ _ => "account_info"
  | .fee => "fee"
  | .ledger => "ledger"
  | .simulate _ => "simulate"
  | .submit _ => "submit"
  | .tx _ _ _ => "tx"

inductive LedgerResponse where
  | ok (result : Record)
  | error (error : String) (data : Record)
  deriving DecidableEq

/-- What a request ends with when no endpoint answered, or on any other error. -/
inductive RequestError where
  | unavailable
  | other (message : String)
  deriving DecidableEq

def RequestError.failure : RequestError → Failure
  | .unavailable => ApiError .xrplUnavailable "No usable XRPL endpoint is available."
  | .other message => .internal message

def DbError.failure : DbError → Failure
  | .accountBusy => .internal "another sequence-active intent exists for this source account"
  | .illegalTransition src dst =>
    .internal ("illegal transition " ++ src.name ++ " -> " ++ dst.name)
  | .failed => .internal "database error"

inductive Op where
  | now
  | randomUUID
  | networkId
  | recovered
  | completeCycle (degraded : Bool)
  | send (request : LedgerRequest)
  | receive (request : LedgerRequest)
  | switchEndpoint (reason : String)
  | findById (id : String)
  | findByStatuses (statuses : List Status)
  | transition (id : String) (request : TransitionRequest)
  | updateInStatus (id : String) (statuses : List Status) (patch : IntentPatch)
  | createIdempotent (row : NewIntentRow)
  deriving DecidableEq

abbrev Op.Ret : Op → Type
  | .now => ℕ
  | .randomUUID => String
  | .networkId => ℕ
  | .recovered => Bool
  | .completeCycle _ => Unit
  | .send _ => Unit
  | .receive _ => Except RequestError LedgerResponse
  | .switchEndpoint _ => Except RequestError Unit
  | .findById _ => Except DbError (Option IntentRow)
  | .findByStatuses _ => Except DbError (List IntentRow)
  | .transition _ _ => Except DbError (Option IntentRow)
  | .updateInStatus _ _ _ => Except DbError (Option IntentRow)
  | .createIdempotent _ => Except DbError (Bool × IntentRow)

/-- A service call, or a part of one. -/
abbrev Service (α : Type) : Type := Prog Op Op.Ret Failure α

/-- `throw`. -/
abbrev throwFailure {α : Type} (failure : Failure) : Service α := .fail failure

/-- The value of a reply, or its error thrown. -/
def orThrow {ε α : Type} (failure : ε → Failure) : Except ε α → Service α
  | .ok a => .ret a
  | .error e => .fail (failure e)

/-- A local check: its failure is thrown. -/
def ofExcept {α : Type} : Except Failure α → Service α := orThrow id

/-! ## Repositories and clock -/

def now : Service ℕ := Prog.perform Op.now

def findById (id : String) : Service (Option IntentRow) :=
  Prog.perform (Op.findById id) >>= orThrow DbError.failure

def findByStatuses (statuses : List Status) : Service (List IntentRow) :=
  Prog.perform (Op.findByStatuses statuses) >>= orThrow DbError.failure

def transition (id : String) (request : TransitionRequest) : Service (Option IntentRow) :=
  Prog.perform (Op.transition id request) >>= orThrow DbError.failure

def updateInStatus (id : String) (statuses : List Status) (patch : IntentPatch) :
    Service (Option IntentRow) :=
  Prog.perform (Op.updateInStatus id statuses patch) >>= orThrow DbError.failure

/-- `load` of the services. -/
def load (id : String) : Service IntentRow := do
  match ← findById id with
  | some row => pure row
  | none => throwFailure (ApiError .intentNotFound "Intent not found.")

/-- `required`: a nullable column that the code expects to be set. -/
def required {α : Type} (value : Option α) (column : String) : Service α :=
  match value with
  | some v => .ret v
  | none => .fail (.internal ("intent column " ++ column ++ " is unexpectedly null"))

/-! ## `LedgerService` -/

/-- `ConnectionManagerService.request`, as its callers see it. -/
def request (r : LedgerRequest) : Service LedgerResponse := do
  Prog.perform (Op.send r)
  Prog.perform (Op.receive r) >>= orThrow RequestError.failure

def switchEndpoint (reason : String) : Service Unit :=
  Prog.perform (Op.switchEndpoint reason) >>= orThrow RequestError.failure

def serverError (command error : String) : Failure :=
  ApiError .xrplUnavailable ("XRPL " ++ command ++ " request failed: " ++ error ++ ".")

def formatError (message : String) : Failure :=
  ApiError .xrplUnavailable ("Unexpected XRPL response: " ++ message ++ ".")

/-- `parse`: a format error becomes an `ApiError`. -/
def parse {α : Type} (result : Except String α) : Except Failure α := result.mapError formatError

/-- `call`: every server error is thrown. -/
def call (r : LedgerRequest) : LedgerResponse → Except Failure Record
  | .ok result => .ok result
  | .error error _ => .error (serverError r.command error)

/-- One command: a request, and the reading of its answer. -/
def ask {α : Type} (r : LedgerRequest) (read : LedgerResponse → Except Failure α) : Service α :=
  request r >>= fun response => ofExcept (read response)

/-- Validated account state, or none when the account does not exist. -/
def readAccountInfo (response : LedgerResponse) : Except Failure (Option AccountInfo) :=
  match response with
  | .error error _ =>
    if error = "actNotFound" then .ok none else .error (serverError "account_info" error)
  | .ok result => do
    let info ← parse (parseAccountInfo result)
    if !info.validated then .error (formatError "account_info did not return validated data")
    else return some info

def validatedAccountInfo (account : String) : Service (Option AccountInfo) :=
  ask (.accountInfo account false) readAccountInfo

def readCurrentAccount (account : String) (response : LedgerResponse) :
    Except Failure AccountInfo := do
  parse (parseAccountInfo (← call (.accountInfo account true) response))

/-- Current (open) account state including the transaction queue. -/
def currentAccountInfo (account : String) : Service AccountInfo :=
  ask (.accountInfo account true) (readCurrentAccount account)

def readOpenLedgerFee (response : LedgerResponse) : Except Failure String := do
  parse (parseOpenLedgerFee (← call .fee response))

def openLedgerFee : Service String := ask .fee readOpenLedgerFee

def readLedgerIndex (response : LedgerResponse) : Except Failure ℕ := do
  let ledger ← parse (parseLedger (← call .ledger response))
  if !ledger.validated then .error (formatError "ledger did not return a validated ledger")
  else return ledger.index

def validatedLedgerIndex : Service ℕ := ask .ledger readLedgerIndex

def readSimulation (txJson : Record) (response : LedgerResponse) :
    Except Failure (SimulationResult × Record) := do
  let raw ← call (.simulate txJson) response
  return (← parse (parseSimulation raw), raw)

def simulateRequest (txJson : Record) : Service (SimulationResult × Record) :=
  ask (.simulate txJson) (readSimulation txJson)

def readSubmit (txBlob : String) (response : LedgerResponse) :
    Except Failure (SubmitResult × Record) := do
  let raw ← call (.submit txBlob) response
  return (← parse (parseSubmit raw), raw)

def submitRequest (txBlob : String) : Service (SubmitResult × Record) :=
  ask (.submit txBlob) (readSubmit txBlob)

/-- `TxSearch`: a transaction with the raw answer, or its absence. -/
inductive TxSearch where
  | found (lookup : TxLookup) (raw : Record)
  | absent (searchedAll : Bool)
  deriving DecidableEq

def readTx (response : LedgerResponse) : Except Failure TxSearch :=
  match response with
  | .error error data =>
    if error = "txnNotFound" then
      .ok (.absent (data.get? "searched_all" == some (.bool true)))
    else .error (serverError "tx" error)
  | .ok result => do
    let lookup ← parse (parseTx result)
    return .found lookup result

def tx (hash : String) (minLedger maxLedger : ℕ) : Service TxSearch :=
  ask (.tx hash minLedger maxLedger) readTx

/-! ## What they come to -/

section Performs

variable {φ : Op → Prop} {α ε : Type}

theorem performs_orThrow (failure : ε → Failure) (x : Except ε α) :
    (orThrow failure x).Performs φ := by
  cases x <;> trivial

theorem performs_required (value : Option α) (column : String) :
    (required value column).Performs φ := by
  cases value <;> trivial

theorem performs_ask (q : LedgerRequest) (read : LedgerResponse → Except Failure α)
    (hs : φ (.send q)) (hr : φ (.receive q)) : (ask q read).Performs φ :=
  .bind ⟨hs, fun _ => ⟨hr, fun _ => performs_orThrow _ _⟩⟩ fun _ => performs_orThrow _ _

theorem performs_transition (id : String) (request : TransitionRequest)
    (h : φ (.transition id request)) : (transition id request).Performs φ :=
  ⟨h, fun _ => performs_orThrow _ _⟩

theorem performs_updateInStatus (id : String) (statuses : List Status) (patch : IntentPatch)
    (h : φ (.updateInStatus id statuses patch)) : (updateInStatus id statuses patch).Performs φ :=
  ⟨h, fun _ => performs_orThrow _ _⟩

theorem performs_load (id : String) (h : φ (.findById id)) : (load id).Performs φ := by
  refine Prog.Performs.bind ⟨h, fun _ => performs_orThrow _ _⟩ fun found => ?_
  cases found <;> trivial

end Performs

end Orchestrator
