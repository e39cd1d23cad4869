import Orchestrator.Xrpl.Ledger

/-!
# Whether an endpoint may be used

`capability.service.ts` with the two parsers it reads through: the fixed checks on the answers to
`server_info` and `server_definitions`.

* `ServerInfo`, `parseServerInfo`, `parseServerDefinitions`;
* `checkServerInfo`, `checkDefinitions`;
* `accepts`: the answers that take the bootstrap of an endpoint further.
-/

namespace Orchestrator

structure ValidatedLedger where
  index : ℕ
  ageSeconds : ℕ
  deriving DecidableEq

structure ServerInfo where
  networkId : Option ℕ
  serverState : String
  buildVersion : String
  validatedLedger : Option ValidatedLedger
  deriving DecidableEq

def parseServerInfo (result : Record) : Except String ServerInfo := do
  let info ← record (result.get? "info") "server_info.info"
  return {
    networkId := ← optionalUint (info.get? "network_id") "server_info.info.network_id"
    serverState := ← str (info.get? "server_state") "server_info.info.server_state"
    buildVersion := (optionalStr (info.get? "build_version")).getD "unknown"
    validatedLedger := ← match (info.get? "validated_ledger").bind asRecord with
      | none => pure none
      | some validated => do
        let index ← uint (validated.get? "seq") "validated_ledger.seq"
        let ageSeconds ← uint (validated.get? "age") "validated_ledger.age"
        pure (some ⟨index, ageSeconds⟩) }

structure ServerDefinitions where
  transactionFormats : List String
  hash : Option String
  deriving DecidableEq

def parseServerDefinitions (result : Record) : ServerDefinitions where
  transactionFormats := (((result.get? "TRANSACTION_FORMATS").bind asRecord).getD []).map (·.1)
  hash := optionalStr (result.get? "hash")

/-- `VALIDATED_LEDGER_MAX_AGE_SECONDS`. -/
def validatedLedgerMaxAgeSeconds : ℕ := 20

def usableServerStates : List String := ["tracking", "full", "validating", "proposing"]

def requiredTransactionFormats : List String := ["Payment", "TrustSet"]

/-- The reason why the endpoint may not be used, if there is one. -/
def checkServerInfo (networkId : ℕ) (info : ServerInfo) : Option String :=
  if info.networkId ≠ some networkId then
    some ("network_id " ++ (info.networkId.elim "undefined" toString) ++
      " does not match configured " ++ toString networkId)
  else if !usableServerStates.contains info.serverState then
    some ("server_state " ++ info.serverState ++ " is not usable")
  else match info.validatedLedger with
    | none => some "server has no validated ledger"
    | some ledger =>
      if validatedLedgerMaxAgeSeconds ≤ ledger.ageSeconds then
        some ("validated ledger is " ++ toString ledger.ageSeconds ++ "s old")
      else none

def checkDefinitions (definitions : ServerDefinitions) : Option String :=
  match requiredTransactionFormats.filter fun name =>
    !definitions.transactionFormats.contains name with
  | [] => none
  | missing => some ("server_definitions lacks " ++ ", ".intercalate missing)

/-- The requests of `bootstrap`, in their order. -/
inductive BootstrapCommand where
  | serverInfo
  | serverDefinitions
  | subscribe
  deriving DecidableEq

/-- The answer takes the bootstrap further: it is no error, is well formed and passes the check. -/
def accepts (networkId : ℕ) : BootstrapCommand → LedgerResponse → Bool
  | .serverInfo, .ok result => match parseServerInfo result with
    | .ok info => (checkServerInfo networkId info).isNone
    | .error _ => false
  | .serverDefinitions, .ok result => (checkDefinitions (parseServerDefinitions result)).isNone
  | .subscribe, .ok _ => true
  | _, .error _ _ => false

end Orchestrator
