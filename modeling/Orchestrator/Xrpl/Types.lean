import Orchestrator.Common.Platform
import Mathlib.Data.Nat.Bits

/-!
# Narrowing of XRPL responses

`types.ts`: every answer of an endpoint is an object whose fields are checked one by one. The
parsers fail with the message of a `LedgerResponseFormatError`.

* `uint`, `optionalUint`, `str`, `optionalStr`, `record`: the checks of single fields;
* `parseAccountInfo`, `parseOpenLedgerFee`, `parseLedger`, `parseSimulation`, `parseSubmit`,
  `parseTx`: one parser for each command.
-/

namespace Orchestrator

/-- `Number.MAX_SAFE_INTEGER`. -/
def maxSafeInteger : ℤ := 9007199254740991

/-- `/^[0-9]+$/`. -/
def isDigits (s : String) : Bool := !s.toList.isEmpty && s.toList.all fun c => '0' ≤ c && c ≤ '9'

/-- The number a string of decimal digits denotes. -/
def digitsValue (s : String) : ℕ :=
  s.toList.foldl (fun n c => 10 * n + (c.toNat - '0'.toNat)) 0

section Fields

def record (value : Option Json) (what : String) : Except String Record :=
  match value.bind asRecord with
  | some r => .ok r
  | none => .error (what ++ " is not an object")

def uint (value : Option Json) (what : String) : Except String ℕ :=
  match value with
  | some (.num n) =>
    if 0 ≤ n ∧ n ≤ maxSafeInteger then .ok n.toNat
    else .error (what ++ " is not a non-negative integer")
  | _ => .error (what ++ " is not a non-negative integer")

def optionalUint (value : Option Json) (what : String) : Except String (Option ℕ) :=
  match value with
  | none => .ok none
  | some v => (uint (some v) what).map some

def str (value : Option Json) (what : String) : Except String String :=
  match value with
  | some (.str s) => .ok s
  | _ => .error (what ++ " is not a string")

def optionalStr (value : Option Json) : Option String :=
  match value with
  | some (.str s) => some s
  | _ => none

/-- `value ?? fallback`: null and undefined give way. -/
def orElse (value fallback : Option Json) : Option Json :=
  match value with
  | none | some .null => fallback
  | some v => some v

/-- A flag that is present and a boolean. -/
def optionalBool (value : Option Json) : Option Bool :=
  match value with
  | some (.bool b) => some b
  | _ => none

end Fields

/-! ## account_info -/

/-- The bit of `lsfDisableMaster`, used only when `account_flags` is absent. -/
def lsfDisableMasterBit : ℕ := 20

structure AccountInfo where
  validated : Bool
  ledgerIndex : Option ℕ
  sequence : ℕ
  regularKey : Option String
  disableMasterKey : Bool
  queuedTransactionCount : ℕ
  deriving DecidableEq

def parseAccountInfo (result : Record) : Except String AccountInfo := do
  let accountData ← record (result.get? "account_data") "account_info.account_data"
  let accountFlags := (result.get? "account_flags").bind asRecord
  let queueData := (result.get? "queue_data").bind asRecord
  let disableMasterKey ←
    match accountFlags.bind fun f => optionalBool (f.get? "disableMasterKey") with
    | some flag => pure flag
    | none =>
      let flags ← uint (orElse (accountData.get? "Flags") (some (.num 0))) "account_data.Flags"
      pure (flags.testBit lsfDisableMasterBit)
  let ledgerIndex ← optionalUint (result.get? "ledger_index") "account_info.ledger_index"
  let ledgerIndex ← match ledgerIndex with
    | some index => pure (some index)
    | none =>
      optionalUint (result.get? "ledger_current_index") "account_info.ledger_current_index"
  let sequence ← uint (accountData.get? "Sequence") "account_data.Sequence"
  let queuedTransactionCount ← match queueData with
    | none => pure 0
    | some q => uint (orElse (q.get? "txn_count") (some (.num 0))) "queue_data.txn_count"
  return {
    validated := result.get? "validated" == some (.bool true)
    ledgerIndex
    sequence
    regularKey := optionalStr (accountData.get? "RegularKey")
    disableMasterKey
    queuedTransactionCount }

/-! ## fee and ledger -/

def parseOpenLedgerFee (result : Record) : Except String String := do
  let drops ← record (result.get? "drops") "fee.drops"
  str (drops.get? "open_ledger_fee") "fee.drops.open_ledger_fee"

structure LedgerHeader where
  index : ℕ
  hash : Option String
  validated : Bool
  deriving DecidableEq

def parseLedger (result : Record) : Except String LedgerHeader := do
  let ledger := (result.get? "ledger").bind asRecord
  let index := orElse (result.get? "ledger_index") (ledger.bind fun l => l.get? "ledger_index")
  -- some servers render `ledger.ledger_index` as a string
  let numeric := match index with
    | some (.str s) => if isDigits s then some (.num (digitsValue s)) else index
    | _ => index
  let index ← uint numeric "ledger.ledger_index"
  return {
    index
    hash := (optionalStr (result.get? "ledger_hash")).or
      (ledger.bind fun l => optionalStr (l.get? "ledger_hash"))
    validated := result.get? "validated" == some (.bool true) }

/-! ## simulate, submit and tx -/

structure SimulationResult where
  engineResult : String
  engineResultMessage : Option String
  txJson : Option Record
  deriving DecidableEq

def parseSimulation (result : Record) : Except String SimulationResult := do
  let engineResult ← str (result.get? "engine_result") "simulate.engine_result"
  return {
    engineResult
    engineResultMessage := optionalStr (result.get? "engine_result_message")
    txJson := (result.get? "tx_json").bind asRecord }

structure SubmitResult where
  engineResult : String
  engineResultMessage : Option String
  accepted : Option Bool
  applied : Option Bool
  broadcast : Option Bool
  kept : Option Bool
  queued : Option Bool
  deriving DecidableEq

def parseSubmit (result : Record) : Except String SubmitResult := do
  let flag := fun name => optionalBool (result.get? name)
  let engineResult ← str (result.get? "engine_result") "submit.engine_result"
  return {
    engineResult
    engineResultMessage := optionalStr (result.get? "engine_result_message")
    accepted := flag "accepted"
    applied := flag "applied"
    broadcast := flag "broadcast"
    kept := flag "kept"
    queued := flag "queued" }

structure TxLookup where
  hash : Option String
  validated : Bool
  ledgerIndex : Option ℕ
  ledgerHash : Option String
  transactionResult : Option String
  txJson : Option Record
  meta? : Option Record
  deriving DecidableEq

def parseTx (result : Record) : Except String TxLookup := do
  let meta? := (result.get? "meta").bind asRecord
  let ledgerIndex ← optionalUint (result.get? "ledger_index") "tx.ledger_index"
  return {
    hash := optionalStr (result.get? "hash")
    validated := result.get? "validated" == some (.bool true)
    ledgerIndex
    ledgerHash := optionalStr (result.get? "ledger_hash")
    transactionResult := meta?.bind fun m => optionalStr (m.get? "TransactionResult")
    txJson := (result.get? "tx_json").bind asRecord
    meta? }

end Orchestrator
