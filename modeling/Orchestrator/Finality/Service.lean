import Orchestrator.Xrpl.Ledger

/-!
# The finality service

`finality.service.ts`: reconciles every sequence-active intent against validated ledgers. A signed
intent is final only when it is found in a validated ledger or proven absent.

* `resolveSigned`, `applySearch`, `applyFound`, `applyProvenAbsent`, `failIntent`;
* `expireUnsigned`, `walk`, `cycle`.
-/

namespace Orchestrator

open Interleave

/-- What one finality pass concluded for a signed intent. -/
inductive SignedOutcome where
  | validated
  | expired
  | failed
  | pending
  | unprovable
  deriving DecidableEq

def assertRecovered : Service Unit := do
  if ← Prog.perform Op.recovered then pure ()
  else
    throwFailure (ApiError .serviceNotReady "Startup recovery has not completed; retry shortly.")

theorem performs_assertRecovered {φ : Op → Prop} (h : φ .recovered) :
    assertRecovered.Performs φ := by
  refine ⟨h, fun recovered => ?_⟩
  cases recovered <;> trivial

/-- `value ?? null` of an optional string or number. -/
def strOrNull : Option String → Json
  | some s => .str s
  | none => .null

def natOrNull : Option ℕ → Json
  | some n => .num n
  | none => .null

/-- The transition of `FinalityService.fail`. -/
def failRequest (failureCode : FailureCode) (details : Record) : TransitionRequest where
  fromStatuses := signedActiveStatuses
  toStatus := .failed
  reason := failureCode.reason
  details := some (.obj details)
  patch := { failureCode := some failureCode }

/-- `FinalityService.fail`. -/
def failIntent (row : IntentRow) (failureCode : FailureCode) (details : Record) :
    Service SignedOutcome := do
  let _ ← transition row.id (failRequest failureCode details)
  pure .failed

/-- The transition to `EXPIRED` of a signed intent proven absent. -/
def absentRequest (lastLedgerSequence preparedSequence : ℕ) : TransitionRequest where
  fromStatuses := signedActiveStatuses
  toStatus := .expired
  reason := .lastLedgerSequenceExpired
  details := some (.obj [("lastLedgerSequence", .num lastLedgerSequence),
    ("sequence", .num preparedSequence)])
  patch := {}

def sequenceDetails (preparedSequence : ℕ) (currentSequence : Option ℕ) : Record :=
  [("preparedSequence", .num preparedSequence), ("accountSequence", natOrNull currentSequence)]

/-- The account was read from a ledger in which the transaction could still have appeared. The answer
that there is no such account is not tested. -/
def isStale (account : Option AccountInfo) (lastLedgerSequence : ℕ) : Bool :=
  account.any fun a => decide (a.ledgerIndex.getD 0 ≤ lastLedgerSequence)

theorem isStale_eq_false {account : Option AccountInfo} {lastLedgerSequence : ℕ} :
    isStale account lastLedgerSequence = false ↔
      ∀ a, account = some a → lastLedgerSequence < a.ledgerIndex.getD 0 := by
  cases account <;> simp [isStale]

/-- The transaction is proven absent from every ledger it could appear in; the Sequence of the
source account tells whether the slot is still free. -/
def applyProvenAbsent (row : IntentRow) (lastLedgerSequence : ℕ) : Service SignedOutcome := do
  let preparedSequence ← required row.sequence "sequence"
  let account ← validatedAccountInfo row.sourceAccount
  if isStale account lastLedgerSequence then pure .pending
  else
    let currentSequence := account.map (·.sequence)
    if currentSequence = some preparedSequence then
      let _ ← transition row.id (absentRequest lastLedgerSequence preparedSequence)
      pure .expired
    else if currentSequence.all fun s => decide (s > preparedSequence) then
      failIntent row .sequenceConflict (sequenceDetails preparedSequence currentSequence)
    else failIntent row .sequenceRegression (sequenceDetails preparedSequence currentSequence)

variable (P : Platform)

/-- The transition to `VALIDATED`, with the final columns of one `tx` answer. -/
def validatedRequest (lookup : TxLookup) (raw : Record) (result : String)
    (ledgerIndex finalizedAt : ℕ) : TransitionRequest where
  fromStatuses := signedActiveStatuses
  toStatus := .validated
  reason := .transactionValidated
  details := some (.obj [("finalResult", .str result), ("ledgerIndex", .num ledgerIndex)])
  patch := {
    finalResult := some result
    finalLedgerIndex := some ledgerIndex
    finalLedgerHash := some ((lookup.ledgerHash.map P.toUpperCase).filter isHash)
    finalTxJson := some (lookup.txJson.map Json.obj)
    finalMeta := some (orElse (lookup.meta?.map Json.obj) (orElse (raw.get? "meta") none))
    finalizedAt := some finalizedAt }

/-- The answer is about the stored hash, and the ledger is one the transaction can appear in. -/
def isConsistent (lookup : TxLookup) (hash : String) (preparedLedgerIndex ledgerIndex
    lastLedgerSequence : ℕ) : Bool :=
  decide (lookup.hash.map P.toUpperCase = some hash) && decide (preparedLedgerIndex < ledgerIndex) &&
    decide (ledgerIndex ≤ lastLedgerSequence)

def isFinalResult (result : String) : Bool := startsWith result "tes" || startsWith result "tec"

def integrityDetails (lookup : TxLookup) : Record :=
  [("reportedHash", strOrNull lookup.hash), ("reportedLedgerIndex", natOrNull lookup.ledgerIndex)]

/-- A found transaction decides the outcome only when it is validated and consistent. -/
def applyFound (row : IntentRow) (lookup : TxLookup) (raw : Record) : Service SignedOutcome := do
  if !lookup.validated then pure .pending
  else
    let hash ← required row.transactionHash "transaction_hash"
    let preparedLedgerIndex ← required row.preparedLedgerIndex "prepared_ledger_index"
    let lastLedgerSequence ← required row.lastLedgerSequence "last_ledger_sequence"
    match lookup.ledgerIndex with
    | none => failIntent row .finalityIntegrityError (integrityDetails lookup)
    | some ledgerIndex =>
      if !isConsistent P lookup hash preparedLedgerIndex ledgerIndex lastLedgerSequence then
        failIntent row .finalityIntegrityError (integrityDetails lookup)
      else match lookup.transactionResult with
        | none => failIntent row .unexpectedValidatedResult [("finalResult", .null)]
        | some result =>
          if !isFinalResult result then
            failIntent row .unexpectedValidatedResult [("finalResult", .str result)]
          else
            let finalizedAt ← now
            let _ ← transition row.id (validatedRequest P lookup raw result ledgerIndex finalizedAt)
            pure .validated

def applySearch (row : IntentRow) (search : TxSearch) (currentLedger : ℕ) :
    Service SignedOutcome :=
  match search with
  | .found lookup raw => applyFound P row lookup raw
  | .absent searchedAll => do
    let lastLedgerSequence ← required row.lastLedgerSequence "last_ledger_sequence"
    if currentLedger ≤ lastLedgerSequence then pure .pending
    else if !searchedAll then pure .unprovable
    else applyProvenAbsent row lastLedgerSequence

/-- Resolves one signed intent; returns the outcome with what is left of the switch budget. -/
def resolveSigned (row : IntentRow) (currentLedger switchBudget : ℕ) :
    Service (SignedOutcome × ℕ) := do
  let hash ← required row.transactionHash "transaction_hash"
  let preparedLedgerIndex ← required row.preparedLedgerIndex "prepared_ledger_index"
  let max ← required row.lastLedgerSequence "last_ledger_sequence"
  let min := preparedLedgerIndex + 1
  let search ← tx hash min max
  if search = .absent false ∧ currentLedger > max ∧ switchBudget > 0 then
    -- this endpoint lacks part of the range: ask the other one
    switchEndpoint "tx searched_all=false"
    let search ← tx hash min max
    let outcome ← applySearch P row search currentLedger
    return (outcome, switchBudget - 1)
  else
    let outcome ← applySearch P row search currentLedger
    return (outcome, switchBudget)

/-- The transition to `EXPIRED` of an intent without a signature. -/
def unsignedExpiredRequest (lastLedgerSequence validatedLedger : ℕ) : TransitionRequest where
  fromStatuses := unsignedActiveStatuses
  toStatus := .expired
  reason := .signatureWindowExpired
  details := some (.obj [("lastLedgerSequence", .num lastLedgerSequence),
    ("validatedLedger", .num validatedLedger)])
  patch := {}

def expireUnsigned (row : IntentRow) (currentLedger : ℕ) : Service Unit := do
  let lastLedgerSequence ← required row.lastLedgerSequence "last_ledger_sequence"
  if currentLedger ≤ lastLedgerSequence then pure ()
  else
    let _ ← transition row.id (unsignedExpiredRequest lastLedgerSequence currentLedger)
    pure ()

/-- The loop of `cycle` over the active intents; returns whether an outcome was unprovable. -/
def walk (currentLedger : ℕ) : List IntentRow → ℕ → Bool → Service Bool
  | [], _, degraded => pure degraded
  | row :: rows, switchBudget, degraded => do
    if unsignedActiveStatuses.contains row.status then
      expireUnsigned row currentLedger
      walk currentLedger rows switchBudget degraded
    else if signedActiveStatuses.contains row.status then
      let (outcome, switchBudget) ← resolveSigned P row currentLedger switchBudget
      walk currentLedger rows switchBudget (degraded || outcome == .unprovable)
    else walk currentLedger rows switchBudget degraded

/-- One finality cycle. An error ends it without completing it. -/
def cycle : Service Unit := do
  let _ ← Prog.toExcept do
    let currentLedger ← validatedLedgerIndex
    let rows ← findByStatuses sequenceActiveStatuses
    let degraded ← walk P currentLedger rows 1 false
    Prog.perform (Op.completeCycle degraded)
  return ()

/-- The `try` block of a cycle. -/
def cyclePass : Service Unit := do
  let currentLedger ← validatedLedgerIndex
  let rows ← findByStatuses sequenceActiveStatuses
  let degraded ← walk P currentLedger rows 1 false
  Prog.perform (Op.completeCycle degraded)

theorem cycle_eq : cycle P = (cyclePass P).toExcept >>= fun _ => pure () := rfl

end Orchestrator
