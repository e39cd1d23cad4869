import Orchestrator.Xrpl.Codec
import Orchestrator.Xrpl.Ledger

/-!
# Builders and fee policy

`payment.builder.ts`, `trust-set.builder.ts`, `preparation-params.ts` and `fee.service.ts`: the
only two transaction shapes the service creates, every field written explicitly.

* `PreparationParams`, `buildPayment`, `buildTrustSet`, `buildTransaction`;
* `checkFee`, **`checkFee_ok`**: a fee that passes is a positive number of at most `maxFeeDrops`;
* `buildTransaction_get`: the fields of a built transaction that its columns repeat.
-/

namespace Orchestrator

def lastLedgerOffset : ℕ := 20

def maxFeeDrops : ℕ := 1000

structure PreparationParams where
  fee : String
  sequence : ℕ
  lastLedgerSequence : ℕ
  networkId : ℕ
  deriving DecidableEq

def lastLedgerSequenceFor (preparedLedgerIndex : ℕ) : ℕ := preparedLedgerIndex + lastLedgerOffset

def buildPayment (intent : PaymentIntentPayload) (params : PreparationParams) : Record :=
  let deliverMax := match intent.amount with
    | .xrp drops => .str drops
    | .issuedCurrency currency issuer value => .obj (issuedFields currency issuer value)
  [("TransactionType", .str "Payment"),
    ("Account", .str intent.account),
    ("Destination", .str intent.destination),
    ("DeliverMax", deliverMax)] ++
  (match intent.destinationTag with
    | none => []
    | some tag => [("DestinationTag", .num tag)]) ++
  [("Flags", .num 0),
    ("Fee", .str params.fee),
    ("Sequence", .num params.sequence),
    ("LastLedgerSequence", .num params.lastLedgerSequence)] ++
  networkIdField params.networkId

def buildTrustSet (intent : TrustSetIntentPayload) (params : PreparationParams) : Record :=
  [("TransactionType", .str "TrustSet"),
    ("Account", .str intent.account),
    ("LimitAmount", .obj (issuedFields intent.limitAmount.currency intent.limitAmount.issuer
      intent.limitAmount.value)),
    ("Flags", .num 0),
    ("Fee", .str params.fee),
    ("Sequence", .num params.sequence),
    ("LastLedgerSequence", .num params.lastLedgerSequence)] ++
  networkIdField params.networkId

def buildTransaction (intent : IntentPayload) (params : PreparationParams) : Record :=
  match intent with
  | .payment intent => buildPayment intent params
  | .trustSet intent => buildTrustSet intent params

/-- `/^[1-9][0-9]*$/`. -/
def isPositiveDrops (s : String) : Bool :=
  match s.toList with
  | c :: cs => ('1' ≤ c && c ≤ '9') && cs.all fun c => '0' ≤ c && c ≤ '9'
  | [] => false

/-- Validates a fee string and enforces `maxFeeDrops`. -/
def checkFee (openLedgerFee : String) : Except Failure String :=
  if !isPositiveDrops openLedgerFee then
    .error (ApiError .xrplUnavailable "The XRPL endpoint returned an invalid fee.")
  else if digitsValue openLedgerFee > maxFeeDrops then
    .error (.api .feeTooHigh "The open ledger fee is above the 1000 drop cap."
      (some [("openLedgerFee", .str openLedgerFee), ("maxFeeDrops", .num maxFeeDrops)]))
  else .ok openLedgerFee

def cappedOpenLedgerFee : Service String := do
  let fee ← openLedgerFee
  ofExcept (checkFee fee)

/-! ## What passes the fee policy -/

theorem le_foldl_digits (cs : List Char) (n : ℕ) :
    n ≤ cs.foldl (fun n c => 10 * n + (c.toNat - '0'.toNat)) n := by
  induction cs generalizing n with
  | nil => exact le_rfl
  | cons c cs ih =>
    have h : n ≤ 10 * n + (c.toNat - '0'.toNat) := by omega
    exact le_trans h (ih _)

theorem digitsValue_pos {s : String} (h : isPositiveDrops s = true) : 1 ≤ digitsValue s := by
  unfold isPositiveDrops at h
  unfold digitsValue
  split at h
  · next c cs hc =>
    rw [hc]
    simp only [Bool.and_eq_true, decide_eq_true_eq] at h
    have h1 : '1'.toNat ≤ c.toNat := h.1.1
    have h0 : '1'.toNat = '0'.toNat + 1 := by decide
    have hc1 : 1 ≤ 10 * 0 + (c.toNat - '0'.toNat) := by omega
    exact le_trans hc1 (le_foldl_digits cs _)
  · cases h

/-- **A fee that passes is a positive number of drops, at most the cap.** -/
theorem checkFee_ok {openLedgerFee fee : String} (h : checkFee openLedgerFee = .ok fee) :
    fee = openLedgerFee ∧ isPositiveDrops fee = true ∧ digitsValue fee ≤ maxFeeDrops := by
  unfold checkFee at h
  split at h
  · cases h
  · next hd =>
    split at h
    · cases h
    · next hm =>
      cases h
      exact ⟨rfl, by simpa using hd, by omega⟩

/-! ## The fields of a built transaction -/

/-- **The fields that are also columns**: they are the parameters, and the payload's account. -/
theorem buildTransaction_get (intent : IntentPayload) (params : PreparationParams) :
    (buildTransaction intent params).get? "Account" = some (.str intent.account) ∧
    (buildTransaction intent params).get? "Sequence" = some (.num params.sequence) ∧
    (buildTransaction intent params).get? "Fee" = some (.str params.fee) ∧
    (buildTransaction intent params).get? "LastLedgerSequence" =
      some (.num params.lastLedgerSequence) ∧
    (buildTransaction intent params).get? "Amount" = none := by
  cases intent with
  | payment intent =>
    cases h : intent.destinationTag <;>
      simp only [buildTransaction, buildPayment, networkIdField, h] <;>
      split_ifs <;> simp [IntentPayload.account]
  | trustSet intent =>
    simp only [buildTransaction, buildTrustSet, networkIdField]
    split_ifs <;> simp [IntentPayload.account]

/-- A built transaction carries no signature, and no hash. -/
theorem buildTransaction_unsigned (intent : IntentPayload) (params : PreparationParams) :
    ∀ k ∈ ["SigningPubKey", "TxnSignature", "hash"],
      (buildTransaction intent params).get? k = none := by
  simp only [List.forall_mem_cons, List.not_mem_nil, IsEmpty.forall_iff, implies_true, and_true]
  cases intent with
  | payment intent =>
    cases h : intent.destinationTag <;>
      simp only [buildTransaction, buildPayment, networkIdField, h] <;>
      split_ifs <;> simp
  | trustSet intent =>
    simp only [buildTransaction, buildTrustSet, networkIdField]
    split_ifs <;> simp

end Orchestrator
