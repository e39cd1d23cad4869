import Orchestrator.Common.Platform
import Orchestrator.Common.Errors
import Orchestrator.Intents.State

/-!
# Intent payloads

`intent-payload.ts`: the canonical, normalized intent, its request hash, and the narrowing of a
stored `intent_payload` column.

* `CreateIntentDto`, `IntentPayload`, `toCanonicalIntent`, `IntentPayload.toJson`, `requestHash`;
* `AmountDto.array`, `LimitAmountDto.array`: what validation lets pass in the place of an object;
* `asIntentPayload`, **`asIntentPayload_same`**: a stored payload is read back as it was.
-/

namespace Orchestrator

/-- The component of an issued amount is absent if the request gave an array for the amount. -/
inductive Amount where
  | xrp (drops : String)
  | issuedCurrency (currency issuer value : Option String)
  deriving DecidableEq

structure LimitAmount where
  currency : Option String
  issuer : Option String
  value : Option String
  deriving DecidableEq

/-- The amount of a validated payment. `@ValidateNested` validates each element of an array, and so
accepts an array of amounts. -/
inductive AmountDto where
  | xrp (drops : String)
  | issuedCurrency (currency issuer value : String)
  | array (items : List Json)
  deriving DecidableEq

inductive LimitAmountDto where
  | object (currency issuer value : String)
  | array (items : List Json)
  deriving DecidableEq

/-- A validated request body; `destinationTag` may be absent. -/
inductive CreateIntentDto where
  | payment (account destination : String) (amount : AmountDto) (destinationTag : Option ℕ)
  | trustSet (account : String) (limitAmount : LimitAmountDto)
  deriving DecidableEq

structure PaymentIntentPayload where
  account : String
  destination : String
  amount : Amount
  destinationTag : Option ℕ
  deriving DecidableEq

structure TrustSetIntentPayload where
  account : String
  limitAmount : LimitAmount
  deriving DecidableEq

inductive IntentPayload where
  | payment (intent : PaymentIntentPayload)
  | trustSet (intent : TrustSetIntentPayload)
  deriving DecidableEq

namespace IntentPayload

def account : IntentPayload → String
  | .payment intent => intent.account
  | .trustSet intent => intent.account

def type : IntentPayload → IntentType
  | .payment _ => .payment
  | .trustSet _ => .trustSet

end IntentPayload

/-- What is read of the amount: an array has none of the properties. -/
def AmountDto.canonical : AmountDto → Amount
  | .xrp drops => .xrp drops
  | .issuedCurrency currency issuer value =>
    .issuedCurrency (some currency) (some issuer) (some value)
  | .array _ => .issuedCurrency none none none

def LimitAmountDto.canonical : LimitAmountDto → LimitAmount
  | .object currency issuer value => ⟨some currency, some issuer, some value⟩
  | .array _ => ⟨none, none, none⟩

def toCanonicalIntent : CreateIntentDto → IntentPayload
  | .payment account destination amount destinationTag =>
    .payment { account, destination, amount := amount.canonical, destinationTag }
  | .trustSet account limitAmount => .trustSet { account, limitAmount := limitAmount.canonical }

/-- A property that is a string, or undefined, which `JSON.stringify` leaves out. -/
def optionalField (k : String) : Option String → Record
  | some s => [(k, .str s)]
  | none => []

/-- `currency`, `issuer` and `value` of an issued amount. -/
def issuedFields (currency issuer value : Option String) : Record :=
  optionalField "currency" currency ++ optionalField "issuer" issuer ++ optionalField "value" value

def Amount.toJson : Amount → Json
  | .xrp drops => .obj [("type", .str "XRP"), ("drops", .str drops)]
  | .issuedCurrency currency issuer value =>
    .obj (("type", .str "ISSUED_CURRENCY") :: issuedFields currency issuer value)

def LimitAmount.toJson (limit : LimitAmount) : Json :=
  .obj (issuedFields limit.currency limit.issuer limit.value)

/-- The canonical object, its fields in their fixed order. -/
def IntentPayload.toJson : IntentPayload → Json
  | .payment intent => .obj [
      ("type", .str "PAYMENT"),
      ("account", .str intent.account),
      ("destination", .str intent.destination),
      ("amount", intent.amount.toJson),
      ("destinationTag", match intent.destinationTag with
        | none => .null
        | some tag => .num tag)]
  | .trustSet intent => .obj [
      ("type", .str "TRUST_SET"),
      ("account", .str intent.account),
      ("limitAmount", intent.limitAmount.toJson)]

/-- SHA-256 of the canonical intent JSON, uppercase hex. -/
def requestHash (P : Platform) (payload : IntentPayload) : String :=
  P.toUpperCase (P.sha256 payload.toJson.stringify)

/-! ## Reading a stored payload -/

section Read

def readStr (r : Record) (k : String) : Option String :=
  match r.get? k with
  | some (.str s) => some s
  | _ => none

def readAmount (r : Record) : Option Amount :=
  match readStr r "type" with
  | some "XRP" => (readStr r "drops").map .xrp
  | _ => some (.issuedCurrency (readStr r "currency") (readStr r "issuer") (readStr r "value"))

def readTag : Option Json → Option (Option ℕ)
  | some .null => some none
  | some (.num n) => if 0 ≤ n then some (some n.toNat) else none
  | _ => none

def readPayment (r : Record) : Option PaymentIntentPayload := do
  return {
    account := ← readStr r "account"
    destination := ← readStr r "destination"
    amount := ← (r.get? "amount").bind asRecord >>= readAmount
    destinationTag := ← readTag (r.get? "destinationTag") }

def readLimit (r : Record) : LimitAmount :=
  ⟨readStr r "currency", readStr r "issuer", readStr r "value"⟩

def readTrustSet (r : Record) : Option TrustSetIntentPayload := do
  return {
    account := ← readStr r "account"
    limitAmount := ← ((r.get? "limitAmount").bind asRecord).map readLimit }

end Read

/-- Narrows a stored `intent_payload` column. The source casts once it has seen `type`; here the
cast reads the fields, and an object without one that `create` always stores is refused. -/
def asIntentPayload (value : Json) : Except Failure IntentPayload :=
  let unknownShape : Failure := .internal "stored intent payload has an unknown shape"
  match asRecord value with
  | none => .error unknownShape
  | some r =>
    let payload := match r.get? "type" with
      | some (.str "PAYMENT") => (readPayment r).map IntentPayload.payment
      | some (.str "TRUST_SET") => (readTrustSet r).map IntentPayload.trustSet
      | _ => none
    match payload with
    | some payload => .ok payload
    | none => .error unknownShape

/-! ## What is stored is what is read -/

section RoundTrip

theorem Json.Same.obj_left {fs : Record} {j : Json} (h : (Json.obj fs).Same j) :
    ∃ gs : Record, j = .obj gs ∧ Record.Same fs gs := by
  cases h with
  | obj h₁ h₂ => exact ⟨_, rfl, .obj h₁ h₂⟩

theorem readStr_same {r r' : Record} (h : r.Same r') (k : String) : readStr r' k = readStr r k := by
  unfold readStr
  cases hr : r.get? k with
  | none => rw [h.get_none hr]
  | some x =>
    obtain ⟨y, hy, hs⟩ := h.get hr
    rw [hy]
    cases hs <;> rfl

/-- An object found under a key is found there after reordering, with its own fields. -/
theorem Record.Same.get_obj {r r' : Record} (h : r.Same r') {k : String} {fs : Record}
    (hx : r.get? k = some (.obj fs)) : ∃ gs : Record, r'.get? k = some (.obj gs) ∧ Record.Same fs gs := by
  obtain ⟨y, hy, hs⟩ := h.get hx
  obtain ⟨gs, rfl, hgs⟩ := hs.obj_left
  exact ⟨gs, hy, hgs⟩

/-- The components of an issued amount, read from the object that holds them. -/
theorem readStr_issuedFields (currency issuer value : Option String) :
    readStr (issuedFields currency issuer value) "currency" = currency ∧
    readStr (issuedFields currency issuer value) "issuer" = issuer ∧
    readStr (issuedFields currency issuer value) "value" = value := by
  cases currency <;> cases issuer <;> cases value <;>
    simp [issuedFields, optionalField, readStr]

theorem readAmount_same (a : Amount) {r : Record} (h : a.toJson.Same (.obj r)) :
    readAmount r = some a := by
  cases a with
  | xrp drops =>
    have htype : readStr r "type" = some "XRP" := readStr_same h "type"
    have hdrops : readStr r "drops" = some drops := readStr_same h "drops"
    simp [readAmount, htype, hdrops]
  | issuedCurrency currency issuer value =>
    obtain ⟨h1, h2, h3⟩ := readStr_issuedFields currency issuer value
    have htype : readStr r "type" = some "ISSUED_CURRENCY" := readStr_same h "type"
    have hcurrency : readStr r "currency" = currency := (readStr_same h "currency").trans h1
    have hissuer : readStr r "issuer" = issuer := (readStr_same h "issuer").trans h2
    have hvalue : readStr r "value" = value := (readStr_same h "value").trans h3
    simp [readAmount, htype, hcurrency, hissuer, hvalue]

theorem readLimit_same (a : LimitAmount) {r : Record} (h : a.toJson.Same (.obj r)) :
    readLimit r = a := by
  obtain ⟨h1, h2, h3⟩ := readStr_issuedFields a.currency a.issuer a.value
  unfold readLimit
  rw [readStr_same h "currency", readStr_same h "issuer", readStr_same h "value", h1, h2, h3]

theorem readTag_same (tag : Option ℕ) {x : Json}
    (h : (match tag with | none => Json.null | some t => .num t).Same x) :
    readTag (some x) = some tag := by
  cases tag <;> cases h <;> simp [readTag]

/-- **A stored payload is read back as it was**, whatever order the column gives its keys. -/
theorem asIntentPayload_same (payload : IntentPayload) {j : Json} (h : payload.toJson.Same j) :
    asIntentPayload j = .ok payload := by
  cases payload with
  | payment intent =>
    obtain ⟨r, rfl, hr⟩ := h.obj_left
    have h1 := hr.get_str (k := "type") (s := "PAYMENT") rfl
    have h2 : readStr r "account" = some intent.account := readStr_same hr "account"
    have h3 : readStr r "destination" = some intent.destination := readStr_same hr "destination"
    obtain ⟨x, hx, hxs⟩ := hr.get (k := "destinationTag") rfl
    have h5 : ∃ fs : Record, r.get? "amount" = some (.obj fs) ∧ intent.amount.toJson.Same (.obj fs) := by
      obtain ⟨y, hy, hys⟩ := hr.get (k := "amount") (x := intent.amount.toJson) rfl
      cases hamt : intent.amount <;> rw [hamt] at hys <;> obtain ⟨gs, rfl, hgs⟩ := hys.obj_left <;>
        exact ⟨gs, hy, hgs⟩
    obtain ⟨fs, hfs, hsame⟩ := h5
    have h6 := readAmount_same _ hsame
    have h7 := readTag_same _ hxs
    simp [asIntentPayload, asRecord, h1, readPayment, h2, h3, hfs, h6, hx, h7]
  | trustSet intent =>
    obtain ⟨r, rfl, hr⟩ := h.obj_left
    have h1 := hr.get_str (k := "type") (s := "TRUST_SET") rfl
    have h2 : readStr r "account" = some intent.account := readStr_same hr "account"
    obtain ⟨gs, hgs, hsame⟩ := hr.get_obj (k := "limitAmount") rfl
    have h3 := readLimit_same _ hsame
    simp [asIntentPayload, asRecord, h1, readTrustSet, h2, hgs, h3]

end RoundTrip

end Orchestrator
