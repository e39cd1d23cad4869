import Orchestrator.Intents.Payload
import Orchestrator.Xrpl.Types

/-!
# Validation of a request body

`CreateIntentPipe` with the decorators of `create-intent.dto.ts` and `validators.ts`. Its class
depends on `type`; nested objects are validated with the same rules, and `@ValidateNested` on an
array validates each element, arrays again by their elements.

* `isXrpDrops`, `isIssuedCurrencyCode`, `isDecimalString`: the validators of strings;
* `plainToInstance`, `throwsTypeError`: class-transformer;
* `validateNested`, `whitelisted`, `validString`, `validTag`: class-validator;
* `amountDto`, `limitAmountDto`, `paymentIntentDto`, `trustSetIntentDto`: the classes;
* `CreateIntentPipe.transform`: the pipe.
-/

namespace Orchestrator

/-! ## Validators of strings -/

/-- `XRP_DROPS_PATTERN`, `/^[1-9][0-9]{0,29}$/`. -/
def isXrpDrops (s : String) : Bool :=
  match s.toList with
  | c :: cs => ('1' ≤ c && c ≤ '9') && decide (cs.length ≤ 29) && cs.all Char.isDigit
  | [] => false

/-- `@IsIssuedCurrencyCode()`: `/^[A-Z0-9]{3}$/`, and not XRP. -/
def isIssuedCurrencyCode (s : String) : Bool :=
  s.toList.length == 3 && (s.toList.all fun c => ('A' ≤ c && c ≤ 'Z') || c.isDigit) && s != "XRP"

/-- `DECIMAL_VALUE_PATTERN`, `/^(0|[1-9][0-9]*)(\.[0-9]+)?$/`. -/
def isDecimalValue (s : String) : Bool :=
  let integer := s.toList.takeWhile Char.isDigit
  let fraction := s.toList.dropWhile Char.isDigit
  (integer == ['0'] || integer.head?.any fun c => c != '0') &&
    match fraction with
    | [] => true
    | c :: cs => c == '.' && !cs.isEmpty && cs.all Char.isDigit

/-- `@IsDecimalString({ positive })`, at most `DECIMAL_VALUE_MAX_LENGTH` characters. -/
def isDecimalString (positive : Bool) (s : String) : Bool :=
  decide (s.toList.length ≤ 64) && isDecimalValue s &&
    (!positive || s.toList.any fun c => '1' ≤ c && c ≤ '9')

/-! ## class-transformer -/

section Instance

/-- The members of `Object.prototype`. A new object has them all, and `plainToInstance` skips a key
with the name of one. -/
def inheritedNames : List String :=
  ["constructor", "__proto__", "__defineGetter__", "__defineSetter__", "__lookupGetter__",
    "__lookupSetter__", "hasOwnProperty", "isPrototypeOf", "propertyIsEnumerable",
    "toLocaleString", "toString", "valueOf"]

mutual

/-- `plainToInstance`: the value, its objects without the keys that are skipped. -/
def plainToInstance : Json → Json
  | .arr items => .arr (instanceItems items)
  | .obj fields => .obj (instanceFields fields)
  | value => value

def instanceItems : List Json → List Json
  | [] => []
  | x :: xs => plainToInstance x :: instanceItems xs

def instanceFields : List (String × Json) → List (String × Json)
  | [] => []
  | (k, x) :: r =>
    if k ∈ inheritedNames then instanceFields r else (k, plainToInstance x) :: instanceFields r

end

/-- `if (value)`. -/
def truthy : Json → Bool
  | .null => false
  | .bool b => b
  | .num n => n != 0
  | .str s => s != ""
  | _ => true

mutual

/-- `plainToInstance` calls the `constructor` of an object for which no class is declared, and
throws if the body has given it one. -/
def throwsTypeError (declared : Bool) : Json → Bool
  | .arr items => itemsThrow declared items
  | .obj fields =>
    (!declared && (Record.get? fields "constructor").any truthy) || fieldsThrow fields
  | _ => false

def itemsThrow (declared : Bool) : List Json → Bool
  | [] => false
  | x :: xs => throwsTypeError declared x || itemsThrow declared xs

/-- No class is declared for the properties of a nested object. -/
def fieldsThrow : List (String × Json) → Bool
  | [] => false
  | (k, x) :: r =>
    (decide (k ∉ inheritedNames) && throwsTypeError false x) || fieldsThrow r

end

/-- A body whose class declares one for `nested` only. -/
def bodyThrows (nested : String) (r : Record) : Bool :=
  r.any fun f => decide (f.1 ∉ inheritedNames) && throwsTypeError (f.1 == nested) f.2

/-- The class of an item of `amount` is looked up by the item's `type`, which null does not have. -/
def amountThrows (r : Record) : Bool :=
  match r.get? "amount" with
  | some (.arr items) => decide (.null ∈ items)
  | _ => false

theorem get?_instanceFields (r : Record) (k : String) : Record.get? (instanceFields r) k =
    if k ∈ inheritedNames then none else (r.get? k).map plainToInstance := by
  induction r with
  | nil => simp [instanceFields]
  | cons f r ih =>
    obtain ⟨m, v⟩ := f
    rw [instanceFields]
    by_cases hmk : m = k
    · subst hmk
      split_ifs with hm
      · rw [ih, if_pos hm]
      · simp
    · split_ifs with hm hk hk
      · rw [ih, if_pos hk]
      · rw [ih, if_neg hk, Record.get?_cons, if_neg hmk]
      · rw [Record.get?_cons, if_neg hmk, ih, if_pos hk]
      · rw [Record.get?_cons, if_neg hmk, ih, if_neg hk, Record.get?_cons, if_neg hmk]

@[simp] theorem plainToInstance_eq_str {value : Json} {s : String} :
    plainToInstance value = .str s ↔ value = .str s := by
  cases value <;> simp [plainToInstance]

end Instance

/-! ## class-validator -/

section Validate

mutual

/-- `@ValidateNested()`: an array is validated by its elements, and null is not validated. -/
def validateNested (valid : Record → Bool) : Json → Bool
  | .null => true
  | .obj r => valid r
  | .arr items => validateItems valid items
  | _ => false

def validateItems (valid : Record → Bool) : List Json → Bool
  | [] => true
  | x :: xs => validateNested valid x && validateItems valid xs

end

/-- A property that must be a string the validator accepts. -/
def validString (valid : String → Bool) (value : Option Json) : Option String :=
  match value with
  | some (.str s) => if valid s then some s else none
  | _ => none

/-- `forbidNonWhitelisted`: the object has no other properties. -/
def whitelisted (r : Record) (properties : List String) : Bool :=
  r.all fun f => properties.contains f.1

/-- `@IsOptional() @IsInt() @Min(0) @Max(UINT32_MAX)`: null is as good as absent. -/
def validTag : Option Json → Option (Option ℕ)
  | none => some none
  | some .null => some none
  | some (.num n) => if 0 ≤ n ∧ n ≤ 4294967295 then some (some n.toNat) else none
  | _ => none

end Validate

/-! ## The classes -/

variable (P : Platform)

def issuedAmountDto (r : Record) : Option AmountDto := do
  if whitelisted r ["type", "currency", "issuer", "value"] then
    return .issuedCurrency (← validString isIssuedCurrencyCode (r.get? "currency"))
      (← validString P.isValidClassicAddress (r.get? "issuer"))
      (← validString (isDecimalString true) (r.get? "value"))
  else none

def xrpAmountDto (r : Record) : Option AmountDto := do
  if whitelisted r ["type", "drops"] then return .xrp (← validString isXrpDrops (r.get? "drops"))
  else none

/-- The class for an amount whose `type` selects none. -/
def fallbackAmountDto (r : Record) : Bool :=
  whitelisted r ["type"] &&
    (validString ["XRP", "ISSUED_CURRENCY"].contains (r.get? "type")).isSome

/-- An object with the class that its `type` selects; any other `type` fails the fallback's. -/
def amountObject (r : Record) : Option AmountDto :=
  match r.get? "type" with
  | some (.str "XRP") => xrpAmountDto r
  | some (.str "ISSUED_CURRENCY") => issuedAmountDto P r
  | _ => none

/-- An element of an array of amounts. An array has no `type`, so its own elements get the
fallback's class. -/
def amountItem : Json → Bool
  | .obj r => (amountObject P r).isSome
  | item => validateNested fallbackAmountDto item

def amountDto : Option Json → Option AmountDto
  | some (.obj r) => amountObject P r
  | some (.arr items) => if items.all (amountItem P) then some (.array items) else none
  | _ => none

def limitAmountObject (r : Record) : Option LimitAmountDto := do
  if whitelisted r ["currency", "issuer", "value"] then
    return .object (← validString isIssuedCurrencyCode (r.get? "currency"))
      (← validString P.isValidClassicAddress (r.get? "issuer"))
      (← validString (isDecimalString false) (r.get? "value"))
  else none

def limitAmountDto : Option Json → Option LimitAmountDto
  | some (.obj r) => limitAmountObject P r
  | some (.arr items) =>
    if validateItems (fun r => (limitAmountObject P r).isSome) items then some (.array items)
    else none
  | _ => none

def paymentIntentDto (r : Record) : Option CreateIntentDto := do
  if whitelisted r ["type", "account", "destination", "amount", "destinationTag"] then
    return .payment (← validString P.isValidClassicAddress (r.get? "account"))
      (← validString P.isValidClassicAddress (r.get? "destination"))
      (← amountDto P (r.get? "amount")) (← validTag (r.get? "destinationTag"))
  else none

def trustSetIntentDto (r : Record) : Option CreateIntentDto := do
  if whitelisted r ["type", "account", "limitAmount"] then
    return .trustSet (← validString P.isValidClassicAddress (r.get? "account"))
      (← limitAmountDto P (r.get? "limitAmount"))
  else none

/-! ## The pipe -/

namespace CreateIntentPipe

def invalid (message : String) : Failure := ApiError .validationError message

/-- The checks across fields. -/
def differs : CreateIntentDto → Except Failure CreateIntentDto
  | .payment account destination amount destinationTag =>
    if account = destination then .error (invalid "destination must differ from account")
    else .ok (.payment account destination amount destinationTag)
  | .trustSet account limitAmount =>
    if limitAmount.canonical.issuer = some account then
      .error (invalid "limitAmount.issuer must differ from account")
    else .ok (.trustSet account limitAmount)

/-- The result of `plainToInstance` and `validate`. -/
def validated (body : Json) (throws : Bool) (dto : Option CreateIntentDto) :
    Except Failure CreateIntentDto :=
  if throws then .error (.internal (P.constraintMessages body))
  else match dto with
    | some dto => differs dto
    | none => .error (invalid (P.constraintMessages body))

/-- `CreateIntentPipe.transform`. -/
def transform (body : Json) : Except Failure CreateIntentDto :=
  match asRecord body with
  | none => .error (invalid "request body must be a JSON object")
  | some r => match r.get? "type" with
    | some (.str "PAYMENT") =>
      validated P body (amountThrows r || bodyThrows "amount" r)
        (paymentIntentDto P (instanceFields r))
    | some (.str "TRUST_SET") =>
      validated P body (bodyThrows "limitAmount" r) (trustSetIntentDto P (instanceFields r))
    | _ => .error (invalid "type must be PAYMENT or TRUST_SET")

variable {P} {body : Json} {dto dto' : CreateIntentDto}

theorem differs_ok (h : differs dto = .ok dto') : dto' = dto := by
  unfold differs at h
  split at h <;> split_ifs at h <;> exact (Except.ok.inj h).symm

theorem validated_ok {throws : Bool} {result : Option CreateIntentDto}
    (h : validated P body throws result = .ok dto) : result = some dto ∧ differs dto = .ok dto := by
  unfold validated at h
  split_ifs at h
  split at h
  · obtain rfl := differs_ok h
    exact ⟨rfl, h⟩
  · cases h

/-- An accepted body is an object that its class accepts. -/
theorem transform_ok (h : transform P body = .ok dto) :
    ∃ r : Record, body = .obj r ∧ differs dto = .ok dto ∧
      ((r.get? "type" = some (.str "PAYMENT") ∧
          paymentIntentDto P (instanceFields r) = some dto) ∨
        (r.get? "type" = some (.str "TRUST_SET") ∧
          trustSetIntentDto P (instanceFields r) = some dto)) := by
  unfold transform at h
  split at h
  · cases h
  · next r hr =>
    refine ⟨r, asRecord_some hr, ?_⟩
    split at h
    · next htype =>
      obtain ⟨hd, hdiffers⟩ := validated_ok h
      exact ⟨hdiffers, .inl ⟨htype, hd⟩⟩
    · next htype =>
      obtain ⟨hd, hdiffers⟩ := validated_ok h
      exact ⟨hdiffers, .inr ⟨htype, hd⟩⟩
    · cases h

end CreateIntentPipe

end Orchestrator
