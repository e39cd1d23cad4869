import Orchestrator.Intents.Canonical
import Orchestrator.Runtime.Schedules
import Mathlib.Data.List.TakeWhile

/-!
# The grammar of intents

What a stored intent is documented to be, in terms of its characters and numbers, and which of the
bodies that pass validation make one.

* `DropsText`, `CurrencyText`, `DecimalText`: the grammar of the components, with
  `isXrpDrops_iff`, `isIssuedCurrencyCode_iff`, `isDecimalString_iff` for the validators;
* `Amount.Complete`, `LimitAmount.Complete`, `IntentPayload.Complete`: a fully populated intent;
* `nestedArray`; **`accepted_complete_iff`**: an accepted body makes one unless it has an array in
  the place of an object.
-/

namespace Orchestrator

/-! ## Texts -/

def IsNonzeroDigit (c : Char) : Prop := '1' ≤ c ∧ c ≤ '9'

/-- `[1-9][0-9]{0,29}`. -/
def DropsText (s : String) : Prop :=
  ∃ d ds, s.toList = d :: ds ∧ IsNonzeroDigit d ∧ ds.length ≤ 29 ∧ ∀ c ∈ ds, c.isDigit = true

/-- A three-character code other than XRP. -/
def CurrencyText (s : String) : Prop :=
  s.toList.length = 3 ∧ (∀ c ∈ s.toList, ('A' ≤ c ∧ c ≤ 'Z') ∨ c.isDigit = true) ∧ s ≠ "XRP"

/-- Digits without a leading zero, then a fraction or none. -/
def DecimalText (s : String) : Prop :=
  ∃ integer fraction, s.toList = integer ++ fraction ∧ (∀ c ∈ integer, c.isDigit = true) ∧
    (integer = ['0'] ∨ ∃ d ds, integer = d :: ds ∧ d ≠ '0') ∧
    (fraction = [] ∨ ∃ d ds, fraction = '.' :: d :: ds ∧ ∀ c ∈ d :: ds, c.isDigit = true)

/-- The value of the text is not zero. -/
def PositiveText (s : String) : Prop := ∃ c ∈ s.toList, IsNonzeroDigit c

theorem isXrpDrops_iff (s : String) : isXrpDrops s = true ↔ DropsText s := by
  rw [isXrpDrops, DropsText]
  cases s.toList with
  | nil => simp
  | cons d ds => simp [IsNonzeroDigit, and_assoc]

theorem isIssuedCurrencyCode_iff (s : String) :
    isIssuedCurrencyCode s = true ↔ CurrencyText s := by
  simp [isIssuedCurrencyCode, CurrencyText, and_assoc]

/-- The integer part is all the digits up to the fraction. -/
theorem takeWhile_integer {integer fraction : List Char} (hi : ∀ c ∈ integer, c.isDigit = true)
    (hf : fraction = [] ∨ ∃ cs, fraction = '.' :: cs) :
    (integer ++ fraction).takeWhile Char.isDigit = integer ∧
      (integer ++ fraction).dropWhile Char.isDigit = fraction := by
  rw [List.takeWhile_append_of_pos hi, List.dropWhile_append_of_pos hi]
  obtain rfl | ⟨cs, rfl⟩ := hf
  · simp
  · have dot : Char.isDigit '.' = false := by decide
    simp [dot]

theorem isDecimalValue_iff (s : String) : isDecimalValue s = true ↔ DecimalText s := by
  rw [isDecimalValue, Bool.and_eq_true, Bool.or_eq_true]
  constructor
  · rintro ⟨hi, hf⟩
    refine ⟨s.toList.takeWhile Char.isDigit, s.toList.dropWhile Char.isDigit,
      List.takeWhile_append_dropWhile.symm, fun c hc => List.mem_takeWhile_imp hc, ?_, ?_⟩
    · refine hi.imp eq_of_beq fun hi => ?_
      obtain ⟨d, hd, hne⟩ := (Option.any_eq_true _ _).mp hi
      obtain ⟨ds, hds⟩ := List.head?_eq_some_iff.mp hd
      exact ⟨d, ds, hds, by simpa using hne⟩
    · cases hfr : s.toList.dropWhile Char.isDigit with
      | nil => exact .inl rfl
      | cons c cs =>
        rw [hfr] at hf
        cases cs with
        | nil => simp at hf
        | cons d ds =>
          simp only [Bool.and_eq_true, beq_iff_eq, List.all_eq_true] at hf
          exact .inr ⟨d, ds, by rw [hf.1.1], hf.2⟩
  · rintro ⟨integer, fraction, hs, hi, hint, hfr⟩
    have hrest : fraction = [] ∨ ∃ ds, fraction = '.' :: ds :=
      hfr.imp id fun ⟨d, ds, h, _⟩ => ⟨d :: ds, h⟩
    obtain ⟨ht, hd⟩ := takeWhile_integer hi hrest
    rw [hs, ht, hd]
    constructor
    · obtain rfl | ⟨d, ds, rfl, hne⟩ := hint
      · exact .inl rfl
      · exact .inr (by simpa using hne)
    · obtain rfl | ⟨d, ds, rfl, hds⟩ := hfr
      · rfl
      · simpa using hds

theorem isDecimalString_iff (positive : Bool) (s : String) : isDecimalString positive s = true ↔
    s.toList.length ≤ 64 ∧ DecimalText s ∧ (positive = true → PositiveText s) := by
  have hpos : (s.toList.any fun c => '1' ≤ c && c ≤ '9') = true ↔ PositiveText s := by
    simp [PositiveText, IsNonzeroDigit]
  rw [isDecimalString, Bool.and_eq_true, Bool.and_eq_true, Bool.or_eq_true, isDecimalValue_iff,
    hpos, decide_eq_true_iff, and_assoc]
  cases positive <;> simp

/-! ## Intents -/

/-- An issued amount with all its components. -/
def IssuedComplete (P : Platform) (positive : Bool) (currency issuer value : Option String) : Prop :=
  (∃ c, currency = some c ∧ CurrencyText c) ∧
    (∃ i, issuer = some i ∧ P.isValidClassicAddress i = true) ∧
    ∃ v, value = some v ∧ v.toList.length ≤ 64 ∧ DecimalText v ∧ (positive = true → PositiveText v)

def Amount.Complete (P : Platform) : Amount → Prop
  | .xrp drops => DropsText drops
  | .issuedCurrency currency issuer value => IssuedComplete P true currency issuer value

/-- The documented grammar of a canonical intent. -/
def IntentPayload.Complete (P : Platform) : IntentPayload → Prop
  | .payment intent => P.isValidClassicAddress intent.account = true ∧
      P.isValidClassicAddress intent.destination = true ∧ intent.destination ≠ intent.account ∧
      (∀ tag, intent.destinationTag = some tag → tag ≤ 4294967295) ∧ intent.amount.Complete P
  | .trustSet intent => P.isValidClassicAddress intent.account = true ∧
      intent.limitAmount.issuer ≠ some intent.account ∧
      IssuedComplete P false intent.limitAmount.currency intent.limitAmount.issuer
        intent.limitAmount.value

variable {P : Platform}

theorem validString_valid {valid : String → Bool} {value : Option Json} {s : String}
    (h : validString valid value = some s) : valid s = true := by
  unfold validString at h
  split at h
  · split_ifs at h with hv
    exact Option.some.inj h ▸ hv
  · cases h

theorem validTag_le {value : Option Json} {tag : ℕ} (h : validTag value = some (some tag)) :
    tag ≤ 4294967295 := by
  unfold validTag at h
  split at h
  · cases h
  · cases h
  · split_ifs at h with hn
    have := Option.some.inj (Option.some.inj h)
    omega
  · cases h

theorem issued_complete {positive : Bool} {currency issuer value : Option Json} {c i v : String}
    (hc : validString isIssuedCurrencyCode currency = some c)
    (hi : validString P.isValidClassicAddress issuer = some i)
    (hv : validString (isDecimalString positive) value = some v) :
    IssuedComplete P positive (some c) (some i) (some v) :=
  ⟨⟨c, rfl, (isIssuedCurrencyCode_iff c).mp (validString_valid hc)⟩,
    ⟨i, rfl, validString_valid hi⟩,
    ⟨v, rfl, (isDecimalString_iff positive v).mp (validString_valid hv)⟩⟩

theorem amountObject_complete {r : Record} {amount : AmountDto}
    (h : amountObject P r = some amount) : amount.canonical.Complete P := by
  unfold amountObject at h
  split at h
  · unfold xrpAmountDto at h
    split_ifs at h
    simp only [Option.bind_eq_bind, Option.bind_eq_some_iff, Option.pure_def,
      Option.some.injEq] at h
    obtain ⟨drops, hdrops, rfl⟩ := h
    exact (isXrpDrops_iff drops).mp (validString_valid hdrops)
  · unfold issuedAmountDto at h
    split_ifs at h
    simp only [Option.bind_eq_bind, Option.bind_eq_some_iff, Option.pure_def,
      Option.some.injEq] at h
    obtain ⟨currency, hcurrency, issuer, hissuer, limit, hlimit, rfl⟩ := h
    exact issued_complete hcurrency hissuer hlimit
  · cases h

theorem limitAmountObject_complete {r : Record} {limit : LimitAmountDto}
    (h : limitAmountObject P r = some limit) :
    IssuedComplete P false limit.canonical.currency limit.canonical.issuer
      limit.canonical.value := by
  unfold limitAmountObject at h
  split_ifs at h
  simp only [Option.bind_eq_bind, Option.bind_eq_some_iff, Option.pure_def,
    Option.some.injEq] at h
  obtain ⟨currency, hcurrency, issuer, hissuer, limit, hlimit, rfl⟩ := h
  exact issued_complete hcurrency hissuer hlimit

def Json.isArray : Json → Bool
  | .arr _ => true
  | _ => false

theorem isArray_plainToInstance (value : Json) :
    (plainToInstance value).isArray = value.isArray := by
  cases value <;> simp [plainToInstance, Json.isArray]

/-- The amount is complete unless it was an array. -/
theorem amountDto_complete_iff {value : Option Json} {amount : AmountDto}
    (h : amountDto P value = some amount) :
    amount.canonical.Complete P ↔ value.any Json.isArray = false := by
  unfold amountDto at h
  split at h
  · exact iff_of_true (amountObject_complete h) rfl
  · split_ifs at h
    obtain rfl := Option.some.inj h
    simp [AmountDto.canonical, Amount.Complete, IssuedComplete, Json.isArray]
  · cases h

theorem limitAmountDto_complete_iff {value : Option Json} {limit : LimitAmountDto}
    (h : limitAmountDto P value = some limit) :
    IssuedComplete P false limit.canonical.currency limit.canonical.issuer limit.canonical.value ↔
      value.any Json.isArray = false := by
  unfold limitAmountDto at h
  split at h
  · exact iff_of_true (limitAmountObject_complete h) rfl
  · split_ifs at h
    obtain rfl := Option.some.inj h
    simp [LimitAmountDto.canonical, IssuedComplete, Json.isArray]
  · cases h

/-! ## Accepted bodies -/

/-- The body has an array in the place of its nested object. -/
def nestedArray (body : Json) : Bool :=
  (asRecord body).any fun r => (field r "amount").isArray || (field r "limitAmount").isArray

/-- Validation has seen an array where the body has one. -/
theorem any_isArray_instance {r : Record} {k : String} (hk : k ∈ businessFields) :
    (Record.get? (instanceFields r) k).any Json.isArray = (field r k).isArray := by
  rw [get?_instance hk, field]
  cases r.get? k with
  | none => rfl
  | some value => exact isArray_plainToInstance value

theorem paymentIntentDto_complete_iff {r : Record} {dto : CreateIntentDto}
    (h : paymentIntentDto P (instanceFields r) = some dto)
    (hd : CreateIntentPipe.differs dto = .ok dto) :
    (toCanonicalIntent dto).Complete P ↔ nestedArray (.obj r) = false := by
  unfold paymentIntentDto at h
  split_ifs at h with hw
  simp only [Option.bind_eq_bind, Option.bind_eq_some_iff, Option.pure_def, Option.some.injEq] at h
  obtain ⟨account, haccount, destination, hdestination, amount, hamount, tag, htag, rfl⟩ := h
  rw [CreateIntentPipe.differs] at hd
  split_ifs at hd with hne
  have hlimit : (field r "limitAmount").isArray = false := by
    rw [field_of_whitelisted hw (by decide) (by decide)]
    rfl
  have hamount := amountDto_complete_iff hamount
  rw [any_isArray_instance (by decide)] at hamount
  rw [nestedArray, asRecord, Option.any_some, hlimit, Bool.or_false, ← hamount]
  refine ⟨fun hc => hc.2.2.2.2, fun hc => ⟨validString_valid haccount,
    validString_valid hdestination, Ne.symm hne, fun t ht => ?_, hc⟩⟩
  exact validTag_le (htag.trans (congrArg some ht))

theorem trustSetIntentDto_complete_iff {r : Record} {dto : CreateIntentDto}
    (h : trustSetIntentDto P (instanceFields r) = some dto)
    (hd : CreateIntentPipe.differs dto = .ok dto) :
    (toCanonicalIntent dto).Complete P ↔ nestedArray (.obj r) = false := by
  unfold trustSetIntentDto at h
  split_ifs at h with hw
  simp only [Option.bind_eq_bind, Option.bind_eq_some_iff, Option.pure_def, Option.some.injEq] at h
  obtain ⟨account, haccount, limitAmount, hlimit, rfl⟩ := h
  rw [CreateIntentPipe.differs] at hd
  split_ifs at hd with hne
  have hamount : (field r "amount").isArray = false := by
    rw [field_of_whitelisted hw (by decide) (by decide)]
    rfl
  have hlimit := limitAmountDto_complete_iff hlimit
  rw [any_isArray_instance (by decide)] at hlimit
  rw [nestedArray, asRecord, Option.any_some, hamount, Bool.false_or, ← hlimit]
  exact ⟨fun hc => hc.2.2, fun hc => ⟨validString_valid haccount, hne, hc⟩⟩

/-- **Accepted bodies are complete intents**, exactly if no array is in the place of an object. -/
theorem accepted_complete_iff (P : Platform) (body : Json) (dto : CreateIntentDto)
    (h : CreateIntentPipe.transform P body = .ok dto) :
    (toCanonicalIntent dto).Complete P ↔ nestedArray body = false := by
  obtain ⟨r, rfl, hdiffers, ⟨-, hd⟩ | ⟨-, hd⟩⟩ := CreateIntentPipe.transform_ok h
  · exact paymentIntentDto_complete_iff hd hdiffers
  · exact trustSetIntentDto_complete_iff hd hdiffers

namespace Sample

/-- A payment with a given amount. -/
def paymentBody (amount : Json) : Json :=
  .obj [("type", .str "PAYMENT"), ("account", .str "rPT1Sjq2YGrBMTttX4GZHjKu9dyfzbpAYe"),
    ("destination", .str "rHb9CJAWyB4rj91VRWn96DkukG4bwdtyTh"), ("amount", amount)]

end Sample

theorem accepted_complete_iff_drops : ∃ dto,
    CreateIntentPipe.transform Sample.platform
      (Sample.paymentBody (.obj [("type", .str "XRP"), ("drops", .str "25000000")])) = .ok dto ∧
    (toCanonicalIntent dto).Complete Sample.platform := by
  refine ⟨_, rfl, (accepted_complete_iff Sample.platform
    (Sample.paymentBody (.obj [("type", .str "XRP"), ("drops", .str "25000000")])) _ rfl).mpr ?_⟩
  rfl

/-- An empty array is accepted for the amount, and every component of it is missing. -/
theorem accepted_incomplete : ¬ ∀ body dto,
    CreateIntentPipe.transform Sample.platform body = .ok dto →
      (toCanonicalIntent dto).Complete Sample.platform := by
  intro h
  obtain ⟨-, -, -, -, ⟨c, hc, -⟩, -⟩ := h (Sample.paymentBody (.arr [])) _ rfl
  cases hc

end Orchestrator
