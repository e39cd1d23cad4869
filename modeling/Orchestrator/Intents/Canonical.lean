import Orchestrator.Common.JsonText
import Orchestrator.Intents.Validation

/-!
# When two requests are the same

The canonical intent of a body and its hash: the hash determines the intent, and the intent the
business fields of the body, unless validation let an array pass for a nested object.

* `CollisionFree`, **`requestHash_injective`**;
* `businessFields`, `nestedFields`, `Carries`, `transform_carries`: what an accepted body holds;
* `Agrees`, `Blurred`, **`canonical_eq_iff`**.
-/

namespace Orchestrator

/-! ## The hash determines the intent -/

section Hash

/-- The hash in uppercase hex tells all texts apart. -/
def Platform.CollisionFree (P : Platform) : Prop :=
  Function.Injective fun s => P.toUpperCase (P.sha256 s)

theorem exactFields_issuedFields (currency issuer value : Option String) :
    ExactFields (issuedFields currency issuer value) := by
  cases currency <;> cases issuer <;> cases value <;>
    simp [issuedFields, optionalField, ExactFields, Json.Exact]

theorem IntentPayload.exact_toJson (payload : IntentPayload) : payload.toJson.Exact := by
  cases payload with
  | payment intent =>
    have hamount : intent.amount.toJson.Exact := by
      cases intent.amount with
      | xrp drops => simp [Amount.toJson, Json.Exact, ExactFields]
      | issuedCurrency currency issuer value =>
        exact ⟨trivial, exactFields_issuedFields currency issuer value⟩
    refine ⟨trivial, trivial, trivial, hamount, ?_, trivial⟩
    cases intent.destinationTag <;> trivial
  | trustSet intent =>
    exact ⟨trivial, trivial, exactFields_issuedFields _ _ _, trivial⟩

/-- Since what is stored is read back, nothing of an intent is lost in its JSON. -/
theorem IntentPayload.toJson_injective {p q : IntentPayload} (h : p.toJson = q.toJson) : p = q := by
  have hp := asIntentPayload_same p (.refl p.toJson)
  have hq := asIntentPayload_same q (.refl q.toJson)
  rw [h, hq] at hp
  exact (Except.ok.inj hp).symm

/-- **Equal hashes, equal intents.** -/
theorem requestHash_injective {P : Platform} (hP : P.CollisionFree) {p q : IntentPayload}
    (h : requestHash P p = requestHash P q) : p = q :=
  IntentPayload.toJson_injective (stringify_injective p.exact_toJson q.exact_toJson (hP h))

end Hash

/-! ## What an accepted body holds -/

section Carries

/-- The fields of the two kinds of request. -/
def businessFields : List String :=
  ["type", "account", "destination", "amount", "destinationTag", "limitAmount"]

/-- The fields of the objects in them. -/
def nestedFields : List String := ["type", "drops", "currency", "issuer", "value"]

/-- Of its business fields the object has exactly these, all of them strings. -/
def Holds (r : Record) (strings : List (String × String)) : Prop :=
  ∀ k ∈ nestedFields, r.get? k = (strings.lookup k).map Json.str

/-- The properties of a validated amount, if it is not an array. -/
def AmountDto.strings : AmountDto → Option (List (String × String))
  | .xrp drops => some [("type", "XRP"), ("drops", drops)]
  | .issuedCurrency currency issuer value => some [("type", "ISSUED_CURRENCY"),
      ("currency", currency), ("issuer", issuer), ("value", value)]
  | .array _ => none

def LimitAmountDto.strings : LimitAmountDto → Option (List (String × String))
  | .object currency issuer value =>
    some [("currency", currency), ("issuer", issuer), ("value", value)]
  | .array _ => none

/-- An object with the given properties, or an array. -/
def Nested (value : Json) : Option (List (String × String)) → Prop
  | some strings => ∃ r, value = .obj r ∧ Holds r strings
  | none => ∃ items, value = .arr items

/-- A property of a body; an absent one reads as null. -/
def field (r : Record) (k : String) : Json := (r.get? k).getD .null

/-- The properties of the body that the request was made from. -/
inductive Carries (r : Record) : CreateIntentDto → Prop
  | payment {account destination amount destinationTag} :
      field r "type" = .str "PAYMENT" → field r "account" = .str account →
      field r "destination" = .str destination → Nested (field r "amount") amount.strings →
      validTag (some (field r "destinationTag")) = some destinationTag →
      field r "limitAmount" = .null →
      Carries r (.payment account destination amount destinationTag)
  | trustSet {account limitAmount} :
      field r "type" = .str "TRUST_SET" → field r "account" = .str account →
      field r "destination" = .null → field r "amount" = .null →
      field r "destinationTag" = .null → Nested (field r "limitAmount") limitAmount.strings →
      Carries r (.trustSet account limitAmount)

/-- No business field is skipped. -/
theorem not_inherited : ∀ k ∈ businessFields ++ nestedFields, k ∉ inheritedNames := by decide

theorem get?_of_instance {r : Record} {k s : String}
    (h : Record.get? (instanceFields r) k = some (.str s)) : r.get? k = some (.str s) := by
  rw [get?_instanceFields] at h
  split_ifs at h
  obtain ⟨v, hv, hs⟩ := Option.map_eq_some_iff.mp h
  rw [hv, plainToInstance_eq_str.mp hs]

theorem get?_none_of_instance {r : Record} {k : String} (hk : k ∈ businessFields ++ nestedFields)
    (h : Record.get? (instanceFields r) k = none) : r.get? k = none := by
  rwa [get?_instanceFields, if_neg (not_inherited k hk), Option.map_eq_none_iff] at h

/-- What validation has seen of an object is what the object holds. -/
theorem Holds.of_instance {r : Record} {strings : List (String × String)}
    (hin : ∀ f ∈ strings, Record.get? (instanceFields r) f.1 = some (.str f.2))
    (hout : ∀ k ∉ strings.map (·.1), Record.get? (instanceFields r) k = none) :
    Holds r strings := by
  intro k hk
  cases hl : strings.lookup k with
  | none =>
    refine get?_none_of_instance (List.mem_append_right _ hk) (hout k fun hmem => ?_)
    obtain ⟨f, hf, rfl⟩ := List.mem_map.mp hmem
    have := List.lookup_eq_none_iff.mp hl f hf
    simp at this
  | some v =>
    obtain ⟨l, l', rfl, -⟩ := List.lookup_eq_some_iff.mp hl
    exact get?_of_instance (hin (k, v) (by simp))

theorem validString_some {valid : String → Bool} {value : Option Json} {s : String}
    (h : validString valid value = some s) : value = some (.str s) := by
  unfold validString at h
  split at h
  · split_ifs at h
    rw [Option.some.inj h]
  · cases h

theorem get?_of_whitelisted {r : Record} {properties : List String}
    (h : whitelisted r properties = true) {k : String} (hk : k ∉ properties) : r.get? k = none := by
  cases hr : r.get? k with
  | none => rfl
  | some v => exact absurd (by simpa using List.all_eq_true.mp h _ (Record.mem_of_get? hr)) hk

theorem field_of_get {r : Record} {k : String} {v : Json} (h : r.get? k = some v) :
    field r k = v := by
  rw [field, h, Option.getD_some]

theorem field_of_whitelisted {r : Record} {properties : List String}
    (h : whitelisted (instanceFields r) properties = true) {k : String} (hk : k ∉ properties)
    (hmem : k ∈ businessFields) : field r k = .null := by
  rw [field, get?_none_of_instance (List.mem_append_left _ hmem) (get?_of_whitelisted h hk),
    Option.getD_none]

variable {P : Platform}

theorem xrpAmountDto_carried {r : Record} {amount : AmountDto}
    (htype : Record.get? (instanceFields r) "type" = some (.str "XRP"))
    (h : xrpAmountDto (instanceFields r) = some amount) : Nested (.obj r) amount.strings := by
  unfold xrpAmountDto at h
  split_ifs at h with hw
  simp only [Option.bind_eq_bind, Option.bind_eq_some_iff, Option.pure_def, Option.some.injEq] at h
  obtain ⟨drops, hdrops, rfl⟩ := h
  refine ⟨r, rfl, .of_instance ?_ fun k hk => get?_of_whitelisted hw hk⟩
  simpa using ⟨htype, validString_some hdrops⟩

theorem issuedAmountDto_carried {r : Record} {amount : AmountDto}
    (htype : Record.get? (instanceFields r) "type" = some (.str "ISSUED_CURRENCY"))
    (h : issuedAmountDto P (instanceFields r) = some amount) :
    Nested (.obj r) amount.strings := by
  unfold issuedAmountDto at h
  split_ifs at h with hw
  simp only [Option.bind_eq_bind, Option.bind_eq_some_iff, Option.pure_def, Option.some.injEq] at h
  obtain ⟨currency, hcurrency, issuer, hissuer, value, hvalue, rfl⟩ := h
  refine ⟨r, rfl, .of_instance ?_ fun k hk => get?_of_whitelisted hw hk⟩
  simpa using ⟨htype, validString_some hcurrency, validString_some hissuer,
    validString_some hvalue⟩

theorem amountObject_carried {r : Record} {amount : AmountDto}
    (h : amountObject P (instanceFields r) = some amount) : Nested (.obj r) amount.strings := by
  unfold amountObject at h
  split at h
  · next htype => exact xrpAmountDto_carried htype h
  · next htype => exact issuedAmountDto_carried htype h
  · cases h

theorem amountDto_carried {value : Option Json} {amount : AmountDto}
    (h : amountDto P (value.map plainToInstance) = some amount) :
    Nested (value.getD .null) amount.strings := by
  cases value with
  | none => cases h
  | some value =>
    cases value with
    | obj r => exact amountObject_carried h
    | arr items =>
      simp only [Option.map_some, plainToInstance, amountDto] at h
      split_ifs at h
      obtain rfl := Option.some.inj h
      exact ⟨_, rfl⟩
    | null | bool | num | dec | str => cases h

theorem limitAmountObject_carried {r : Record} {limitAmount : LimitAmountDto}
    (h : limitAmountObject P (instanceFields r) = some limitAmount) :
    Nested (.obj r) limitAmount.strings := by
  unfold limitAmountObject at h
  split_ifs at h with hw
  simp only [Option.bind_eq_bind, Option.bind_eq_some_iff, Option.pure_def,
    Option.some.injEq] at h
  obtain ⟨currency, hcurrency, issuer, hissuer, limit, hlimit, rfl⟩ := h
  refine ⟨r, rfl, .of_instance ?_ fun k hk => get?_of_whitelisted hw hk⟩
  simpa using ⟨validString_some hcurrency, validString_some hissuer, validString_some hlimit⟩

theorem limitAmountDto_carried {value : Option Json} {limitAmount : LimitAmountDto}
    (h : limitAmountDto P (value.map plainToInstance) = some limitAmount) :
    Nested (value.getD .null) limitAmount.strings := by
  cases value with
  | none => cases h
  | some value =>
    cases value with
    | obj r => exact limitAmountObject_carried h
    | arr items =>
      simp only [Option.map_some, plainToInstance, limitAmountDto] at h
      split_ifs at h
      obtain rfl := Option.some.inj h
      exact ⟨_, rfl⟩
    | null | bool | num | dec | str => cases h

theorem validTag_field {value : Option Json} {destinationTag : Option ℕ}
    (h : validTag (value.map plainToInstance) = some destinationTag) :
    validTag (some (value.getD .null)) = some destinationTag := by
  cases value with
  | none => exact h
  | some value => cases value <;> exact h

/-- A field as validation has seen it. -/
theorem get?_instance {r : Record} {k : String} (hk : k ∈ businessFields) :
    Record.get? (instanceFields r) k = (r.get? k).map plainToInstance := by
  rw [get?_instanceFields, if_neg (not_inherited k (List.mem_append_left _ hk))]

theorem paymentIntentDto_carried {r : Record} {dto : CreateIntentDto}
    (htype : r.get? "type" = some (.str "PAYMENT"))
    (h : paymentIntentDto P (instanceFields r) = some dto) : Carries r dto := by
  unfold paymentIntentDto at h
  split_ifs at h with hw
  simp only [Option.bind_eq_bind, Option.bind_eq_some_iff, Option.pure_def, Option.some.injEq] at h
  obtain ⟨account, haccount, destination, hdestination, amount, hamount, tag, htag, rfl⟩ := h
  rw [get?_instance (by decide)] at hamount htag
  exact .payment (field_of_get htype) (field_of_get (get?_of_instance (validString_some haccount)))
    (field_of_get (get?_of_instance (validString_some hdestination))) (amountDto_carried hamount)
    (validTag_field htag) (field_of_whitelisted hw (by decide) (by decide))

theorem trustSetIntentDto_carried {r : Record} {dto : CreateIntentDto}
    (htype : r.get? "type" = some (.str "TRUST_SET"))
    (h : trustSetIntentDto P (instanceFields r) = some dto) : Carries r dto := by
  unfold trustSetIntentDto at h
  split_ifs at h with hw
  simp only [Option.bind_eq_bind, Option.bind_eq_some_iff, Option.pure_def, Option.some.injEq] at h
  obtain ⟨account, haccount, limitAmount, hlimit, rfl⟩ := h
  rw [get?_instance (by decide)] at hlimit
  have hrest := fun k hk hmem => field_of_whitelisted hw (k := k) hk hmem
  exact .trustSet (field_of_get htype) (field_of_get (get?_of_instance (validString_some haccount)))
    (hrest _ (by decide) (by decide)) (hrest _ (by decide) (by decide))
    (hrest _ (by decide) (by decide)) (limitAmountDto_carried hlimit)

/-- **What an accepted body holds.** -/
theorem transform_carries {body : Json} {dto : CreateIntentDto}
    (h : CreateIntentPipe.transform P body = .ok dto) : ∃ r, body = .obj r ∧ Carries r dto := by
  obtain ⟨r, hr, -, ⟨htype, hd⟩ | ⟨htype, hd⟩⟩ := CreateIntentPipe.transform_ok h
  · exact ⟨r, hr, paymentIntentDto_carried htype hd⟩
  · exact ⟨r, hr, trustSetIntentDto_carried htype hd⟩

end Carries

/-! ## The same request -/

section Agree

/-- The same fields: an absent and a null field are the same. -/
def AgreesOn (ks : List String) (r r' : Record) : Prop := ∀ k ∈ ks, (field r k).Same (field r' k)

/-- The values agree: objects on their business fields, in whatever order, and anything else
altogether. -/
def SameField (x y : Json) : Prop :=
  match x, y with
  | .obj r, .obj r' => AgreesOn nestedFields r r'
  | x, y => x.Same y

/-- The bodies agree on every business field. -/
def Agrees (r r' : Record) : Prop := ∀ k ∈ businessFields, SameField (field r k) (field r' k)

/-- Both bodies have an array for a nested object, not the same one, and agree on the rest. -/
def Blurred (r r' : Record) : Prop :=
  ∃ k ∈ ["amount", "limitAmount"], ∃ items items', field r k = .arr items ∧
    field r' k = .arr items' ∧ ¬ (field r k).Same (field r' k) ∧
    ∀ m ∈ businessFields, m ≠ k → SameField (field r m) (field r' m)

/-- The canonical intent tells the two values apart only if one of them is no array. -/
def Like (x y : Json) : Prop := SameField x y ∨ ∃ items items', x = .arr items ∧ y = .arr items'

@[simp] theorem same_str {s t : String} : (Json.str s).Same (.str t) ↔ s = t := by
  refine ⟨fun h => ?_, fun h => h ▸ .str s⟩
  cases h
  rfl

theorem not_same_obj_arr {r : Record} {items : List Json} : ¬ SameField (.obj r) (.arr items) := by
  rintro ⟨⟩

theorem not_same_arr_obj {r : Record} {items : List Json} : ¬ SameField (.arr items) (.obj r) := by
  rintro ⟨⟩

@[simp] theorem sameField_str {s t : String} : SameField (.str s) (.str t) ↔ s = t := same_str

@[simp] theorem sameField_null : SameField .null .null := .null

theorem Holds.agreesOn_iff {r r' : Record} {l l' : List (String × String)} (h : Holds r l)
    (h' : Holds r' l') :
    AgreesOn nestedFields r r' ↔ ∀ k ∈ nestedFields, l.lookup k = l'.lookup k := by
  refine forall₂_congr fun k hk => ?_
  rw [field, field, h k hk, h' k hk]
  cases l.lookup k with
  | none =>
    cases l'.lookup k with
    | none => exact ⟨fun _ => rfl, fun _ => .null⟩
    | some v' => exact ⟨fun hs => (by cases hs), fun he => (by cases he)⟩
  | some v =>
    cases l'.lookup k with
    | none => exact ⟨fun hs => (by cases hs), fun he => (by cases he)⟩
    | some v' => simp

theorem like_iff {x y : Json} {o o' : Option (List (String × String))} (h : Nested x o)
    (h' : Nested y o') :
    Like x y ↔ ∀ k ∈ nestedFields, o.map (·.lookup k) = o'.map (·.lookup k) := by
  have htype : "type" ∈ nestedFields := by decide
  cases o with
  | none =>
    obtain ⟨items, rfl⟩ := h
    cases o' with
    | none =>
      obtain ⟨items', rfl⟩ := h'
      exact ⟨fun _ _ _ => rfl, fun _ => .inr ⟨_, _, rfl, rfl⟩⟩
    | some l' =>
      obtain ⟨r', rfl, hr'⟩ := h'
      refine ⟨?_, fun hl => absurd (hl _ htype) (by simp)⟩
      rintro (hs | ⟨_, _, -, hy⟩)
      · exact absurd hs not_same_arr_obj
      · cases hy
  | some l =>
    obtain ⟨r, rfl, hr⟩ := h
    cases o' with
    | none =>
      obtain ⟨items', rfl⟩ := h'
      refine ⟨?_, fun hl => absurd (hl _ htype) (by simp)⟩
      rintro (hs | ⟨_, _, hx, -⟩)
      · exact absurd hs not_same_obj_arr
      · cases hx
    | some l' =>
      obtain ⟨r', rfl, hr'⟩ := h'
      simp only [Option.map_some, Option.some.injEq]
      rw [← hr.agreesOn_iff hr']
      refine ⟨fun hl => hl.resolve_right ?_, .inl⟩
      rintro ⟨_, _, hx, -⟩
      cases hx

theorem AmountDto.canonical_eq_iff (a b : AmountDto) : a.canonical = b.canonical ↔
    ∀ k ∈ nestedFields, a.strings.map (·.lookup k) = b.strings.map (·.lookup k) := by
  constructor
  · intro h k _
    cases a <;> cases b <;> simp_all [canonical, strings]
  · intro h
    cases a <;> cases b <;> simp only [strings, Option.map_some, Option.map_none, reduceCtorEq,
      Option.some.injEq, canonical] at h ⊢
    case xrp.xrp => simpa [List.lookup] using h "drops" (by decide)
    case xrp.issuedCurrency => exact absurd (h "type" (by decide)) (by simp [List.lookup])
    case issuedCurrency.xrp => exact absurd (h "type" (by decide)) (by simp [List.lookup])
    case issuedCurrency.issuedCurrency =>
      have h1 := h "currency" (by decide)
      have h2 := h "issuer" (by decide)
      have h3 := h "value" (by decide)
      simp_all [List.lookup]
    all_goals exact absurd (by decide) (h "type")

theorem LimitAmountDto.canonical_eq_iff (a b : LimitAmountDto) : a.canonical = b.canonical ↔
    ∀ k ∈ nestedFields, a.strings.map (·.lookup k) = b.strings.map (·.lookup k) := by
  constructor
  · intro h k _
    cases a <;> cases b <;> simp_all [canonical, strings]
  · intro h
    cases a <;> cases b <;> simp only [strings, Option.map_some, Option.map_none, reduceCtorEq,
      Option.some.injEq, canonical] at h ⊢
    case object.object =>
      have h1 := h "currency" (by decide)
      have h2 := h "issuer" (by decide)
      have h3 := h "value" (by decide)
      simp_all [List.lookup]
    all_goals exact absurd (by decide) (h "type")

theorem validTag_some {x : Json} {t : Option ℕ} (h : validTag (some x) = some t) :
    (x = .null ∧ t = none) ∨ ∃ n : ℕ, x = .num n ∧ t = some n := by
  unfold validTag at h
  split at h
  · cases ‹some x = none›
  · next hx => exact .inl ⟨Option.some.inj hx, (Option.some.inj h).symm⟩
  · next n hx =>
    split_ifs at h with hn
    obtain ⟨m, rfl⟩ := Int.eq_ofNat_of_zero_le hn.1
    exact .inr ⟨m, Option.some.inj hx, (Option.some.inj h).symm⟩
  · cases h

theorem validTag_same_iff {x y : Json} {t t' : Option ℕ} (h : validTag (some x) = some t)
    (h' : validTag (some y) = some t') : SameField x y ↔ t = t' := by
  rcases validTag_some h with ⟨rfl, rfl⟩ | ⟨n, rfl, rfl⟩ <;>
    rcases validTag_some h' with ⟨rfl, rfl⟩ | ⟨m, rfl, rfl⟩
  · exact ⟨fun _ => rfl, fun _ => .null⟩
  · exact ⟨fun hs => (by cases hs), fun ht => (by cases ht)⟩
  · exact ⟨fun hs => (by cases hs), fun ht => (by cases ht)⟩
  · refine ⟨fun hs => ?_, fun ht => ?_⟩
    · cases hs
      rfl
    · obtain rfl := Option.some.inj ht
      exact .num n

/-- The values of a field as far as the canonical intent shows them. -/
def LikeField (r r' : Record) (k : String) : Prop :=
  if k ∈ ["amount", "limitAmount"] then Like (field r k) (field r' k)
  else SameField (field r k) (field r' k)

theorem likeField_of_same {r r' : Record} {k : String} (h : SameField (field r k) (field r' k)) :
    LikeField r r' k := by
  unfold LikeField
  split_ifs
  · exact .inl h
  · exact h

theorem likeFields_iff {r r' : Record} : (∀ k ∈ businessFields, LikeField r r' k) ↔
    SameField (field r "type") (field r' "type") ∧
    SameField (field r "account") (field r' "account") ∧
    SameField (field r "destination") (field r' "destination") ∧
    Like (field r "amount") (field r' "amount") ∧
    SameField (field r "destinationTag") (field r' "destinationTag") ∧
    Like (field r "limitAmount") (field r' "limitAmount") := by
  simp [businessFields, LikeField]

theorem like_null : Like .null .null := .inl .null

/-- **Field by field**: the canonical intents are equal if and only if the bodies agree on every
field, any two arrays in the place of a nested object being taken for the same. -/
theorem canonical_eq_iff_like {r r' : Record} {d d' : CreateIntentDto} (h : Carries r d)
    (h' : Carries r' d') :
    toCanonicalIntent d = toCanonicalIntent d' ↔ ∀ k ∈ businessFields, LikeField r r' k := by
  rw [likeFields_iff]
  cases h with
  | @payment account destination amount tag htype haccount hdestination hamount htag hlimit =>
    cases h' with
    | @payment account' destination' amount' tag' htype' haccount' hdestination' hamount' htag'
        hlimit' =>
      have key : toCanonicalIntent (.payment account destination amount tag) =
          toCanonicalIntent (.payment account' destination' amount' tag') ↔
          account = account' ∧ destination = destination' ∧
            amount.canonical = amount'.canonical ∧ tag = tag' := by
        simp [toCanonicalIntent]
      rw [key, AmountDto.canonical_eq_iff, ← like_iff hamount hamount',
        ← validTag_same_iff htag htag', htype, htype', haccount, haccount', hdestination,
        hdestination', hlimit, hlimit']
      simp [like_null]
    | trustSet htype' =>
      rw [htype, htype', sameField_str]
      exact ⟨fun he => (by cases he), fun hs => absurd hs.1 (by decide)⟩
  | @trustSet account limitAmount htype haccount hdestination hamount htag hlimit =>
    cases h' with
    | payment htype' =>
      rw [htype, htype', sameField_str]
      exact ⟨fun he => (by cases he), fun hs => absurd hs.1 (by decide)⟩
    | @trustSet account' limitAmount' htype' haccount' hdestination' hamount' htag' hlimit' =>
      have key : toCanonicalIntent (.trustSet account limitAmount) =
          toCanonicalIntent (.trustSet account' limitAmount') ↔
          account = account' ∧ limitAmount.canonical = limitAmount'.canonical := by
        simp [toCanonicalIntent]
      rw [key, LimitAmountDto.canonical_eq_iff, ← like_iff hlimit hlimit', htype, htype', haccount,
        haccount', hdestination, hdestination', hamount, hamount', htag, htag']
      simp [like_null]

/-- A body has one of the two nested objects. -/
theorem Carries.other_null {r : Record} {d : CreateIntentDto} (h : Carries r d) :
    field r "amount" = .null ∨ field r "limitAmount" = .null := by
  cases h with
  | payment _ _ _ _ _ hlimit => exact .inr hlimit
  | trustSet _ _ _ hamount _ _ => exact .inl hamount

/-- **When two accepted bodies have the same canonical intent.** -/
theorem canonical_eq_iff {r r' : Record} {d d' : CreateIntentDto} (h : Carries r d)
    (h' : Carries r' d') :
    toCanonicalIntent d = toCanonicalIntent d' ↔ Agrees r r' ∨ Blurred r r' := by
  rw [canonical_eq_iff_like h h']
  constructor
  · intro hl
    by_cases ha : Agrees r r'
    · exact .inl ha
    simp only [Agrees, not_forall] at ha
    obtain ⟨k, hbusiness, hk⟩ := ha
    have hlk := hl k hbusiness
    unfold LikeField at hlk
    split_ifs at hlk with hmem
    · obtain ⟨items, items', hx, hy⟩ := hlk.resolve_left hk
      refine .inr ⟨k, hmem, items, items', hx, hy, ?_, fun m hm hne => ?_⟩
      · rwa [hx, hy] at hk ⊢
      have hlm := hl m hm
      unfold LikeField at hlm
      split_ifs at hlm with hmem'
      · -- the other of the two, which neither body has
        have hnull : field r m = .null ∧ field r' m = .null := by
          have h1 := h.other_null
          have h2 := h'.other_null
          simp only [List.mem_cons, List.not_mem_nil, or_false] at hmem hmem'
          rcases hmem with rfl | rfl <;> rcases hmem' with rfl | rfl <;> simp_all
        rw [hnull.1, hnull.2]
        exact .null
      · exact hlm
    · exact absurd hlk hk
  · rintro (ha | ⟨k, hmem, items, items', hx, hy, -, hrest⟩) m hm
    · exact likeField_of_same (ha m hm)
    · by_cases hne : m = k
      · rw [hne, LikeField, if_pos hmem]
        exact .inr ⟨items, items', hx, hy⟩
      · exact likeField_of_same (hrest m hm hne)

theorem not_agrees_of_blurred {r r' : Record} (h : Blurred r r') : ¬ Agrees r r' := by
  obtain ⟨k, hk, items, items', hx, hy, hne, -⟩ := h
  intro ha
  have hbusiness : k ∈ businessFields := by
    rcases List.mem_pair.mp hk with rfl | rfl <;> decide
  have hs := ha k hbusiness
  rw [hx, hy] at hne hs
  exact hne hs

end Agree

end Orchestrator
