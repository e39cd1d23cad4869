import Orchestrator.Common.JsonText
import Orchestrator.Runtime.Schedules

/-!
# What a simulation is compared for

The meaning of a transaction is what the codec makes of each of its fields, with the amount of a
payment under either of its names and without what a server adds. The comparison goes through
`toCanonicalForm`, which tells two spellings of the amount apart by their text.

* `FieldCode`, `EncodesFields`: a codec, field by field;
* `givenValues`, `codes`, `Denotes`, `SameTransaction`: the meaning of a transaction;
* `Respelled`: the two names of an amount with different texts of one value;
* `Recast`, `codes_recast`: keys reordered, values respelled, the amount renamed;
* **`simulation_semantic`**: the comparison is that of meanings, but for a respelled amount.
-/

namespace Orchestrator

/-- What the codec makes of a value; nothing if it does not know the field or the value. -/
abbrev FieldCode := String → Json → Option String

/-- A field as the codec sees it. -/
def coded (code : FieldCode) (r : Record) (k : String) : Option String := (r.get? k).bind (code k)

/-- The codec encodes exactly the objects whose fields it knows, tells two of them apart exactly if
it tells a field apart, and does not see the order of keys. -/
structure EncodesFields (P : Platform) (code : FieldCode) : Prop where
  encodable : ∀ r, (∃ blob, P.encode r = .ok blob) ↔
    ∀ k v, Record.get? r k = some v → (code k v).isSome
  injective : ∀ r r' blob blob', P.encode r = .ok blob → P.encode r' = .ok blob' →
    (blob = blob' ↔ ∀ k, coded code r k = coded code r' k)
  same : ∀ k v v', Json.Same v v' → code k v = code k v'

/-- What a server adds to a transaction that it echoes. -/
def addedFields : List String := ["SigningPubKey", "TxnSignature", "hash"]

def isPayment (r : Record) : Prop := r.get? "TransactionType" = some (.str "Payment")

instance (r : Record) : Decidable (isPayment r) := inferInstanceAs (Decidable (_ = _))

/-- The values that a transaction gives for a field, the amount of a payment under either name. -/
def givenValues (r : Record) (k : String) : List Json :=
  if k ∈ addedFields then []
  else if isPayment r ∧ k = "DeliverMax" then []
  else if isPayment r ∧ k = "Amount" then
    (r.get? "Amount").toList ++ (r.get? "DeliverMax").toList
  else (r.get? k).toList

variable (code : FieldCode)

/-- What the codec makes of the values that are given for a field. -/
def codes (r : Record) (k : String) : Set (Option String) :=
  {c | ∃ v ∈ givenValues r k, code k v = c}

/-- The transaction gives one value of each field that `meaning` has, and no others. -/
def Denotes (r : Record) (meaning : String → Option String) : Prop :=
  ∀ k, codes code r k = {c | c.isSome = true ∧ c = meaning k}

/-- Both denote the same transaction to the codec. -/
def SameTransaction (r r' : Record) : Prop :=
  ∃ meaning, Denotes code r meaning ∧ Denotes code r' meaning

/-- A payment with one value of its amount under both names, in two spellings. -/
def Respelled (r : Record) : Prop :=
  isPayment r ∧ ∃ a d, r.get? "Amount" = some a ∧ r.get? "DeliverMax" = some d ∧
    code "Amount" a = code "Amount" d ∧ sameText a d = false

variable {code}

/-! ## The canonical form gives the values -/

/-- `const { SigningPubKey, TxnSignature, hash, ...comparable } = transaction`. -/
def comparable (transaction : Record) : Record :=
  ((transaction.remove "SigningPubKey").remove "TxnSignature").remove "hash"

theorem get?_comparable (r : Record) (k : String) :
    (comparable r).get? k = if k ∈ addedFields then none else r.get? k := by
  simp only [comparable, Record.get?_remove, addedFields, List.mem_cons, List.not_mem_nil, or_false]
  by_cases h1 : k = "SigningPubKey"
  · simp [h1]
  · by_cases h2 : k = "TxnSignature"
    · simp [h2]
    · simp [h1, h2]

/-- What the canonical form is made of, and the only way it is refused. -/
theorem toCanonicalForm_cases (r : Record) :
    (toCanonicalForm r = .ok r ∧ (isPayment r → r.get? "DeliverMax" = none)) ∨
    (isPayment r ∧ ∃ d, r.get? "DeliverMax" = some d ∧
      ((toCanonicalForm r = .ok ((r.remove "DeliverMax").set "Amount" d) ∧
          ∀ a, r.get? "Amount" = some a → a = d) ∨
        (∃ message, toCanonicalForm r = .error message) ∧
          ∃ a, r.get? "Amount" = some a ∧ sameText a d = false)) := by
  by_cases hp : isPayment r
  · have hp' : r.get? "TransactionType" = some (.str "Payment") := hp
    cases hd : r.get? "DeliverMax" with
    | none => exact .inl ⟨by simp [toCanonicalForm, hd], fun _ => rfl⟩
    | some d =>
      refine .inr ⟨hp, d, rfl, ?_⟩
      have hr : (r.remove "DeliverMax").get? "Amount" = r.get? "Amount" := by
        rw [Record.get?_remove, if_neg (by simp)]
      cases ha : r.get? "Amount" with
      | none => exact .inl ⟨by simp [toCanonicalForm, hp', hd, hr, ha], by simp⟩
      | some a =>
        cases ht : sameText a d with
        | true =>
          refine .inl ⟨by simp [toCanonicalForm, hp', hd, hr, ha, ht], fun a' h => ?_⟩
          exact Option.some.inj h ▸ of_decide_eq_true ht
        | false => exact .inr ⟨⟨_, by simp [toCanonicalForm, hp', hd, hr, ha, ht]; rfl⟩, a, rfl, ht⟩
  · exact .inl ⟨if_pos hp, fun h => absurd h hp⟩

/-- **The canonical form** has the values that the transaction gives. -/
theorem mem_givenValues {r c : Record} (h : toCanonicalForm r = .ok c) (k : String) (v : Json) :
    v ∈ givenValues r k ↔ (comparable c).get? k = some v := by
  rw [get?_comparable, givenValues]
  split
  · simp
  · obtain ⟨hr, hd⟩ | ⟨hp, d, hd, ⟨hr, ha⟩ | ⟨⟨_, hr⟩, -⟩⟩ := toCanonicalForm_cases r
    · obtain rfl := Except.ok.inj (hr.symm.trans h)
      split_ifs with h1 h2
      · simp [h1.2, hd h1.1]
      · simp [h2.2, hd h2.1]
      · simp
    · obtain rfl := Except.ok.inj (hr.symm.trans h)
      rw [get?_canonical]
      by_cases h1 : k = "DeliverMax"
      · simp [hp, h1]
      · by_cases h2 : k = "Amount"
        · subst h2
          cases hA : r.get? "Amount" with
          | none => simp [hp, hd, eq_comm]
          | some a => simp [hp, hd, ha a hA, eq_comm]
        · simp [h1, h2]
    · cases hr.symm.trans h

variable {P : Platform}

/-- What a transaction with a canonical form denotes. -/
theorem denotes_iff {r c : Record} (h : toCanonicalForm r = .ok c) (meaning : String → Option String) :
    Denotes code r meaning ↔ (∀ k v, (comparable c).get? k = some v → (code k v).isSome) ∧
      meaning = coded code (comparable c) := by
  have hcodes (k : String) : codes code r k =
      {x | ∃ v, (comparable c).get? k = some v ∧ code k v = x} := by
    ext x
    simp only [codes, Set.mem_ofPred_eq, mem_givenValues h]
  constructor
  · intro hd
    have hsome : ∀ k v, (comparable c).get? k = some v → code k v = meaning k ∧ (code k v).isSome := by
      intro k v hv
      have hmem : code k v ∈ codes code r k := by
        rw [hcodes]
        exact ⟨v, hv, rfl⟩
      rw [hd k] at hmem
      exact ⟨hmem.2, hmem.1⟩
    refine ⟨fun k v hv => (hsome k v hv).2, funext fun k => ?_⟩
    rw [coded]
    cases hv : (comparable c).get? k with
    | some v => exact (hsome k v hv).1.symm
    | none =>
      have hempty : codes code r k = ∅ := by simp [hcodes, hv]
      rw [hd k] at hempty
      cases hm : meaning k with
      | none => rfl
      | some x => exact absurd (hempty.subset ⟨rfl, hm.symm⟩ : some x ∈ (∅ : Set _)) (by simp)
  · rintro ⟨hall, rfl⟩ k
    rw [hcodes]
    ext x
    simp only [Set.mem_ofPred_eq, coded]
    cases hv : (comparable c).get? k with
    | none => cases x <;> simp
    | some v =>
      have hs := hall k v hv
      simp only [Option.some.injEq, exists_eq_left', Option.bind_some]
      exact ⟨fun hx => ⟨hx ▸ hs, hx.symm⟩, fun hx => hx.2.symm⟩

/-- A transaction without a canonical form denotes nothing, unless its amount is respelled. -/
theorem not_denotes {r : Record} {message : String} (h : toCanonicalForm r = .error message)
    (hr : ¬ Respelled code r) (meaning : String → Option String) : ¬ Denotes code r meaning := by
  intro hd
  obtain ⟨hok, -⟩ | ⟨hp, d, hdm, ⟨hok, -⟩ | ⟨-, a, ha, ht⟩⟩ := toCanonicalForm_cases r
  · cases hok.symm.trans h
  · cases hok.symm.trans h
  · have hmem : ∀ v ∈ givenValues r "Amount", code "Amount" v = meaning "Amount" := by
      intro v hv
      have hc : code "Amount" v ∈ codes code r "Amount" := ⟨v, hv, rfl⟩
      rw [hd "Amount"] at hc
      exact hc.2
    have hvals : givenValues r "Amount" = [a, d] := by
      simp [givenValues, addedFields, hp, ha, hdm]
    rw [hvals] at hmem
    exact hr ⟨hp, a, d, ha, hdm, (hmem a (by simp)).trans (hmem d (by simp)).symm, ht⟩

/-! ## The comparison -/

theorem matches_iff (a b : Record) : simulationMatchesPrepared P a (some b) = true ↔
    ∃ c c' blob, toCanonicalForm a = .ok c ∧ toCanonicalForm b = .ok c' ∧
      P.encode (comparable c) = .ok blob ∧ P.encode (comparable c') = .ok blob := by
  have hc (t : Record) : encodeComparableTransaction P t = P.encode (comparable t) := rfl
  simp only [simulationMatchesPrepared]
  constructor
  · intro h
    split at h
    next blob blob' hblob hblob' =>
      obtain ⟨c, hca, hca'⟩ := Except.bind_eq_ok.mp hblob
      obtain ⟨c', hcb, hcb'⟩ := Except.bind_eq_ok.mp hblob'
      obtain rfl := eq_of_beq h
      exact ⟨c, c', blob, hca, hcb, hc c ▸ hca', hc c' ▸ hcb'⟩
    next => cases h
  · rintro ⟨c, c', blob, hca, hcb, hblob, hblob'⟩
    rw [Except.bind_eq_ok.mpr ⟨c, hca, hblob⟩, Except.bind_eq_ok.mpr ⟨c', hcb, hblob'⟩]
    exact beq_self_eq_true blob

/-- **The comparison is that of meanings**, for amounts that are not respelled. -/
theorem matches_iff_same (hP : EncodesFields P code) {a b : Record} (ha : ¬ Respelled code a)
    (hb : ¬ Respelled code b) :
    simulationMatchesPrepared P a (some b) = true ↔ SameTransaction code a b := by
  rw [matches_iff]
  constructor
  · rintro ⟨c, c', blob, hca, hcb, hblob, hblob'⟩
    have hcoded : coded code (comparable c) = coded code (comparable c') :=
      funext ((hP.injective _ _ _ _ hblob hblob').mp rfl)
    exact ⟨coded code (comparable c),
      (denotes_iff hca _).mpr ⟨(hP.encodable _).mp ⟨blob, hblob⟩, rfl⟩,
      (denotes_iff hcb _).mpr ⟨(hP.encodable _).mp ⟨blob, hblob'⟩, hcoded⟩⟩
  · rintro ⟨meaning, hda, hdb⟩
    cases hca : toCanonicalForm a with
    | error message => exact absurd hda (not_denotes hca ha meaning)
    | ok c => cases hcb : toCanonicalForm b with
      | error message => exact absurd hdb (not_denotes hcb hb meaning)
      | ok c' =>
        obtain ⟨hsome, hm⟩ := (denotes_iff hca meaning).mp hda
        obtain ⟨hsome', hm'⟩ := (denotes_iff hcb meaning).mp hdb
        obtain ⟨blob, hblob⟩ := (hP.encodable _).mpr hsome
        obtain ⟨blob', hblob'⟩ := (hP.encodable _).mpr hsome'
        have heq : blob = blob' :=
          (hP.injective _ _ _ _ hblob hblob').mpr (congrFun (hm.symm.trans hm'))
        exact ⟨c, c', blob, rfl, rfl, hblob, heq ▸ hblob'⟩

/-- A respelled amount counts as a difference. -/
theorem matches_respelled {b : Record} (hb : Respelled code b) (a : Record) :
    simulationMatchesPrepared P a (some b) = false := by
  obtain ⟨hp, x, d, hx, hd, -, ht⟩ := hb
  refine Bool.eq_false_iff.mpr fun h => ?_
  obtain ⟨_, c', _, -, hcb, -⟩ := (matches_iff a b).mp h
  obtain ⟨-, hnone⟩ | ⟨-, d', hd', ⟨-, heq⟩ | ⟨⟨_, herr⟩, -⟩⟩ := toCanonicalForm_cases b
  · cases hd.symm.trans (hnone hp)
  · obtain rfl := Option.some.inj (hd.symm.trans hd')
    exact of_decide_eq_false ht (heq x hx)
  · cases herr.symm.trans hcb

/-- Transactions with the same codes denote the same. -/
theorem SameTransaction.congr {a b b' : Record} (h : codes code b = codes code b') :
    SameTransaction code a b ↔ SameTransaction code a b' := by
  simp only [SameTransaction, Denotes, h]

theorem SameTransaction.codes_eq {a b : Record} (h : SameTransaction code a b) :
    codes code a = codes code b := by
  obtain ⟨meaning, ha, hb⟩ := h
  exact funext fun k => (ha k).trans (hb k).symm

/-! ## Changes that the codec does not see -/

/-- The field that the codec takes a name for. -/
def codedName (r : Record) (k : String) : String :=
  if isPayment r ∧ k = "DeliverMax" then "Amount" else k

theorem givenValues_same {r r' : Record} (h : r.Same r') {k : String} {v : Json}
    (hv : v ∈ givenValues r k) : ∃ v' ∈ givenValues r' k, v.Same v' := by
  have hp : isPayment r ↔ isPayment r' := ⟨h.get_str, fun hr => Record.Same.get_str h.symm hr⟩
  have hget (k : String) (hv : v ∈ (r.get? k).toList) : ∃ v' ∈ (r'.get? k).toList, v.Same v' := by
    obtain ⟨v', hv', hs⟩ := h.get (Option.mem_toList.mp hv)
    exact ⟨v', Option.mem_toList.mpr hv', hs⟩
  simp only [givenValues, hp] at hv ⊢
  split_ifs at hv ⊢ with h1 h2 h3
  · cases hv
  · cases hv
  · obtain hv | hv := List.mem_append.mp hv
    · obtain ⟨v', hv', hs⟩ := hget "Amount" hv
      exact ⟨v', List.mem_append_left _ hv', hs⟩
    · obtain ⟨v', hv', hs⟩ := hget "DeliverMax" hv
      exact ⟨v', List.mem_append_right _ hv', hs⟩
  · exact hget k hv

/-- Keys reordered at any depth. -/
theorem codes_same (hP : EncodesFields P code) {r r' : Record} (h : r.Same r') :
    codes code r = codes code r' := by
  have key {r r' : Record} (h : r.Same r') (k : String) : codes code r k ⊆ codes code r' k := by
    rintro _ ⟨v, hv, rfl⟩
    obtain ⟨v', hv', hs⟩ := givenValues_same h hv
    exact ⟨v', hv', (hP.same k v v' hs).symm⟩
  exact funext fun k => (key h k).antisymm (key h.symm k)

/-- A value in another spelling. -/
theorem codes_set {r : Record} {k : String} {v v' : Json} (hr : r.get? k = some v)
    (hcode : code (codedName r k) v = code (codedName r k) v') (hk : k ≠ "TransactionType") :
    codes code (r.set k v') = codes code r := by
  have hp : isPayment (r.set k v') ↔ isPayment r := by
    rw [isPayment, isPayment, Record.get?_set, if_neg (Ne.symm hk)]
  funext m
  ext c
  simp only [codes, givenValues, hp, Record.get?_set, Set.mem_ofPred_eq]
  by_cases hd : isPayment r ∧ k = "DeliverMax"
  · -- the codec takes it for the amount
    obtain ⟨hpay, rfl⟩ := hd
    rw [codedName, if_pos ⟨hpay, rfl⟩] at hcode
    by_cases ha : m = "Amount"
    · subst ha
      simp [hr, hcode, hpay, addedFields, or_and_right, exists_or]
    · by_cases hm : m = "DeliverMax" <;> simp [hm, ha, hpay]
  · rw [codedName, if_neg hd] at hcode
    by_cases hm : m = k
    · subst hm
      by_cases ha : m = "Amount"
      · subst ha
        by_cases hpay : isPayment r <;>
          simp [hr, hcode, hpay, addedFields, or_and_right, exists_or]
      · simp [hr, hcode, ha]
    · by_cases hpay : isPayment r
      · have hkd : k ≠ "DeliverMax" := fun h => hd ⟨hpay, h⟩
        by_cases hka : k = "Amount"
        · subst hka
          simp [hm]
        · simp [hm, Ne.symm hkd, Ne.symm hka]
      · simp [hm, hpay]

/-- The amount of a payment under the other name, or under both. -/
theorem codes_renamed {r : Record} {a d : Json} (hr : isPayment r)
    (hd : r.get? "DeliverMax" = some d) (ha : r.get? "Amount" = none)
    (hcode : code "Amount" a = code "Amount" d) :
    codes code ((r.remove "DeliverMax").set "Amount" a) = codes code r ∧
      codes code (r.set "Amount" a) = codes code r := by
  have hp : isPayment ((r.remove "DeliverMax").set "Amount" a) := by
    rw [isPayment, get?_canonical]
    exact hr
  have hp' : isPayment (r.set "Amount" a) := by
    rw [isPayment, Record.get?_set]
    exact hr
  constructor
  all_goals
    funext m
    ext c
    simp only [codes, givenValues, hp, hp', hr, Record.get?_set, Record.get?_remove,
      Set.mem_ofPred_eq]
    by_cases hm : m = "Amount"
    · subst hm
      simp [hd, ha, hcode, addedFields]
    · by_cases hm' : m = "DeliverMax" <;> simp [hm, hm']

variable (code) in
/-- **A change that the codec does not see**: keys reordered at any depth, a value in another
spelling, the amount of a payment as `Amount` instead of `DeliverMax`, or as both. -/
inductive Recast : Record → Record → Prop
  | reordered {r r' : Record} : r.Same r' → Recast r r'
  | respelled {r : Record} {k : String} {v v' : Json} : r.get? k = some v →
      code (codedName r k) v = code (codedName r k) v' → k ≠ "TransactionType" →
      Recast r (r.set k v')
  | renamed {r : Record} {a d : Json} : isPayment r → r.get? "DeliverMax" = some d →
      r.get? "Amount" = none → code "Amount" a = code "Amount" d →
      Recast r ((r.remove "DeliverMax").set "Amount" a)
  | doubled {r : Record} {a d : Json} : isPayment r → r.get? "DeliverMax" = some d →
      r.get? "Amount" = none → code "Amount" a = code "Amount" d → Recast r (r.set "Amount" a)

theorem Recast.codes_eq (hP : EncodesFields P code) {r r' : Record} (h : Recast code r r') :
    codes code r = codes code r' := by
  cases h with
  | reordered h => exact codes_same hP h
  | respelled hr hcode hk => exact (codes_set hr hcode hk).symm
  | renamed hr hd ha hcode => exact (codes_renamed hr hd ha hcode).1.symm
  | doubled hr hd ha hcode => exact (codes_renamed hr hd ha hcode).2.symm

/-- Any number of such changes, in either direction. -/
theorem codes_recast (hP : EncodesFields P code) {r r' : Record}
    (h : Relation.EqvGen (Recast code) r r') : codes code r = codes code r' := by
  induction h with
  | rel _ _ h => exact h.codes_eq hP
  | refl => rfl
  | symm _ _ _ ih => exact ih.symm
  | trans _ _ _ _ _ ih ih' => exact ih.trans ih'

/-! ## The answer -/

/-- **Simulation comparison is semantic**, but for a respelled amount: the answer is whether the
echo denotes the prepared transaction, exactly unless it does and has its amount under both names
in two spellings. It depends on the codes of the echo only: it does not change when keys are
reordered, values respelled or the amount renamed. And a field with another code than the prepared
one, one more field or one less makes it false. -/
theorem simulation_semantic (P : Platform) (code : FieldCode) (hP : EncodesFields P code)
    (intent : IntentPayload) (params : PreparationParams) (prepared : Record)
    (hprep : Record.Same (buildTransaction intent params) prepared) (echo : Record) :
    ((simulationMatchesPrepared P prepared (some echo) = true ↔
        SameTransaction code prepared echo) ↔
      ¬ (Respelled code echo ∧ SameTransaction code prepared echo)) ∧
    (∀ echo', ¬ Respelled code echo → ¬ Respelled code echo' →
      codes code echo = codes code echo' →
      simulationMatchesPrepared P prepared (some echo) =
        simulationMatchesPrepared P prepared (some echo')) ∧
    (∀ echo', ¬ Respelled code echo → ¬ Respelled code echo' →
      Relation.EqvGen (Recast code) echo echo' →
      simulationMatchesPrepared P prepared (some echo) =
        simulationMatchesPrepared P prepared (some echo')) ∧
    ∀ k, codes code echo k ≠ codes code prepared k →
      simulationMatchesPrepared P prepared (some echo) = false := by
  have hamount : prepared.get? "Amount" = none :=
    hprep.get_none (buildTransaction_get intent params).2.2.2.2
  have hplain : ¬ Respelled code prepared := by
    rintro ⟨-, a, -, ha, -⟩
    cases hamount.symm.trans ha
  have same (echo' : Record) (he : ¬ Respelled code echo) (he' : ¬ Respelled code echo')
      (hcodes : codes code echo = codes code echo') : simulationMatchesPrepared P prepared
        (some echo) = simulationMatchesPrepared P prepared (some echo') := by
    rw [Bool.eq_iff_iff, matches_iff_same hP hplain he, matches_iff_same hP hplain he']
    exact SameTransaction.congr hcodes
  refine ⟨?_, same, fun echo' he he' h => same echo' he he' (codes_recast hP h),
    fun k hk => Bool.eq_false_iff.mpr fun h => ?_⟩
  · by_cases he : Respelled code echo
    · simp [he, matches_respelled he prepared]
    · simp [he, matches_iff_same hP hplain he]
  · have he : ¬ Respelled code echo := fun he => by
      rw [matches_respelled he prepared] at h
      cases h
    exact hk (congrFun ((matches_iff_same hP hplain he).mp h).codes_eq k).symm

/-! ## A codec of fields -/

namespace Sample

def codecFields : List String :=
  ["TransactionType", "Account", "Destination", "Amount", "DestinationTag", "LimitAmount", "Flags",
    "Fee", "Sequence", "LastLedgerSequence", "NetworkID"]

/-- A decimal without the zeros that end its fraction. -/
def plain (value : String) : String :=
  if value.toList.contains '.' then
    String.ofList ((value.toList.reverse.dropWhile (· == '0')).dropWhile (· == '.')).reverse
  else value

/-- Strings and numbers are what they are; an issued amount is known by its three components. -/
def fieldCode : FieldCode := fun k v =>
  if k ∈ codecFields then
    match v with
    | .str s => some s
    | .num n => some (toString n)
    | .obj r =>
      (readStr r "currency").bind fun currency =>
        (readStr r "issuer").bind fun issuer =>
          (readStr r "value").map fun value => currency ++ "/" ++ issuer ++ "/" ++ plain value
    | _ => none
  else none

/-- The code of a field as a JSON value. -/
def codeJson (r : Record) (k : String) : Json := ((coded fieldCode r k).map Json.str).getD .null

/-- The codes of all fields, as one text. -/
def fieldsText (r : Record) : String := (Json.arr (codecFields.map (codeJson r))).stringify

def encodeFieldwise (r : Record) : Except String String :=
  if r.all fun f => (coded fieldCode r f.1).isSome then .ok (fieldsText r) else .error "field"

def fieldCodec : Platform := { platform with encode := encodeFieldwise }

theorem exactItems_codeJson (r : Record) (ks : List String) :
    ExactItems (ks.map (codeJson r)) := by
  induction ks with
  | nil => trivial
  | cons k ks ih =>
    refine ⟨?_, ih⟩
    rw [codeJson]
    cases coded fieldCode r k <;> trivial

theorem coded_eq_of_codeJson {r r' : Record} {k : String} (h : codeJson r k = codeJson r' k) :
    coded fieldCode r k = coded fieldCode r' k := by
  simp only [codeJson] at h
  cases h1 : coded fieldCode r k <;> cases h2 : coded fieldCode r' k <;> simp_all

theorem fieldsText_injective {r r' : Record} (h : fieldsText r = fieldsText r') (k : String) :
    coded fieldCode r k = coded fieldCode r' k := by
  by_cases hk : k ∈ codecFields
  · have hexact (r : Record) : (Json.arr (codecFields.map (codeJson r))).Exact := by
      simpa only [Json.Exact] using exactItems_codeJson r codecFields
    have hjson := stringify_injective (hexact r) (hexact r') h
    exact coded_eq_of_codeJson (List.map_inj_left.mp (Json.arr.inj hjson) k hk)
  · have hnone (r : Record) : coded fieldCode r k = none := by
      rw [coded]
      cases Record.get? r k <;> simp [fieldCode, hk]
    rw [hnone, hnone]

theorem encodeFieldwise_ok {r : Record} {blob : String} :
    encodeFieldwise r = .ok blob ↔
      (∀ k v, r.get? k = some v → (fieldCode k v).isSome) ∧ fieldsText r = blob := by
  have hall : (r.all fun f => (coded fieldCode r f.1).isSome) = true ↔
      ∀ k v, r.get? k = some v → (fieldCode k v).isSome := by
    rw [List.all_eq_true]
    constructor
    · intro h k v hv
      simpa [coded, hv] using h (k, v) (Record.mem_of_get? hv)
    · intro h f hf
      obtain ⟨v, hv⟩ := Option.isSome_iff_exists.mp (Record.has_of_mem hf)
      simpa [coded, hv] using h f.1 v hv
  rw [← hall, encodeFieldwise]
  split <;> simp [*]

theorem encodesFields : EncodesFields fieldCodec fieldCode where
  encodable r := ⟨fun ⟨_, h⟩ => (encodeFieldwise_ok.mp h).1,
    fun h => ⟨fieldsText r, encodeFieldwise_ok.mpr ⟨h, rfl⟩⟩⟩
  injective r r' blob blob' h h' := by
    obtain ⟨-, rfl⟩ := encodeFieldwise_ok.mp h
    obtain ⟨-, rfl⟩ := encodeFieldwise_ok.mp h'
    refine ⟨fieldsText_injective, fun hcoded => ?_⟩
    have hjson : codeJson r = codeJson r' := funext fun k => by simp only [codeJson, hcoded]
    rw [fieldsText, fieldsText, hjson]
  same k v v' h := by
    cases h with
    | obj hsome hsame =>
      have hr := Json.Same.obj hsome hsame
      simp only [fieldCode, readStr_same hr]
    | _ => simp only [fieldCode]

def params : PreparationParams := ⟨"10", 5, 40, 0⟩

def usd (value : String) : Json :=
  .obj [("value", .str value), ("issuer", .str "rI"), ("currency", .str "USD")]

/-- A trust line of 1000.50, and its echo: signed, with a hash, in another order, of 1000.5. -/
def trustSet : Record := buildTransaction (.trustSet ⟨"rA", ⟨"USD", "rI", "1000.50"⟩⟩) params

def trustSetEcho : Record :=
  [("hash", .str "00"), ("SigningPubKey", .str ""), ("TransactionType", .str "TrustSet"),
    ("Sequence", .num 5), ("LimitAmount", usd "1000.5"), ("LastLedgerSequence", .num 40),
    ("Flags", .num 0), ("Fee", .str "10"), ("Account", .str "rA")]

/-- A payment of 1000.50, and its echo: with 1000.5 as `Amount` as well. -/
def issuedPayment : Record :=
  buildTransaction (.payment ⟨"rA", "rB", .issuedCurrency "USD" "rI" "1000.50", none⟩) params

def issuedEcho : Record := issuedPayment.set "Amount" (usd "1000.5")

end Sample

theorem simulation_semantic_reordered :
    simulationMatchesPrepared Sample.fieldCodec Sample.trustSet (some Sample.trustSetEcho) = true ∧
      SameTransaction Sample.fieldCode Sample.trustSet Sample.trustSetEcho :=
  have hmatches : simulationMatchesPrepared Sample.fieldCodec Sample.trustSet
    (some Sample.trustSetEcho) = true := by decide +kernel
  ⟨hmatches, ((simulation_semantic Sample.fieldCodec Sample.fieldCode Sample.encodesFields _ _
    Sample.trustSet (.refl _) Sample.trustSetEcho).1.mpr
      fun h => absurd h.1.1 (by decide)).mp hmatches⟩

/-- The echo denotes the prepared payment and does not match it. -/
theorem respelled_mismatch :
    EncodesFields Sample.fieldCodec Sample.fieldCode ∧
      SameTransaction Sample.fieldCode Sample.issuedPayment Sample.issuedEcho ∧
      simulationMatchesPrepared Sample.fieldCodec Sample.issuedPayment (some Sample.issuedEcho) =
        false := by
  refine ⟨Sample.encodesFields, ?_, by decide +kernel⟩
  have hplain : ¬ Respelled Sample.fieldCode Sample.issuedPayment := fun ⟨_, a, _, ha, _⟩ => by
    cases ((buildTransaction_get _ _).2.2.2.2).symm.trans ha
  have hself : SameTransaction Sample.fieldCode Sample.issuedPayment Sample.issuedPayment :=
    (matches_iff_same Sample.encodesFields hplain hplain).mp (by decide +kernel)
  exact (SameTransaction.congr (codes_renamed (a := Sample.usd "1000.5") (by decide) rfl rfl
    (by decide +kernel)).2).mpr hself

end Orchestrator
