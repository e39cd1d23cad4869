import Orchestrator.Signing.SignedBlob
import Orchestrator.Xrpl.Codec

/-!
# Which accepted bytes are canonical

`verify` compares the decoded object with the prepared blob, and returns and hashes the bytes it
was given. A codec can read one object from many byte strings.

* `CodecLaws`: what a codec promises;
* `CanonicalBytes`: the accepted bytes are the encoding of the prepared fields and the signature;
* **`accepted_canonical_iff`**: they are canonical exactly when they are an encoding at all;
* `Sample.codec`: a codec with these laws that stops at an object-end marker.
-/

namespace Orchestrator

variable (P : Platform)

/-- `decode` inverts `encode`, up to the order of keys, which `encode` does not see; its text is in
upper case. That different objects have different encodings follows. -/
structure CodecLaws : Prop where
  decode_encode : ∀ t blob, P.encode t = .ok blob → ∃ t', P.decode blob = .ok t' ∧ Record.Same t t'
  encode_same : P.EncodeByKey
  encode_upper : ∀ t blob, P.encode t = .ok blob → P.toUpperCase blob = blob

/-- A transaction with its signature fields. -/
def withSignature (transaction : Record) (signingPubKey txnSignature : String) : Record :=
  (transaction.set "SigningPubKey" (.str signingPubKey)).set "TxnSignature" (.str txnSignature)

/-- The accepted bytes are the encoding of the prepared transaction's fields with the signature
fields they carry, and the hash is that of this encoding. -/
def CanonicalBytes (prepared : Record) (v : VerifiedSignedBlob) : Prop :=
  ∃ canonical decoded key signature blob hash, toCanonicalForm prepared = .ok canonical ∧
    P.decode v.txBlob = .ok decoded ∧ decoded.get? "SigningPubKey" = some (.str key) ∧
    decoded.get? "TxnSignature" = some (.str signature) ∧
    P.encode (withSignature canonical key signature) = .ok blob ∧ v.txBlob = blob ∧
    P.hashSignedTx blob = .ok hash ∧ v.transactionHash = P.toUpperCase hash

variable {P} {t t' : Record} {blob key signature : String}

theorem Record.Same.withSignature (h : t.Same t') :
    Record.Same (withSignature t key signature) (withSignature t' key signature) :=
  (h.set _ _).set _ _

/-- An object is what is left without its signature fields, with them. -/
theorem same_withSignature {decoded : Record} (hk : decoded.get? "SigningPubKey" = some (.str key))
    (hs : decoded.get? "TxnSignature" = some (.str signature)) :
    Record.Same decoded (withSignature ((decoded.remove "SigningPubKey").remove "TxnSignature")
      key signature) := by
  refine Record.same_of_get? fun k => ?_
  simp only [withSignature, Record.get?_set, Record.get?_remove]
  split_ifs with h1 h2
  · rw [h1, hs]
  · rw [h2, hk]
  · rfl

/-- Two objects with one encoding have one encoding after they are signed alike. -/
theorem CodecLaws.signed_eq (laws : CodecLaws P) (h : P.encode t = .ok blob)
    (h' : P.encode t' = .ok blob) :
    P.encode (withSignature t key signature) = P.encode (withSignature t' key signature) := by
  obtain ⟨d, hd, hs⟩ := laws.decode_encode t blob h
  obtain ⟨d', hd', hs'⟩ := laws.decode_encode t' blob h'
  obtain rfl := Except.ok.inj (hd.symm.trans hd')
  calc P.encode (withSignature t key signature)
      = P.encode (withSignature d key signature) := laws.encode_same _ _ hs.withSignature
    _ = P.encode (withSignature t' key signature) := (laws.encode_same _ _ hs'.withSignature).symm

/-- The encoding of the prepared transaction is the prepared blob itself. -/
theorem CodecLaws.encode_prepared (laws : CodecLaws P) {prepared : Record}
    {preparedTxBlob : String} (h : encodeTransaction P prepared = .ok preparedTxBlob) :
    ∃ canonical, toCanonicalForm prepared = .ok canonical ∧
      P.encode canonical = .ok preparedTxBlob := by
  obtain ⟨canonical, b, hc, he, hup⟩ := encodeTransaction_ok h
  rw [laws.encode_upper _ _ he] at hup
  exact ⟨canonical, hc, hup ▸ he⟩

/-- **Accepted bytes are canonical exactly when they are an encoding**: for every accepted blob,
what is returned is the encoding of the prepared fields and the signature if and only if the
upper-cased blob is the encoding of any object. -/
theorem accepted_canonical_iff (P : Platform) (laws : CodecLaws P) (prepared : Record)
    (preparedTxBlob txBlob : String) (v : VerifiedSignedBlob)
    (hprep : encodeTransaction P prepared = .ok preparedTxBlob)
    (hv : verify P txBlob preparedTxBlob = .ok v) :
    CanonicalBytes P prepared v ↔ ∃ t, P.encode t = .ok (P.toUpperCase txBlob) := by
  have hacc := verify_ok hv
  constructor
  · rintro ⟨canonical, _, key, signature, blob, _, -, -, -, -, henc, hblob, -⟩
    exact ⟨_, henc.trans (congrArg _ (hblob.symm.trans hacc.blob))⟩
  · rintro ⟨t, ht⟩
    obtain ⟨decoded, _, unsigned, encoded, signature, key, hash, hdec, -, hs, -, hk, -, hun, henc, hup,
      -, hhash, hvh, -⟩ := hacc.decoded
    obtain ⟨canonical, hc, hcb⟩ := laws.encode_prepared hprep
    -- the given bytes encode what they decode to
    obtain ⟨t', ht', hsame⟩ := laws.decode_encode _ _ ht
    rw [← hacc.blob] at ht ht'
    obtain rfl := Except.ok.inj (ht'.symm.trans hdec)
    rw [laws.encode_upper _ _ henc] at hup
    rw [unsignedFields_ok hun, hup] at henc
    have hsigned : P.encode (withSignature canonical key signature) = .ok v.txBlob :=
      calc P.encode (withSignature canonical key signature)
          = P.encode (withSignature ((t'.remove "SigningPubKey").remove "TxnSignature") key
              signature) := laws.signed_eq hcb henc
        _ = P.encode t' := (laws.encode_same _ _ (same_withSignature hk hs)).symm
        _ = P.encode t := (laws.encode_same _ _ hsame).symm
        _ = .ok v.txBlob := ht
    exact ⟨canonical, t', key, signature, v.txBlob, hash, hc, hdec, hk, hs, hsigned, rfl, hhash, hvh⟩

/-! ## A codec that stops at an object-end marker -/

namespace Sample

def hexChars : List Char := "0123456789ABCDEF".toList

/-- The fields it knows, in canonical order, each with the character that announces it. -/
def fieldTags : List (String × Char) :=
  [("Account", 'A'), ("SigningPubKey", 'B'), ("TxnSignature", 'C')]

/-- A field is announced by its tag and has one hexadecimal character. -/
def encodeField (r : Record) (field : String × Char) : Option (List Char) :=
  match r.get? field.1 with
  | none => some []
  | some (.str s) => match s.toList with
    | [c] => if hexChars.contains c then some [field.2, c] else none
    | _ => none
  | some _ => none

def encodeFields (r : Record) : List (String × Char) → Option (List Char)
  | [] => some []
  | field :: fields => do return (← encodeField r field) ++ (← encodeFields r fields)

def known (r : Record) : Bool := r.all fun f => (fieldTags.map (·.1)).contains f.1

def encodeObject (r : Record) : Except String String :=
  if known r then match encodeFields r fieldTags with
    | some cs => .ok (String.ofList cs)
    | none => .error "value"
  else .error "unknown field"

/-- Reads field after field, in any order, up to the end or an object-end marker. -/
def decodeFields : List Char → Option Record
  | [] => some []
  | 'E' :: _ => some []
  | tag :: c :: rest =>
    match fieldTags.find? fun field => field.2 = tag with
    | some field => (decodeFields rest).map ((field.1, .str (String.ofList [c])) :: ·)
    | none => none
  | _ => none

def decodeObject (blob : String) : Except String Record :=
  match decodeFields blob.toList with
  | some r => .ok r
  | none => .error "undecodable"

def upper (s : String) : String := String.ofList (s.toList.map Char.toUpper)

/-- Every signature is valid, and a blob is its own hash. -/
def codec : Platform where
  encode := encodeObject
  decode := decodeObject
  encodeForSigning _ := .ok ""
  verifyKeypairSignature _ _ _ := .ok true
  hashSignedTx := .ok
  validate _ := .ok ()
  deriveAddress _ := .ok ""
  isValidClassicAddress _ := true
  constraintMessages _ := ""
  toUpperCase := upper
  sha256 := id
  jsonb := id

theorem isSome_get? {r : Record} {f : String × Json} (h : f ∈ r) : (r.get? f.1).isSome := by
  induction r with
  | nil => cases h
  | cons g r ih =>
    obtain ⟨m, v⟩ := g
    rw [Record.get?_cons]
    split_ifs with hm
    · rfl
    · rcases List.mem_cons.mp h with rfl | h
      · exact absurd rfl hm
      · exact ih h

theorem known_iff {r : Record} :
    known r = true ↔ ∀ k, (r.get? k).isSome → k ∈ fieldTags.map (·.1) := by
  simp only [known, List.all_eq_true, List.contains_iff_mem]
  constructor
  · intro h k hk
    obtain ⟨v, hv⟩ := Option.isSome_iff_exists.mp hk
    exact h _ (Record.mem_of_get? hv)
  · exact fun h f hf => h _ (isSome_get? hf)

theorem encodeField_same {r r' : Record} (h : r.Same r') (field : String × Char) :
    encodeField r field = encodeField r' field := by
  unfold encodeField
  cases hr : r.get? field.1 with
  | none => rw [h.get_none hr]
  | some x =>
    obtain ⟨y, hy, hs⟩ := h.get hr
    rw [hy]
    cases hs <;> rfl

theorem encodeFields_same {r r' : Record} (h : r.Same r') (fields : List (String × Char)) :
    encodeFields r fields = encodeFields r' fields := by
  induction fields with
  | nil => rfl
  | cons field fields ih => rw [encodeFields, encodeFields, encodeField_same h, ih]

theorem encodeByKey_codec : codec.EncodeByKey := by
  intro r r' h
  have hk : known r = known r' := by
    rw [Bool.eq_iff_iff, known_iff, known_iff]
    simp only [h.isSome]
  simp only [codec, encodeObject, hk, encodeFields_same h]

/-- A field that can be encoded is absent, or holds one character. -/
theorem encodeField_cases {r : Record} {field : String × Char} {cs : List Char}
    (h : encodeField r field = some cs) : (r.get? field.1 = none ∧ cs = []) ∨
      ∃ c ∈ hexChars, r.get? field.1 = some (.str (String.ofList [c])) ∧ cs = [field.2, c] := by
  unfold encodeField at h
  split at h
  · next hn => exact .inl ⟨hn, (Option.some.inj h).symm⟩
  · next s hs =>
    split at h
    · next c hc =>
      split_ifs at h with hx
      refine .inr ⟨c, List.contains_iff_mem.mp hx, ?_, (Option.some.inj h).symm⟩
      rw [hs, ← hc, String.ofList_toList]
    · cases h
  · cases h

theorem encodeFields_cons {r : Record} {field : String × Char} {fields : List (String × Char)}
    {cs : List Char} (h : encodeFields r (field :: fields) = some cs) :
    ∃ as bs, encodeField r field = some as ∧ encodeFields r fields = some bs ∧ cs = as ++ bs := by
  simp only [encodeFields, Option.bind_eq_bind, Option.bind_eq_some_iff, Option.pure_def,
    Option.some.injEq] at h
  obtain ⟨as, ha, bs, hb, hcs⟩ := h
  exact ⟨as, bs, ha, hb, hcs.symm⟩

/-- What is encoded in order is decoded field by field. -/
theorem decodeFields_encodeFields {r : Record} {fields : List (String × Char)} {cs : List Char}
    (htags : ∀ field ∈ fields, field.2 ≠ 'E' ∧
      fieldTags.find? (fun f => f.2 = field.2) = some field)
    (h : encodeFields r fields = some cs) : ∃ t, decodeFields cs = some t ∧
      ∀ k, t.get? k = if k ∈ fields.map (·.1) then r.get? k else none := by
  induction fields generalizing cs with
  | nil =>
    cases h
    exact ⟨[], rfl, by simp⟩
  | cons field fields ih =>
    obtain ⟨as, bs, ha, hb, rfl⟩ := encodeFields_cons h
    obtain ⟨t, ht, hget⟩ := ih (fun f hf => htags f (List.mem_cons_of_mem _ hf)) hb
    obtain ⟨hE, hfind⟩ := htags field List.mem_cons_self
    rcases encodeField_cases ha with ⟨hn, rfl⟩ | ⟨c, -, hs, rfl⟩
    · refine ⟨t, ht, fun k => ?_⟩
      simp only [hget, List.map_cons, List.mem_cons]
      by_cases hk : k = field.1
      · simp only [hk, hn, ite_self]
      · simp only [hk, false_or]
    · refine ⟨(field.1, .str (String.ofList [c])) :: t, ?_, fun k => ?_⟩
      · simp [decodeFields, hfind, ht]
      · simp only [Record.get?_cons, hget, List.map_cons, List.mem_cons]
        by_cases hk : k = field.1
        · simp only [hk, if_true, hs, true_or]
        · simp only [hk, Ne.symm hk, if_false, false_or]

theorem upper_encodeFields {r : Record} {fields : List (String × Char)} {cs : List Char}
    (htags : ∀ field ∈ fields, field.2.toUpper = field.2) (h : encodeFields r fields = some cs) :
    cs.map Char.toUpper = cs := by
  induction fields generalizing cs with
  | nil =>
    cases h
    rfl
  | cons field fields ih =>
    obtain ⟨as, bs, ha, hb, rfl⟩ := encodeFields_cons h
    have hbs := ih (fun f hf => htags f (List.mem_cons_of_mem _ hf)) hb
    rw [List.map_append, hbs]
    rcases encodeField_cases ha with ⟨-, rfl⟩ | ⟨c, hc, -, rfl⟩
    · rfl
    · have hhex : hexChars.all (fun c => c.toUpper == c) = true := by decide
      have hcu : c.toUpper = c := eq_of_beq (List.all_eq_true.mp hhex c hc)
      simp [htags field List.mem_cons_self, hcu]

theorem encodeObject_ok {r : Record} {blob : String} (h : encodeObject r = .ok blob) :
    known r = true ∧ ∃ cs, encodeFields r fieldTags = some cs ∧ blob = String.ofList cs := by
  unfold encodeObject at h
  split_ifs at h with hk
  split at h
  · next cs hcs => exact ⟨hk, cs, hcs, (Except.ok.inj h).symm⟩
  · cases h

theorem codecLaws : CodecLaws codec where
  decode_encode t blob h := by
    obtain ⟨hk, cs, hcs, rfl⟩ := encodeObject_ok h
    obtain ⟨t', ht', hget⟩ := decodeFields_encodeFields (by decide) hcs
    refine ⟨t', by simp [codec, decodeObject, ht'], Record.same_of_get? fun k => ?_⟩
    rw [hget]
    split_ifs with hm
    · rfl
    · cases hg : t.get? k with
      | none => rfl
      | some v => exact absurd (known_iff.mp hk k (by rw [hg]; rfl)) hm
  encode_same := encodeByKey_codec
  encode_upper t blob h := by
    obtain ⟨-, cs, hcs, rfl⟩ := encodeObject_ok h
    change upper (String.ofList cs) = _
    simp [upper, upper_encodeFields (by decide) hcs]

def payment : Record := [("Account", .str "5")]

end Sample

/-- The encoding of a signed transaction is accepted as it is. -/
theorem accepted_canonical_encoded : ∃ v, verify Sample.codec "a5Bdc7" "A5" = .ok v ∧
    CanonicalBytes Sample.codec Sample.payment v :=
  ⟨⟨"A5BDC7", "A5BDC7", "D"⟩, by decide, (accepted_canonical_iff Sample.codec Sample.codecLaws
    Sample.payment "A5" "a5Bdc7" _ (by decide) (by decide)).mpr
    ⟨withSignature Sample.payment "D" "7", by decide⟩⟩

/-- The same bytes with an object-end marker and more behind them are accepted too. -/
theorem accepted_not_canonical : ¬ ∀ (P : Platform), CodecLaws P →
    ∀ (prepared : Record) (preparedTxBlob txBlob : String) (v : VerifiedSignedBlob),
      encodeTransaction P prepared = .ok preparedTxBlob → verify P txBlob preparedTxBlob = .ok v →
      CanonicalBytes P prepared v := by
  intro hevery
  obtain ⟨canonical, decoded, key, signature, blob, hash, hc, hdec, hk, hs, henc, hblob, -⟩ :=
    hevery Sample.codec Sample.codecLaws Sample.payment "A5" "A5BDC7E1"
      ⟨"A5BDC7E1", "A5BDC7E1", "D"⟩ (by decide) (by decide)
  have hc' : toCanonicalForm Sample.payment = .ok Sample.payment := by decide
  have hdec' : Sample.codec.decode "A5BDC7E1" = .ok (withSignature Sample.payment "D" "7") := by
    decide
  obtain rfl := Except.ok.inj (hc.symm.trans hc')
  obtain rfl := Except.ok.inj (hdec.symm.trans hdec')
  have hk' : (withSignature Sample.payment "D" "7").get? "SigningPubKey" = some (.str "D") := by
    decide
  have hs' : (withSignature Sample.payment "D" "7").get? "TxnSignature" = some (.str "7") := by
    decide
  cases hk.symm.trans hk'
  cases hs.symm.trans hs'
  have henc' : Sample.codec.encode (withSignature Sample.payment "D" "7") = .ok "A5BDC7" := by
    decide
  have hne : "A5BDC7E1" = "A5BDC7" := hblob.trans (Except.ok.inj (henc.symm.trans henc'))
  exact absurd hne (by decide)

end Orchestrator
