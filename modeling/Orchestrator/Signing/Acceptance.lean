import Orchestrator.Intents.Presenter
import Orchestrator.Preparation.Comparison
import Orchestrator.Signing.Canonical

/-!
# What `verify` accepts

A codec is known by what it makes of each field. It decodes an encoding to the normal spelling of
the object, so a signer that spells the exposed transaction in its own way signs the same bytes.

* `NormalCodec`: a codec, field by field, with the spelling that it decodes to;
* `SignedPrepared`: the decoded prepared transaction with a key and its signature;
* `Spelled`, `Signs`: a signer of the exposed transaction;
* **`verify_accepts_iff`**: `verify` accepts exactly the signed prepared transaction.
-/

namespace Orchestrator

/-- `decode` gives the normal spelling of what was encoded; `encode` and `encodeForSigning` see the
codes of fields only; hex is written in upper case and read in either; what carries a signature has
a hash. -/
structure NormalCodec (P : Platform) (code : FieldCode) (normal : String → Json → Prop) : Prop where
  decode_encode : ∀ t blob, P.encode t = .ok blob →
    ∃ t', P.decode blob = .ok t' ∧ ∀ k, coded code t' k = coded code t k
  decode_normal : ∀ blob t, P.decode blob = .ok t → ∀ k v, Record.get? t k = some v → normal k v
  normal_coded : ∀ k v, normal k v → (code k v).isSome
  normal_unique : ∀ k v v', normal k v → normal k v' → code k v = code k v' → Json.Same v v'
  code_same : ∀ k v v', Json.Same v v' → code k v = code k v'
  encode_coded : ∀ t t' blob, P.encode t = .ok blob →
    (∀ k v, Record.get? t' k = some v → normal k v) → (∀ k, coded code t k = coded code t' k) →
    P.encode t' = .ok blob
  signing_coded : ∀ t t' message, P.encodeForSigning t = .ok message →
    (∀ k v, Record.get? t' k = some v → normal k v) → (∀ k, coded code t k = coded code t' k) →
    P.encodeForSigning t' = .ok message
  encode_upper : ∀ t blob, P.encode t = .ok blob → P.toUpperCase blob = blob
  decode_upper : ∀ blob, isHex blob = true → P.decode (P.toUpperCase blob) = P.decode blob
  hash_signed : ∀ blob t signature, P.decode blob = .ok t →
    Record.get? t "TxnSignature" = some (.str signature) → signature ≠ "" →
    ∃ hash, P.hashSignedTx blob = .ok hash

/-- A hex string of bytes, within the size limit. -/
def HexBlob (txBlob : String) : Prop :=
  txBlob.length ≤ signedTxMaxHexChars ∧ txBlob.length % 2 = 0 ∧ isHex txBlob = true

instance (txBlob : String) : Decidable (HexBlob txBlob) := inferInstanceAs (Decidable (_ ∧ _))

/-- The blob decodes to the prepared transaction with exactly a key and a signature, and the
signature verifies under the key over the object without the signature. -/
def SignedPrepared (P : Platform) (preparedTxBlob txBlob : String) : Prop :=
  ∃ decoded prepared key signature message,
    P.decode txBlob = .ok decoded ∧ P.decode preparedTxBlob = .ok prepared ∧
    key ≠ "" ∧ signature ≠ "" ∧ Record.Same decoded (withSignature prepared key signature) ∧
    P.encodeForSigning (decoded.remove "TxnSignature") = .ok message ∧
    P.verifyKeypairSignature message signature key = .ok true

/-- A spelling of the exposed transaction: any order of keys, `DeliverMax` or `Amount`. -/
def Spelled (exposed o : Record) : Prop :=
  o.Same exposed ∨ ∃ c, toCanonicalForm exposed = .ok c ∧ o.Same c

/-- An external signer: the canonical form with its key, signed and serialized. -/
def Signs (P : Platform) (o : Record) (key signature txBlob : String) : Prop :=
  ∃ c message, toCanonicalForm o = .ok c ∧
    P.encodeForSigning (c.set "SigningPubKey" (.str key)) = .ok message ∧
    P.verifyKeypairSignature message signature key = .ok true ∧
    P.encode (withSignature c key signature) = .ok txBlob

variable {P : Platform} {code : FieldCode} {normal : String → Json → Prop}

/-! ## Normal objects -/

/-- Every field is in its normal spelling. -/
def NormalObject (normal : String → Json → Prop) (t : Record) : Prop :=
  ∀ k v, t.get? k = some v → normal k v

namespace NormalCodec

variable (hP : NormalCodec P code normal) {t t' : Record}
include hP

theorem isSome_coded (h : NormalObject normal t) (k : String) :
    (coded code t k).isSome = (t.get? k).isSome := by
  cases hv : t.get? k with
  | none => simp [coded, hv]
  | some v => simpa [coded, hv] using hP.normal_coded k v (h k v hv)

/-- Normal objects with the same codes are the same. -/
theorem same (h : NormalObject normal t) (h' : NormalObject normal t')
    (hc : ∀ k, coded code t k = coded code t' k) : t.Same t' := by
  refine .obj (fun k => ?_) fun k x y hx hy => ?_
  · rw [← hP.isSome_coded h, hc, hP.isSome_coded h']
  · have hxy := hc k
    rw [coded, coded, hx, hy] at hxy
    exact hP.normal_unique k x y (h k x hx) (h' k y hy) hxy

theorem coded_same (h : t.Same t') (k : String) : coded code t k = coded code t' k := by
  cases hv : t.get? k with
  | none => simp [coded, hv, h.get_none hv]
  | some v =>
    obtain ⟨v', hv', hs⟩ := h.get hv
    simpa [coded, hv, hv'] using hP.code_same k v v' hs

/-- What the encoding of an object decodes to has no other fields. -/
theorem get_none_of_coded (h : NormalObject normal t) {k : String}
    (hc : coded code t k = coded code t' k) (hk : t'.get? k = none) : t.get? k = none := by
  have hn := hP.isSome_coded h k
  rw [hc, coded, hk] at hn
  simpa using hn.symm

end NormalCodec

theorem coded_withSignature (r : Record) (key signature k : String) :
    coded code (withSignature r key signature) k =
      if k = "TxnSignature" then code k (.str signature)
      else if k = "SigningPubKey" then code k (.str key) else coded code r k := by
  rw [withSignature, coded, Record.get?_set, Record.get?_set]
  split_ifs <;> rfl

theorem NormalObject.withSignature {r : Record} {key signature : String}
    (h : NormalObject normal r) (hkey : normal "SigningPubKey" (.str key))
    (hsignature : normal "TxnSignature" (.str signature)) :
    NormalObject normal (withSignature r key signature) := by
  intro k v hv
  rw [Orchestrator.withSignature, Record.get?_set, Record.get?_set] at hv
  split_ifs at hv with h1 h2
  · exact h1 ▸ Option.some.inj hv ▸ hsignature
  · exact h2 ▸ Option.some.inj hv ▸ hkey
  · exact h k v hv

theorem NormalObject.remove {r : Record} (h : NormalObject normal r) (m : String) :
    NormalObject normal (r.remove m) := by
  intro k v hv
  rw [Record.get?_remove] at hv
  split_ifs at hv
  exact h k v hv

/-! ## The steps of `verify` -/

theorem nonEmptyStr_str {s : String} (hs : s ≠ "") (failure : Failure) :
    nonEmptyStr (some (.str s)) failure = .ok s := if_neg hs

theorem refuseIf_not {c : Prop} [Decidable c] (h : ¬ c) (failure : Failure) :
    refuseIf c failure = .ok () := if_neg h

theorem refuseForbidden_ok {decoded : Record}
    (h : ∀ field ∈ forbiddenSignedFields, decoded.get? field = none) :
    refuseForbidden decoded = .ok () := by
  have hnone : (forbiddenSignedFields.find? fun field => decoded.has field) = none := by
    rw [List.find?_eq_none]
    intro field hf
    simp [Record.has, h field hf]
  rw [refuseForbidden, hnone]

theorem unsignedFields_of {preparedFields : List String} {decoded : Record}
    (h : ∀ f ∈ decoded, f.1 ∈ signatureFields ∨ f.1 ∈ preparedFields) :
    ∃ unsigned, unsignedFields preparedFields decoded = .ok unsigned := by
  induction decoded with
  | nil => exact ⟨[], rfl⟩
  | cons f rest ih =>
    obtain ⟨field, value⟩ := f
    obtain ⟨unsigned, hu⟩ := ih fun f hf => h f (List.mem_cons_of_mem _ hf)
    rw [unsignedFields]
    by_cases hs : field ∈ signatureFields
    · exact ⟨unsigned, by simp [hs, hu]⟩
    · have hp := (h (field, value) List.mem_cons_self).resolve_left hs
      exact ⟨(field, value) :: unsigned, by simp [hs, hp, hu, Except.map]⟩

/-- Every field of a built transaction is one that the presenter puts in order. -/
theorem buildTransaction_fields (intent : IntentPayload) (params : PreparationParams) {k : String}
    (hk : k ∉ transactionFieldOrder) : (buildTransaction intent params).get? k = none := by
  simp only [transactionFieldOrder, List.mem_cons, List.not_mem_nil, or_false, not_or] at hk
  obtain ⟨h1, h2, h3, h4, h5, h6, h7, h8, h9, h10, h11⟩ := hk
  cases intent with
  | payment intent =>
    cases h : intent.destinationTag <;>
      simp only [buildTransaction, buildPayment, networkIdField, h] <;>
      split_ifs <;> simp [Ne.symm, *]
  | trustSet intent =>
    simp only [buildTransaction, buildTrustSet, networkIdField]
    split_ifs <;> simp [Ne.symm, *]

/-! ## Both directions -/

theorem signedPrepared_of_verify (hP : NormalCodec P code normal) {preparedTxBlob txBlob : String}
    {v : VerifiedSignedBlob} (h : verify P txBlob preparedTxBlob = .ok v) :
    HexBlob txBlob ∧ SignedPrepared P preparedTxBlob txBlob := by
  have hhex : HexBlob txBlob := by
    obtain ⟨_, h1, -⟩ := Except.bind_eq_ok.mp h
    have hnot := refuseIf_ok h1
    simpa only [HexBlob, not_or, not_lt, not_not, Bool.not_eq_false, gt_iff_lt] using hnot
  obtain ⟨-, hblob, decoded, prepared, unsigned, encoded, signature, key, hash, hdec, hprep, hs,
    hs', hk, hk', hun, henc, hup, hvalid, -⟩ := verify_ok h
  rw [hP.encode_upper _ _ henc] at hup
  subst hup
  rw [hblob, hP.decode_upper _ hhex.2.2] at hdec
  obtain ⟨_, hprep', hcoded⟩ := hP.decode_encode _ _ henc
  obtain rfl := Except.ok.inj (hprep.symm.trans hprep')
  have hnormal : NormalObject normal decoded := hP.decode_normal _ _ hdec
  have hsame : unsigned.Same prepared := by
    refine hP.same ?_ (hP.decode_normal _ _ hprep) fun k => (hcoded k).symm
    rw [unsignedFields_ok hun]
    exact (hnormal.remove _).remove _
  have hmessage : ∃ message, P.encodeForSigning (decoded.remove "TxnSignature") = .ok message ∧
      P.verifyKeypairSignature message signature key = .ok true := by
    unfold signatureValid at hvalid
    split at hvalid
    · cases hvalid
    next message hmessage =>
      split at hvalid
      next valid hv => exact ⟨message, hmessage, hv.trans (congrArg _ hvalid)⟩
      next => cases hvalid
  obtain ⟨message, hmessage, hv⟩ := hmessage
  refine ⟨hhex, decoded, prepared, key, signature, message, hdec, hprep, hk', hs', ?_, hmessage, hv⟩
  refine (same_withSignature hk hs).trans ?_
  rw [← unsignedFields_ok hun]
  exact hsame.withSignature

/-- What has no signature and no forbidden field is accepted with a signature. -/
theorem verify_of_signedPrepared (hP : NormalCodec P code normal)
    {canonical : Record} {preparedTxBlob txBlob : String}
    (hcanonical : P.encode canonical = .ok preparedTxBlob)
    (hfields : ∀ field ∈ signatureFields ++ forbiddenSignedFields, canonical.get? field = none)
    (hhex : HexBlob txBlob) (h : SignedPrepared P preparedTxBlob txBlob) :
    ∃ v, verify P txBlob preparedTxBlob = .ok v := by
  obtain ⟨decoded, prepared, key, signature, message, hdec, hprep, hk, hs, hsame, hmessage, hv⟩ := h
  obtain ⟨_, hprep', hcoded⟩ := hP.decode_encode _ _ hcanonical
  obtain rfl := Except.ok.inj (hprep.symm.trans hprep')
  have hnormal : NormalObject normal prepared := hP.decode_normal _ _ hprep
  have hnone (field : String) (hf : field ∈ signatureFields ++ forbiddenSignedFields) :
      prepared.get? field = none :=
    hP.get_none_of_coded hnormal (hcoded field) (hfields field hf)
  have hget (k : String) (hk : k ∉ signatureFields) :
      (withSignature prepared key signature).get? k = prepared.get? k := by
    have hk' : k ≠ "SigningPubKey" ∧ k ≠ "TxnSignature" := by simpa [signatureFields] using hk
    rw [withSignature, Record.get?_set, Record.get?_set, if_neg hk'.2, if_neg hk'.1]
  have hdk : decoded.get? "SigningPubKey" = some (.str key) :=
    Record.Same.get_str hsame.symm (by simp [withSignature, Record.get?_set])
  have hds : decoded.get? "TxnSignature" = some (.str signature) :=
    Record.Same.get_str hsame.symm (by simp [withSignature, Record.get?_set])
  have covered : ∀ f ∈ decoded, f.1 ∈ signatureFields ∨ f.1 ∈ prepared.map (·.1) := by
    intro f hf
    by_cases hsig : f.1 ∈ signatureFields
    · exact .inl hsig
    · have hhas := (hsame.isSome f.1).symm.trans (Record.has_of_mem hf)
      rw [hget f.1 hsig] at hhas
      obtain ⟨v, hv⟩ := Option.isSome_iff_exists.mp hhas
      exact .inr (List.mem_map.mpr ⟨_, Record.mem_of_get? hv, rfl⟩)
  obtain ⟨unsigned, hun⟩ := unsignedFields_of covered
  have hunsigned : unsigned.Same prepared := by
    rw [unsignedFields_ok hun]
    refine .trans ?_ (Record.same_of_get? fun k => ?_ : Record.Same ((Record.remove "TxnSignature"
      (Record.remove "SigningPubKey" (withSignature prepared key signature)))) prepared)
    · exact (hsame.remove _).remove _
    · rw [Record.get?_remove, Record.get?_remove]
      split_ifs with h1 h2
      · exact (hnone k (by simp [h1, signatureFields])).symm
      · exact (hnone k (by simp [h2, signatureFields])).symm
      · exact hget k (by simp [signatureFields, h1, h2])
  have hencode : P.encode unsigned = .ok preparedTxBlob := by
    refine hP.encode_coded canonical unsigned _ hcanonical ?_ fun k => ?_
    · rw [unsignedFields_ok hun]
      exact NormalObject.remove (NormalObject.remove (hP.decode_normal _ _ hdec) _) _
    · rw [hP.coded_same hunsigned, hcoded]
  have hforbidden : refuseForbidden decoded = .ok () := refuseForbidden_ok fun field hf => by
    refine Record.Same.get_none hsame.symm ?_
    rw [hget field (by revert field; decide)]
    exact hnone field (List.mem_append_right _ hf)
  have hvalid : signatureValid P (decoded.remove "TxnSignature") signature key = true := by
    simp only [signatureValid, hmessage, hv]
  rw [← hP.decode_upper _ hhex.2.2] at hdec
  obtain ⟨hash, hhash⟩ := hP.hash_signed _ _ _ hdec hds hs
  have hhex' : ¬ (txBlob.length > signedTxMaxHexChars ∨ txBlob.length % 2 ≠ 0 ∨
      isHex txBlob = false) := by
    simpa only [HexBlob, not_or, not_lt, not_not, Bool.not_eq_false, gt_iff_lt] using hhex
  have hupper : ¬ P.toUpperCase preparedTxBlob ≠ preparedTxBlob :=
    not_not.mpr (hP.encode_upper _ _ hcanonical)
  refine ⟨⟨P.toUpperCase txBlob, P.toUpperCase hash, P.toUpperCase key⟩, ?_⟩
  simp only [verify, Except.bind_eq_ok]
  refine ⟨(), refuseIf_not hhex' _, decoded, ?_, signature, ?_, key, ?_, (), hforbidden, prepared, ?_,
    unsigned, hun, preparedTxBlob, ?_, (), refuseIf_not hupper _, (), refuseIf_not ?_ _, hash, ?_, rfl⟩
  · rw [hdec]
    rfl
  · rw [hds]
    exact nonEmptyStr_str hs _
  · rw [hdk]
    exact nonEmptyStr_str hk _
  · rw [hprep]
    rfl
  · rw [hencode]
    rfl
  · simp [hvalid]
  · rw [hhash]
    rfl

/-! ## The signer -/

theorem toCanonicalForm_eq_self {r : Record} (h : isPayment r → r.get? "DeliverMax" = none) :
    toCanonicalForm r = .ok r := by
  by_cases hp : isPayment r
  · simp [toCanonicalForm, h hp]
  · exact if_pos hp

/-- A canonical form is its own. -/
theorem toCanonicalForm_idem {r c : Record} (h : toCanonicalForm r = .ok c) :
    isPayment c → c.get? "DeliverMax" = none := by
  intro hc
  obtain ⟨hr, hd⟩ | ⟨-, d, -, ⟨hr, -⟩ | ⟨⟨_, hr⟩, -⟩⟩ := toCanonicalForm_cases r
  · obtain rfl := Except.ok.inj (hr.symm.trans h)
    exact hd hc
  · obtain rfl := Except.ok.inj (hr.symm.trans h)
    rw [get?_canonical, if_neg (by simp), if_pos rfl]
  · cases hr.symm.trans h

/-- Every spelling has the canonical form of what was prepared. -/
theorem Spelled.toCanonicalForm {t exposed o canonical : Record} (h : Spelled exposed o)
    (hexposed : exposed.Same t) (hA : t.get? "Amount" = none)
    (hc : Orchestrator.toCanonicalForm t = .ok canonical) :
    ∃ c, Orchestrator.toCanonicalForm o = .ok c ∧ c.Same canonical := by
  have hsame {o : Record} (ho : o.Same t) :
      ∃ c, Orchestrator.toCanonicalForm o = .ok c ∧ c.Same canonical := by
    obtain ⟨c', c, hc', hco, hs⟩ := toCanonicalForm_same ho.symm hA
    obtain rfl := Except.ok.inj (hc.symm.trans hc')
    exact ⟨c, hco, hs.symm⟩
  obtain h | ⟨c, hce, hoc⟩ := h
  · exact hsame (h.trans hexposed)
  · obtain ⟨c', hce', hs⟩ := hsame hexposed
    obtain rfl := Except.ok.inj (hce.symm.trans hce')
    refine ⟨o, toCanonicalForm_eq_self fun ho => ?_, hoc.trans hs⟩
    exact Record.Same.get_none hoc.symm (toCanonicalForm_idem hce (hoc.get_str ho))

/-- What a signer signs is the prepared transaction with its key and signature. -/
theorem Signs.signedPrepared (hP : NormalCodec P code normal)
    {o c canonical : Record} {key signature preparedTxBlob txBlob : String}
    (hsigns : Signs P o key signature txBlob) (hc : toCanonicalForm o = .ok c)
    (hsame : c.Same canonical) (hcanonical : P.encode canonical = .ok preparedTxBlob)
    (hsignature : canonical.get? "TxnSignature" = none)
    (hk : key ≠ "") (hs : signature ≠ "") (hkey : normal "SigningPubKey" (.str key))
    (hsig : normal "TxnSignature" (.str signature)) : SignedPrepared P preparedTxBlob txBlob := by
  obtain ⟨_, message, hc', hmessage, hv, hencode⟩ := hsigns
  obtain rfl := Except.ok.inj (hc.symm.trans hc')
  obtain ⟨decoded, hdec, hdecoded⟩ := hP.decode_encode _ _ hencode
  obtain ⟨prepared, hprep, hprepared⟩ := hP.decode_encode _ _ hcanonical
  have hnormal : NormalObject normal decoded := hP.decode_normal _ _ hdec
  have hnormal' : NormalObject normal prepared := hP.decode_normal _ _ hprep
  refine ⟨decoded, prepared, key, signature, message, hdec, hprep, hk, hs, ?_, ?_, hv⟩
  · refine hP.same hnormal (hnormal'.withSignature hkey hsig) fun k => ?_
    rw [hdecoded, coded_withSignature, coded_withSignature, hP.coded_same hsame, hprepared]
  · refine hP.signing_coded _ _ _ hmessage (hnormal.remove _) fun k => ?_
    have hrest : coded code (decoded.remove "TxnSignature") k =
        if k = "TxnSignature" then none else coded code decoded k := by
      rw [coded, Record.get?_remove]
      split_ifs <;> rfl
    rw [hrest, hdecoded, coded_withSignature, coded, Record.get?_set]
    split_ifs with h1 h2 h3
    · exact absurd (h1.symm.trans h2) (by simp)
    · rfl
    · rw [h3, Record.Same.get_none hsame.symm hsignature]
      rfl
    · rfl

/-- **`verify` accepts exactly the signed prepared transaction.** A blob is accepted if and only if
it decodes to the decoded prepared transaction with exactly a key and its signature, and the
signature verifies. So what a signer makes of the exposed transaction, in any spelling, is accepted,
and an object with another code at any other field is refused. -/
theorem verify_accepts_iff (P : Platform) (code : FieldCode) (normal : String → Json → Prop)
    (hP : NormalCodec P code normal) (hjsonb : P.JsonbPreserves) (intent : IntentPayload)
    (params : PreparationParams) (preparedTxBlob : String)
    (hprep : encodeTransaction P (buildTransaction intent params) = .ok preparedTxBlob) :
    (∀ txBlob, (∃ v, verify P txBlob preparedTxBlob = .ok v) ↔
      HexBlob txBlob ∧ SignedPrepared P preparedTxBlob txBlob) ∧
    (∃ exposed, orderedTransaction (P.jsonb (.obj (buildTransaction intent params))) =
        some exposed ∧
      ∀ o key signature txBlob, Spelled exposed o → key ≠ "" → signature ≠ "" →
        normal "SigningPubKey" (.str key) → normal "TxnSignature" (.str signature) →
        HexBlob txBlob → Signs P o key signature txBlob →
        ∃ v, verify P txBlob preparedTxBlob = .ok v) ∧
    ∃ canonical, toCanonicalForm (buildTransaction intent params) = .ok canonical ∧
      ∀ signed txBlob k, P.encode signed = .ok txBlob → k ∉ signatureFields →
        coded code signed k ≠ coded code canonical k →
        ¬ ∃ v, verify P txBlob preparedTxBlob = .ok v := by
  obtain ⟨canonical, b, hc, hcanonical, hup⟩ := encodeTransaction_ok hprep
  rw [hP.encode_upper _ _ hcanonical] at hup
  subst hup
  have hfields : ∀ field ∈ signatureFields ++ forbiddenSignedFields,
      canonical.get? field = none := by
    intro field hf
    have hout : field ∉ transactionFieldOrder ∧ field ≠ "Amount" := by revert field; decide
    exact toCanonicalForm_get_none hc hout.2 (buildTransaction_fields intent params hout.1)
  have hiff (txBlob : String) : (∃ v, verify P txBlob b = .ok v) ↔
      HexBlob txBlob ∧ SignedPrepared P b txBlob :=
    ⟨fun ⟨_, h⟩ => signedPrepared_of_verify hP h,
      fun h => verify_of_signedPrepared hP hcanonical hfields h.1 h.2⟩
  refine ⟨hiff, ?_, canonical, hc, ?_⟩
  · obtain ⟨column, hcolumn, hsame⟩ : ∃ column,
        P.jsonb (.obj (buildTransaction intent params)) = .obj column ∧
          Record.Same (buildTransaction intent params) column := by
      have h := hjsonb (.obj (buildTransaction intent params))
      cases hj : P.jsonb (.obj (buildTransaction intent params)) with
      | obj column =>
        rw [hj] at h
        exact ⟨column, rfl, h⟩
      | _ =>
        rw [hj] at h
        cases h
    obtain ⟨exposed, hexposed, hordered⟩ := orderedTransaction_same column
    rw [hcolumn]
    refine ⟨exposed, hexposed, fun o key signature txBlob ho hk hs hkey hsig hhex hsigns => ?_⟩
    obtain ⟨c, hco, hcs⟩ := ho.toCanonicalForm (hordered.trans hsame.symm)
      (buildTransaction_get intent params).2.2.2.2 hc
    exact (hiff txBlob).mpr ⟨hhex, hsigns.signedPrepared hP hco hcs hcanonical
      (hfields _ (by decide)) hk hs hkey hsig⟩
  · rintro signed txBlob k hsigned hk hdiff haccepted
    obtain ⟨-, decoded, prepared, key, signature, -, hdec, hdecp, -, -, hsame, -⟩ :=
      (hiff txBlob).mp haccepted
    obtain ⟨_, hdec', hcoded⟩ := hP.decode_encode _ _ hsigned
    obtain rfl := Except.ok.inj (hdec.symm.trans hdec')
    obtain ⟨_, hdecp', hcodedp⟩ := hP.decode_encode _ _ hcanonical
    obtain rfl := Except.ok.inj (hdecp.symm.trans hdecp')
    have hk' : k ≠ "SigningPubKey" ∧ k ≠ "TxnSignature" := by simpa [signatureFields] using hk
    refine hdiff ?_
    calc coded code signed k = coded code decoded k := (hcoded k).symm
      _ = coded code prepared k := by
        rw [hP.coded_same hsame, coded_withSignature, if_neg hk'.2, if_neg hk'.1]
      _ = coded code canonical k := hcodedp k

/-! ## A codec of two transactions -/

namespace Sample

def textFields : List String :=
  ["TransactionType", "Account", "Destination", "Amount", "Flags", "Fee", "Sequence",
    "LastLedgerSequence", "SigningPubKey", "TxnSignature"]

/-- The code of a string or a number is its text. -/
def textCode : FieldCode := fun k v =>
  if k ∈ textFields then
    match v with
    | .str s => some (quote s)
    | .num n => some (toString n)
    | _ => none
  else none

def xrpPayment : IntentPayload := .payment ⟨"rA", "rB", .xrp "25", none⟩

/-- The canonical form of the prepared payment, unsigned and signed, each with its blob. -/
def blobs : List (Record × String) :=
  let unsigned := ((buildTransaction xrpPayment params).remove "DeliverMax").set "Amount" (.str "25")
  [(unsigned, "0A"), (withSignature unsigned "ED01" "AB", "0AB1")]

def encodeText (t : Record) : Except String String :=
  match blobs.find? fun entry =>
    textFields.all fun k => coded textCode t k = coded textCode entry.1 k with
  | some entry => .ok entry.2
  | none => .error "unknown transaction"

def decodeText (blob : String) : Except String Record :=
  match blobs.find? fun entry => entry.2 = blob with
  | some entry => .ok entry.1
  | none => .error "unknown blob"

/-- The texts of the fields that are signed. -/
def signingText (t : Record) : String :=
  String.join ((textFields.erase "TxnSignature").map fun k => (coded textCode t k).getD "")

/-- The only valid signatures are those of ED01, which are AB. -/
def textCodec : Platform :=
  { platform with
    encode := encodeText
    decode := decodeText
    encodeForSigning := fun t => .ok (signingText t)
    verifyKeypairSignature := fun _ signature key => .ok (signature == "AB" && key == "ED01") }

theorem coded_textCode {k : String} (hk : k ∉ textFields) (t : Record) :
    coded textCode t k = none := by
  rw [coded]
  cases t.get? k <;> simp [textCode, hk]

theorem encodeText_ok {t : Record} {blob : String} (h : encodeText t = .ok blob) :
    ∃ entry ∈ blobs, entry.2 = blob ∧ ∀ k, coded textCode entry.1 k = coded textCode t k := by
  unfold encodeText at h
  split at h
  next entry hfind =>
    refine ⟨entry, List.mem_of_find?_eq_some hfind, Except.ok.inj h, fun k => ?_⟩
    by_cases hk : k ∈ textFields
    · have hall := List.find?_some hfind
      exact (of_decide_eq_true (List.all_eq_true.mp hall k hk)).symm
    · rw [coded_textCode hk, coded_textCode hk]
  next => cases h

theorem encodeText_congr {t t' : Record} (h : ∀ k, coded textCode t k = coded textCode t' k) :
    encodeText t = encodeText t' := by
  simp only [encodeText, h]

theorem normalCodec : NormalCodec textCodec textCode fun k v => (textCode k v).isSome where
  decode_encode t blob h := by
    obtain ⟨entry, he, rfl, hcoded⟩ := encodeText_ok h
    have hdec : ∀ entry ∈ blobs, decodeText entry.2 = .ok entry.1 := by decide
    exact ⟨entry.1, hdec entry he, hcoded⟩
  decode_normal blob t h k v hv := by
    have hall : ∀ entry ∈ blobs, ∀ f ∈ entry.1, (textCode f.1 f.2).isSome := by decide
    change decodeText blob = .ok t at h
    unfold decodeText at h
    split at h
    next entry hfind =>
      obtain rfl := Except.ok.inj h
      exact hall entry (List.mem_of_find?_eq_some hfind) _ (Record.mem_of_get? hv)
    next => cases h
  normal_coded _ _ h := h
  normal_unique k v v' h h' heq := by
    have htext (v : Json) (h : (textCode k v).isSome) :
        v.Exact ∧ textCode k v = some v.stringify := by
      unfold textCode at h ⊢
      split_ifs at h ⊢
      · cases v <;> simp_all [Json.Exact, Json.stringify]
      · cases h
    obtain ⟨hexact, ht⟩ := htext v h
    obtain ⟨hexact', ht'⟩ := htext v' h'
    rw [ht, ht'] at heq
    exact stringify_injective hexact hexact' (Option.some.inj heq) ▸ .refl v
  code_same k v v' h := by cases h <;> rfl
  encode_coded t t' blob h _ hcoded := (encodeText_congr hcoded).symm.trans h
  signing_coded t t' message h _ hcoded := by
    have htext : signingText t = signingText t' := by simp only [signingText, hcoded]
    exact (congrArg Except.ok htext).symm.trans h
  encode_upper _ _ _ := rfl
  decode_upper _ _ := rfl
  hash_signed _ _ _ _ _ _ := ⟨_, rfl⟩

end Sample

/-- The exposed payment, signed as it is. -/
theorem verify_accepts_signed : ∃ v, verify Sample.textCodec "0AB1" "0A" = .ok v := by
  obtain ⟨exposed, hexposed, hsigned⟩ := (verify_accepts_iff Sample.textCodec Sample.textCode _
    Sample.normalCodec Sample.jsonbPreserves Sample.xrpPayment Sample.params "0A" (by decide)).2.1
  exact hsigned exposed "ED01" "AB" "0AB1" (.inl (.refl _)) (by decide) (by decide) (by decide)
    (by decide) (by decide) (by
      cases hexposed
      exact ⟨_, _, rfl, rfl, by decide, by decide⟩)

end Orchestrator
