import Orchestrator.Common.Platform
import Orchestrator.Common.Errors
import Orchestrator.Xrpl.Types

/-!
# The artifact-integrity boundary

`signed-blob.service.ts` and `signer-authorization.service.ts`: when a signed blob is accepted,
and when its key may sign for the source account.

* `verify`: decode, refuse foreign fields, compare with the prepared blob, check the signature;
* `assertAuthorized`: the master key unless it is disabled, or the current `RegularKey`;
* **`verify_ok`**: what an accepted blob has passed.
-/

namespace Orchestrator

def signedTxMaxHexChars : ℕ := 32768

/-- `/^[A-Fa-f0-9]+$/`. -/
def isHex (s : String) : Bool :=
  !s.toList.isEmpty && s.toList.all fun c =>
    ('A' ≤ c && c ≤ 'F') || ('a' ≤ c && c ≤ 'f') || ('0' ≤ c && c ≤ '9')

/-- Fields that never appear in a transaction this service accepts. -/
def forbiddenSignedFields : List String :=
  ["Signers", "Sponsor", "SponsorFlags", "SponsorSignature", "Delegate", "TicketSequence",
    "AccountTxnID"]

def signatureFields : List String := ["SigningPubKey", "TxnSignature"]

structure VerifiedSignedBlob where
  txBlob : String
  transactionHash : String
  signingPubKey : String
  deriving DecidableEq

def invalid (message : String) : Failure := ApiError .invalidSignedTransaction message

def mismatch : Failure :=
  ApiError .signedTransactionMismatch "The signed transaction differs from the prepared transaction."

/-- An error of a function that is called outside any `try`. -/
def internalError {α : Type} : Except String α → Except Failure α
  | .ok a => .ok a
  | .error message => .error (.internal message)

/-- The entries of the decoded blob without its signature fields; a field the prepared
transaction lacks is refused. -/
def unsignedFields (preparedFields : List String) : Record → Except Failure Record
  | [] => .ok []
  | (field, value) :: rest =>
    if signatureFields.contains field then unsignedFields preparedFields rest
    else if !preparedFields.contains field then .error mismatch
    else (unsignedFields preparedFields rest).map ((field, value) :: ·)

/-- A field that is a non-empty string. -/
def nonEmptyStr (value : Option Json) (failure : Failure) : Except Failure String :=
  match value with
  | some (.str s) => if s = "" then .error failure else .ok s
  | _ => .error failure

variable (P : Platform)

/-- `verifyKeypairSignature(encodeForSigning(payload), …)`, an exception counting as false. -/
def signatureValid (payload : Record) (txnSignature signingPubKey : String) : Bool :=
  match P.encodeForSigning payload with
  | .error _ => false
  | .ok message =>
    match P.verifyKeypairSignature message txnSignature signingPubKey with
    | .ok valid => valid
    | .error _ => false

/-- `if (c) throw failure`. -/
def refuseIf (c : Prop) [Decidable c] (failure : Failure) : Except Failure Unit :=
  if c then .error failure else .ok ()

def refuseForbidden (decoded : Record) : Except Failure Unit :=
  match forbiddenSignedFields.find? fun field => decoded.has field with
  | some field => .error (invalid ("txBlob must not contain " ++ field))
  | none => .ok ()

/-- `SignedBlobService.verify`. A string that is not ASCII fails the hex test, so its length in
UTF-16 units does not matter. -/
def verify (txBlob preparedTxBlob : String) : Except Failure VerifiedSignedBlob := do
  refuseIf (txBlob.length > signedTxMaxHexChars ∨ txBlob.length % 2 ≠ 0 ∨ isHex txBlob = false)
    (invalid "txBlob must be an even-length hex string of at most 32768 characters")
  let normalized := P.toUpperCase txBlob
  let decoded ← (P.decode normalized).mapError fun _ =>
    invalid "txBlob is not a decodable XRPL transaction"
  let txnSignature ← nonEmptyStr (decoded.get? "TxnSignature")
    (invalid "txBlob must carry a single TxnSignature")
  let signingPubKey ← nonEmptyStr (decoded.get? "SigningPubKey")
    (invalid "txBlob must carry a SigningPubKey")
  refuseForbidden decoded
  let prepared ← internalError (P.decode preparedTxBlob)
  let unsigned ← unsignedFields (prepared.map (·.1)) decoded
  let encoded ← internalError (P.encode unsigned)
  refuseIf (P.toUpperCase encoded ≠ preparedTxBlob) mismatch
  refuseIf (signatureValid P (decoded.remove "TxnSignature") txnSignature signingPubKey = false)
    (ApiError .invalidSignature "The transaction signature is not valid.")
  let hash ← internalError (P.hashSignedTx normalized)
  return {
    txBlob := normalized
    transactionHash := P.toUpperCase hash
    signingPubKey := P.toUpperCase signingPubKey }

def notAuthorized (message : String) : Failure := ApiError .signerNotAuthorized message

/-- `SignerAuthorizationService.assertAuthorized`. -/
def assertAuthorized (signingPubKey sourceAccount : String) (account : AccountInfo) :
    Except Failure Unit :=
  match P.deriveAddress signingPubKey with
  | .error _ =>
    .error (notAuthorized "The signing key is not authorized for the source account.")
  | .ok signerAddress =>
    if signerAddress = sourceAccount then
      if account.disableMasterKey then
        .error (notAuthorized "The master key of the source account is disabled.")
      else .ok ()
    else if account.regularKey ≠ some signerAddress then
      .error (notAuthorized "The signing key is not authorized for the source account.")
    else .ok ()

/-! ## What an accepted blob has passed -/

variable {P}

/-- The checks behind an accepted blob. -/
structure Accepted (P : Platform) (txBlob preparedTxBlob : String) (v : VerifiedSignedBlob) : Prop
    where
  hex : isHex txBlob = true
  blob : v.txBlob = P.toUpperCase txBlob
  decoded : ∃ decoded prepared unsigned encoded signature key hash,
    P.decode v.txBlob = .ok decoded ∧ P.decode preparedTxBlob = .ok prepared ∧
    decoded.get? "TxnSignature" = some (.str signature) ∧ signature ≠ "" ∧
    decoded.get? "SigningPubKey" = some (.str key) ∧ key ≠ "" ∧
    unsignedFields (prepared.map (·.1)) decoded = .ok unsigned ∧
    P.encode unsigned = .ok encoded ∧ P.toUpperCase encoded = preparedTxBlob ∧
    signatureValid P (decoded.remove "TxnSignature") signature key = true ∧
    P.hashSignedTx v.txBlob = .ok hash ∧ v.transactionHash = P.toUpperCase hash ∧
    v.signingPubKey = P.toUpperCase key

theorem Except.bind_eq_ok {ε α β : Type} {x : Except ε α} {f : α → Except ε β} {b : β} :
    (x >>= f) = .ok b ↔ ∃ a, x = .ok a ∧ f a = .ok b := by
  cases x <;> simp [bind, Except.bind]

theorem nonEmptyStr_ok {value : Option Json} {failure : Failure} {s : String}
    (h : nonEmptyStr value failure = .ok s) : value = some (.str s) ∧ s ≠ "" := by
  unfold nonEmptyStr at h
  split at h
  · split at h
    · cases h
    · next hs => cases h; exact ⟨rfl, hs⟩
  · cases h

theorem internalError_ok {α : Type} {x : Except String α} {a : α}
    (h : internalError x = .ok a) : x = .ok a := by
  cases x with
  | ok b => cases h; rfl
  | error e => cases h

theorem refuseIf_ok {c : Prop} [Decidable c] {failure : Failure} {u : Unit}
    (h : refuseIf c failure = .ok u) : ¬ c := by
  unfold refuseIf at h
  split at h
  · cases h
  · assumption

theorem mapError_ok {ε ε' α : Type} {f : ε → ε'} {x : Except ε α} {a : α}
    (h : x.mapError f = .ok a) : x = .ok a := by
  cases x with
  | ok b => cases h; rfl
  | error e => cases h

/-- What the loop over the decoded fields leaves. -/
theorem unsignedFields_ok {preparedFields : List String} {decoded unsigned : Record}
    (h : unsignedFields preparedFields decoded = .ok unsigned) :
    unsigned = (decoded.remove "SigningPubKey").remove "TxnSignature" := by
  induction decoded generalizing unsigned with
  | nil =>
    cases h
    rfl
  | cons f rest ih =>
    obtain ⟨field, value⟩ := f
    unfold unsignedFields at h
    by_cases hs : signatureFields.contains field = true
    · rw [if_pos hs] at h
      have hf : field = "SigningPubKey" ∨ field = "TxnSignature" := by
        simpa [signatureFields] using hs
      rw [ih h]
      rcases hf with rfl | rfl <;> simp [Record.remove]
    · rw [if_neg hs] at h
      have hf : field ≠ "SigningPubKey" ∧ field ≠ "TxnSignature" := by
        simpa [signatureFields] using hs
      split_ifs at h
      cases hu : unsignedFields preparedFields rest with
      | error e => simp [hu, Except.map] at h
      | ok u =>
        simp only [hu, Except.map, Except.ok.injEq] at h
        rw [← h, ih hu]
        simp [Record.remove, hf.1, hf.2]

/-- **An accepted blob has passed every check.** -/
theorem verify_ok {txBlob preparedTxBlob : String} {v : VerifiedSignedBlob}
    (h : verify P txBlob preparedTxBlob = .ok v) : Accepted P txBlob preparedTxBlob v := by
  simp only [verify, Except.bind_eq_ok] at h
  obtain ⟨_, h1, decoded, h2, signature, h3, key, h4, _, _, prepared, h6, unsigned, h7, encoded,
    h8, _, h9, _, h10, hash, h11, h12⟩ := h
  cases h12
  obtain ⟨h3, hs⟩ := nonEmptyStr_ok h3
  obtain ⟨h4, hk⟩ := nonEmptyStr_ok h4
  refine ⟨?_, rfl, decoded, prepared, unsigned, encoded, signature, key, hash, mapError_ok h2,
    internalError_ok h6, h3, hs, h4, hk, h7, internalError_ok h8, ?_, ?_, internalError_ok h11,
    rfl, rfl⟩
  · simpa using (not_or.mp (not_or.mp (refuseIf_ok h1)).2).2
  · simpa using refuseIf_ok h9
  · simpa using refuseIf_ok h10

end Orchestrator
