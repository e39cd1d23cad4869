import Orchestrator.Runtime.System
import Orchestrator.Lifecycle.Rows

/-!
# The moves of an intent and what they rest on

Every write of the services is decided on a version of the row that the call has read before, and
on answers it has received. `Move` and `Touch` list all of them, each with its grounds.

* `answers`, `Heard`: the answers a call has received, in order;
* `FoundBy`, `AbsentBy`, `AccountRead`, `SimulatedBy`, `AnsweredBy`: what the answers show;
* `Move`: the transitions; `Touch`: the updates that keep the status;
* `Move.mono`, `Touch.mono`: grounds stay grounds.
-/

namespace Orchestrator

open Interleave

abbrev History := List (Entry Op Op.Ret Call)

/-- The answer that an entry brings to call `pid`. -/
def answer? (pid : ℕ) : Entry Op Op.Ret Call → Option (LedgerRequest × LedgerResponse)
  | ⟨p, _, .receive q, .ok r⟩ => if p = pid then some (q, r) else none
  | _ => none

/-- The answers call `pid` has received, in order. -/
def answers (h : History) (pid : ℕ) : List (LedgerRequest × LedgerResponse) :=
  h.filterMap (answer? pid)

/-- Call `pid` has received these answers, in this order. -/
def Heard (h : History) (pid : ℕ) (qs : List (LedgerRequest × LedgerResponse)) : Prop :=
  qs.Sublist (answers h pid)

section Heard

variable {h h' : History} {pid : ℕ} {qs qs' : List (LedgerRequest × LedgerResponse)}

theorem Heard.nil : Heard h pid [] := List.nil_sublist _

theorem Heard.mono (hq : Heard h pid qs) (hh : h <+: h') : Heard h' pid qs :=
  hq.trans (hh.filterMap _).sublist

theorem Heard.of_sublist (hq : Heard h pid qs) (hs : qs'.Sublist qs) : Heard h pid qs' :=
  hs.trans hq

/-- An answer comes after those received before. -/
theorem Heard.snoc (hq : Heard h pid qs) (l : Call) (q : LedgerRequest) (r : LedgerResponse) :
    Heard (h ++ [⟨pid, l, .receive q, .ok r⟩]) pid (qs ++ [(q, r)]) := by
  have ha : answers (h ++ [⟨pid, l, .receive q, .ok r⟩]) pid = answers h pid ++ [(q, r)] := by
    simp [answers, answer?]
  rw [Heard, ha]
  exact hq.append (List.Sublist.refl _)

/-- What was heard is in the history. -/
theorem Heard.mem (hq : Heard h pid qs) {q : LedgerRequest} {r : LedgerResponse}
    (hm : (q, r) ∈ qs) : ∃ l, ⟨pid, l, .receive q, .ok r⟩ ∈ h := by
  obtain ⟨e, he, ha⟩ := List.mem_filterMap.mp (hq.subset hm)
  unfold answer? at ha
  split at ha
  · next p l q' r' =>
    split at ha
    · next hp =>
      cases ha
      exact ⟨l, hp ▸ he⟩
    · cases ha
  · cases ha

end Heard

variable (P : Platform) (h : History) (pid : ℕ) (l : Call) (c : IntentRow)

/-! ## Grounds -/

/-- A validated answer about the stored hash, within the range of the intent. -/
structure FoundBy (hash : String) (prepared last : ℕ) (lookup : TxLookup) (raw : Record) : Prop
    where
  hash_eq : c.transactionHash = some hash
  prepared_eq : c.preparedLedgerIndex = some prepared
  last_eq : c.lastLedgerSequence = some last
  validated : lookup.validated = true
  heard : ∃ r, Heard h pid [(.tx hash (prepared + 1) last, r)] ∧ readTx r = .ok (.found lookup raw)

/-- The window has passed, the transaction is in no ledger of its range, and the account was read;
one that exists, from a validated ledger beyond the window. -/
structure AbsentBy (hash : String) (prepared last sequence : ℕ) (account : Option AccountInfo) :
    Prop where
  hash_eq : c.transactionHash = some hash
  prepared_eq : c.preparedLedgerIndex = some prepared
  last_eq : c.lastLedgerSequence = some last
  sequence_eq : c.sequence = some sequence
  fresh : ∀ a, account = some a → last < a.ledgerIndex.getD 0
  heard : ∃ r₁ r₂ r₃ n, Heard h pid [(.ledger, r₁), (.tx hash (prepared + 1) last, r₂),
      (.accountInfo c.sourceAccount false, r₃)] ∧
    readLedgerIndex r₁ = .ok n ∧ last < n ∧ readTx r₂ = .ok (.absent true) ∧
    readAccountInfo r₃ = .ok account

/-- The validated account a signature is checked against, and the ledger it is as of. -/
def AccountRead (account : AccountInfo) (n : ℕ) : Prop :=
  ∃ r, readAccountInfo r = .ok (some account) ∧
    ((account.ledgerIndex = some n ∧ Heard h pid [(.accountInfo c.sourceAccount false, r)]) ∨
      ∃ r', account.ledgerIndex = none ∧ readLedgerIndex r' = .ok n ∧
        Heard h pid [(.accountInfo c.sourceAccount false, r), (.ledger, r')])

/-- The call attaches a blob that has passed its checks against the prepared blob. -/
def BlobChecked (verified : VerifiedSignedBlob) : Prop :=
  ∃ txBlob preparedTxBlob, l = .attachSignature c.id txBlob ∧
    c.preparedTxBlob = some preparedTxBlob ∧ verify P txBlob preparedTxBlob = .ok verified

/-- A validated ledger index. -/
def LedgerRead (n : ℕ) : Prop :=
  ∃ r, Heard h pid [(.ledger, r)] ∧ readLedgerIndex r = .ok n

/-- The answer to a simulation of the stored transaction. -/
def SimulatedBy (prepared : Record) (result : SimulationResult) (raw : Record) : Prop :=
  storedTransaction c = .ok prepared ∧ ∃ canonical r, toCanonicalForm prepared = .ok canonical ∧
    Heard h pid [(.simulate canonical, r)] ∧ readSimulation canonical r = .ok (result, raw)

/-- The answer to a submission of the stored blob. -/
def AnsweredBy (result : SubmitResult) (raw : Record) : Prop :=
  l = .submit c.id ∧ ∃ blob r, c.signedTxBlob = some blob ∧ Heard h pid [(.submit blob, r)] ∧
    readSubmit blob r = .ok (result, raw)

/-- The five answers a prepared transaction is built from. -/
def BuiltBy (payload : IntentPayload) (params : PreparationParams) (index : ℕ) (blob : String) :
    Prop :=
  ∃ (validated current : AccountInfo) (openFee : String) (r₁ r₂ r₃ r₄ : LedgerResponse),
    asIntentPayload c.intentPayload = .ok payload ∧
    Heard h pid [(.accountInfo payload.account false, r₁), (.accountInfo payload.account true, r₂),
      (.ledger, r₃), (.fee, r₄)] ∧
    readAccountInfo r₁ = .ok (some validated) ∧ readCurrentAccount payload.account r₂ = .ok current ∧
    assertQuiescent validated current = .ok () ∧ readLedgerIndex r₃ = .ok index ∧
    readOpenLedgerFee r₄ = .ok openFee ∧ checkFee openFee = .ok params.fee ∧
    params.sequence = validated.sequence ∧
    params.lastLedgerSequence = lastLedgerSequenceFor index ∧
    buildBlob P (buildTransaction payload params) = .ok blob

/-! ## Writes -/

/-- Every transition the services ask for, with its grounds; `c` is the version of the row it was
decided on. -/
inductive Move : TransitionRequest → Prop
  | prepared {payload params index blob} (t : ℕ) :
      c.status = .created → BuiltBy P h pid c payload params index blob →
      Move (preparedRequest (buildTransaction payload params) blob index params.sequence params.fee
        params.lastLedgerSequence t)
  | windowExpired {last n} :
      c.status = .prepared → c.lastLedgerSequence = some last → LedgerRead h pid n → last < n →
      Move (windowExpiredRequest last)
  | mismatch {prepared result raw} :
      c.status = .prepared → SimulatedBy h pid c prepared result raw →
      simulationMatchesPrepared P prepared result.txJson = false → Move (mismatchRequest raw)
  | simulated {prepared result raw} (t : ℕ) :
      c.status = .prepared → SimulatedBy h pid c prepared result raw →
      simulationMatchesPrepared P prepared result.txJson = true →
      Move (simulatedRequest result raw t)
  | simulationPassed :
      c.status = .simulated → c.simulationEngineResult = some "tesSUCCESS" →
      Move simulationPassedRequest
  | simulationRejected {engineResult} :
      c.status = .simulated → c.simulationEngineResult = some engineResult →
      engineResult ≠ "tesSUCCESS" → Move (simulationRejectedRequest
        [("engineResult", .str engineResult), ("engineResultMessage", engineResultMessage c)])
  | signatureExpired {account last n verified} :
      c.status = .awaitingSignature → c.lastLedgerSequence = some last →
      AccountRead h pid c account n → last < n → BlobChecked P l c verified →
      Move (signatureExpiredRequest last n)
  | sequenceChanged {account last n sequence verified} :
      c.status = .awaitingSignature → c.lastLedgerSequence = some last → c.sequence = some sequence →
      AccountRead h pid c account n → n ≤ last → BlobChecked P l c verified →
      assertAuthorized P verified.signingPubKey c.sourceAccount account = .ok () →
      account.sequence ≠ sequence → Move (sequenceChangedRequest account.sequence sequence)
  | signed {account last n txBlob preparedTxBlob verified} (t : ℕ) :
      c.status = .awaitingSignature → c.lastLedgerSequence = some last →
      c.sequence = some account.sequence → AccountRead h pid c account n → n ≤ last →
      l = .attachSignature c.id txBlob → c.preparedTxBlob = some preparedTxBlob →
      verify P txBlob preparedTxBlob = .ok verified →
      assertAuthorized P verified.signingPubKey c.sourceAccount account = .ok () →
      Move (signedRequest verified t)
  | malformed {result raw} (t : ℕ) :
      c.status = .signed → AnsweredBy h pid l c result raw → isMalformed result = true →
      Move (malformedRequest result raw t)
  | submitted {result raw} (t : ℕ) :
      c.status = .signed → AnsweredBy h pid l c result raw → isMalformed result = false →
      Move (submittedRequest result raw t)
  | unsignedExpired {last n} :
      c.status ∈ unsignedActiveStatuses → c.lastLedgerSequence = some last → LedgerRead h pid n →
      last < n → Move (unsignedExpiredRequest last n)
  | validated {hash prepared last lookup raw result index} (t : ℕ) :
      c.status ∈ signedActiveStatuses → FoundBy h pid c hash prepared last lookup raw →
      lookup.ledgerIndex = some index → isConsistent P lookup hash prepared index last = true →
      lookup.transactionResult = some result → isFinalResult result = true →
      Move (validatedRequest P lookup raw result index t)
  | inconsistent {hash prepared last lookup raw} :
      c.status ∈ signedActiveStatuses → FoundBy h pid c hash prepared last lookup raw →
      (∀ index, lookup.ledgerIndex = some index →
        isConsistent P lookup hash prepared index last = false) →
      Move (failRequest .finalityIntegrityError (integrityDetails lookup))
  | unexpected {hash prepared last lookup raw index} :
      c.status ∈ signedActiveStatuses → FoundBy h pid c hash prepared last lookup raw →
      lookup.ledgerIndex = some index → isConsistent P lookup hash prepared index last = true →
      (∀ result, lookup.transactionResult = some result → isFinalResult result = false) →
      Move (failRequest .unexpectedValidatedResult
        [("finalResult", strOrNull lookup.transactionResult)])
  | absent {hash prepared last sequence account} :
      c.status ∈ signedActiveStatuses → AbsentBy h pid c hash prepared last sequence account →
      account.map (·.sequence) = some sequence → Move (absentRequest last sequence)
  | sequenceConflict {hash prepared last sequence account} :
      c.status ∈ signedActiveStatuses → AbsentBy h pid c hash prepared last sequence account →
      (∀ a, account = some a → a.sequence > sequence) →
      Move (failRequest .sequenceConflict (sequenceDetails sequence (account.map (·.sequence))))
  | sequenceRegression {hash prepared last sequence account} :
      c.status ∈ signedActiveStatuses →
      AbsentBy h pid c hash prepared last sequence (some account) → account.sequence < sequence →
      Move (failRequest .sequenceRegression (sequenceDetails sequence (some account.sequence)))

/-- Every update that keeps the status, with its grounds. -/
inductive Touch : List Status → IntentPatch → Prop
  | baseline {n} :
      l = .submit c.id → c.status ∈ signedActiveStatuses → c.submissionValidatedLedger = none →
      LedgerRead h pid n → Touch [.signed] (baseline n)
  | attempted (t : ℕ) :
      l = .submit c.id → c.status ∈ signedActiveStatuses → Touch signedActiveStatuses (attempted t)
  | resubmitted {result raw} (t : ℕ) :
      c.status = .submitted → AnsweredBy h pid l c result raw →
      Touch [.submitted] (recorded result raw t)

/-! ## Grounds stay grounds -/

variable {P h pid l c} {h' : History}

theorem FoundBy.mono {hash prepared last lookup raw}
    (hf : FoundBy h pid c hash prepared last lookup raw) (hh : h <+: h') :
    FoundBy h' pid c hash prepared last lookup raw :=
  { hf with heard := let ⟨r, hr, ho⟩ := hf.heard; ⟨r, hr.mono hh, ho⟩ }

theorem AbsentBy.mono {hash prepared last sequence account}
    (ha : AbsentBy h pid c hash prepared last sequence account) (hh : h <+: h') :
    AbsentBy h' pid c hash prepared last sequence account :=
  { ha with heard := let ⟨r₁, r₂, r₃, n, hr, ho⟩ := ha.heard; ⟨r₁, r₂, r₃, n, hr.mono hh, ho⟩ }

theorem AccountRead.mono {account n} (ha : AccountRead h pid c account n) (hh : h <+: h') :
    AccountRead h' pid c account n := by
  obtain ⟨r, hr, ⟨hi, ho⟩ | ⟨r', hi, hr', ho⟩⟩ := ha
  · exact ⟨r, hr, .inl ⟨hi, ho.mono hh⟩⟩
  · exact ⟨r, hr, .inr ⟨r', hi, hr', ho.mono hh⟩⟩

theorem LedgerRead.mono {n} (hl : LedgerRead h pid n) (hh : h <+: h') : LedgerRead h' pid n :=
  let ⟨r, hr, ho⟩ := hl; ⟨r, hr.mono hh, ho⟩

theorem SimulatedBy.mono {prepared result raw} (hs : SimulatedBy h pid c prepared result raw)
    (hh : h <+: h') : SimulatedBy h' pid c prepared result raw :=
  let ⟨ht, canonical, r, hc, hr, ho⟩ := hs; ⟨ht, canonical, r, hc, hr.mono hh, ho⟩

theorem AnsweredBy.mono {result raw} (ha : AnsweredBy h pid l c result raw) (hh : h <+: h') :
    AnsweredBy h' pid l c result raw :=
  let ⟨hl, blob, r, hb, hr, ho⟩ := ha; ⟨hl, blob, r, hb, hr.mono hh, ho⟩

end Orchestrator
