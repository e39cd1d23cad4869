import Orchestrator.Database.Tables
import Orchestrator.Preparation.Build
import Orchestrator.Signing.SignedBlob

/-!
# Versions of a row

The columns of an intent fall into groups, each written on one move of the state machine and kept
from then on. `IntentRow.Le` says what the versions of one row have in common over time, and
`IntentRow.Ok` what every single version satisfies.

* `identity`, `preparedColumns`, `simulationColumns`, `signedColumns`, `submissionColumns`,
  `finalColumns`: the groups;
* `IntentRow.Le`, `Le.refl`, `Le.trans`: the later version of a row;
* `Prepared`, `Signed`, `IntentRow.Ok`: the data a status stands for;
* **`Ok.move`**, `Ok.touch`: what a write has to keep.
-/

namespace Orchestrator

/-- Statuses are left for good. -/
theorem Status.not_back : ∀ {s t : Status}, s.Leads t →
    (s ≠ .created → t ≠ .created) ∧ (s ≠ .created → s ≠ .prepared → t ≠ .prepared) ∧
      (s ≠ .created → s ∉ unsignedActiveStatuses → t ∉ unsignedActiveStatuses) := by
  decide

namespace IntentRow

/-- The columns that are written at creation. -/
def identity (r : IntentRow) :=
  (r.id, r.idempotencyKey, r.requestHash, r.networkId, r.intentType, r.sourceAccount,
    r.intentPayload, r.createdAt)

def preparedColumns (r : IntentRow) :=
  (r.preparedTxJson, r.preparedTxBlob, r.preparedLedgerIndex, r.sequence, r.feeDrops,
    r.lastLedgerSequence, r.preparedAt)

def simulationColumns (r : IntentRow) :=
  (r.simulationEngineResult, r.simulationResult, r.simulatedAt)

def signedColumns (r : IntentRow) :=
  (r.signedTxBlob, r.transactionHash, r.signingPubKey, r.signedAt)

def submissionColumns (r : IntentRow) :=
  (r.submissionAttemptCount, r.submissionValidatedLedger, r.submitEngineResult, r.submitResponse,
    r.lastSubmitAttemptAt, r.submittedAt)

def finalColumns (r : IntentRow) :=
  (r.finalResult, r.finalLedgerIndex, r.finalLedgerHash, r.finalTxJson, r.finalMeta, r.finalizedAt)

/-- `a.Le b`: `b` is `a` or a later version of it. -/
structure Le (a b : IntentRow) : Prop where
  identity : a.identity = b.identity
  leads : a.status.Leads b.status
  prepared : a.status ≠ .created → a.preparedColumns = b.preparedColumns
  simulation : a.status ≠ .created → a.status ≠ .prepared →
    a.simulationColumns = b.simulationColumns
  signed : a.status ≠ .created → a.status ∉ unsignedActiveStatuses →
    a.signedColumns = b.signedColumns
  frozen : a.status = b.status → a.status ∉ signedActiveStatuses → a = b
  baseline : a.submissionValidatedLedger.isSome → b.submissionValidatedLedger.isSome
  attempts : a.submissionAttemptCount ≤ b.submissionAttemptCount

theorem Le.refl (a : IntentRow) : a.Le a where
  identity := rfl
  leads := .refl _
  prepared _ := rfl
  simulation _ _ := rfl
  signed _ _ := rfl
  frozen _ _ := rfl
  baseline h := h
  attempts := le_rfl

theorem Le.trans {a b c : IntentRow} (h : a.Le b) (h' : b.Le c) : a.Le c := by
  obtain ⟨hc, hp, hu⟩ := Status.not_back h.leads
  refine ⟨h.identity.trans h'.identity, h.leads.trans h'.leads,
    fun h1 => (h.prepared h1).trans (h'.prepared (hc h1)),
    fun h1 h2 => (h.simulation h1 h2).trans (h'.simulation (hc h1) (hp h1 h2)),
    fun h1 h2 => (h.signed h1 h2).trans (h'.signed (hc h1) (hu h1 h2)), fun h1 h2 => ?_,
    fun h1 => h'.baseline (h.baseline h1), h.attempts.trans h'.attempts⟩
  have hab : a.status = b.status := h.leads.antisymm (h1 ▸ h'.leads)
  rw [h.frozen hab h2]
  exact h'.frozen (hab ▸ h1) (hab ▸ h2)

theorem Le.id {a b : IntentRow} (h : a.Le b) : a.id = b.id := congrArg (·.1) h.identity

theorem Le.payload {a b : IntentRow} (h : a.Le b) : a.intentPayload = b.intentPayload :=
  congrArg (·.2.2.2.2.2.2.1) h.identity

theorem Le.account {a b : IntentRow} (h : a.Le b) :
    a.networkId = b.networkId ∧ a.sourceAccount = b.sourceAccount :=
  ⟨congrArg (·.2.2.2.1) h.identity, congrArg (·.2.2.2.2.2.1) h.identity⟩

/-- A version in a terminal status is the last one. -/
theorem Le.eq_of_isTerminal {a b : IntentRow} (h : a.Le b) (ht : isTerminal a.status = true) :
    a = b := by
  refine h.frozen (h.leads.eq_of_isTerminal ht).symm ?_
  generalize a.status = s at ht
  revert s
  decide

end IntentRow

/-! ## What a version satisfies -/

variable (P : Platform)

/-- The prepared columns: one built transaction, its blob, and the fields it repeats. -/
def Prepared (r : IntentRow) : Prop :=
  ∃ payload params blob index, asIntentPayload r.intentPayload = .ok payload ∧
    r.preparedTxJson = some (P.jsonb (.obj (buildTransaction payload params))) ∧
    encodeTransaction P (buildTransaction payload params) = .ok blob ∧
    r.preparedTxBlob = some blob ∧ r.preparedLedgerIndex = some index ∧
    r.sequence = some params.sequence ∧ r.feeDrops = some params.fee ∧
    r.lastLedgerSequence = some params.lastLedgerSequence ∧
    params.lastLedgerSequence = lastLedgerSequenceFor index ∧
    isPositiveDrops params.fee = true ∧ digitsValue params.fee ≤ maxFeeDrops ∧
    r.preparedAt.isSome

/-- The signed columns: what `verify` returned for the prepared blob. -/
def Signed (r : IntentRow) : Prop :=
  ∃ txBlob preparedTxBlob v, r.preparedTxBlob = some preparedTxBlob ∧
    verify P txBlob preparedTxBlob = .ok v ∧ r.signedTxBlob = some v.txBlob ∧
    r.transactionHash = some v.transactionHash ∧ r.signingPubKey = some v.signingPubKey ∧
    r.signedAt.isSome

/-- What every version of a row satisfies: the status determines the data. -/
structure IntentRow.Ok (r : IntentRow) : Prop where
  payload : ∃ payload : IntentPayload, r.intentPayload = P.jsonb payload.toJson ∧
    r.sourceAccount = payload.account ∧ r.intentType = payload.type
  unprepared : r.status = .created →
    r.preparedColumns = (none, none, none, none, none, none, none)
  prepared : r.status ≠ .created → Prepared P r
  unsimulated : r.status = .created ∨ r.status = .prepared →
    r.simulationColumns = (none, none, none)
  simulated : r.status = .simulated → r.simulationEngineResult.isSome
  passed : r.status = .awaitingSignature ∨ r.status ∈ signedActiveStatuses ∨
    r.status = .validated → r.simulationEngineResult = some "tesSUCCESS"
  unsigned : r.status = .created ∨ r.status ∈ unsignedActiveStatuses →
    r.signedColumns = (none, none, none, none) ∧
      r.submissionColumns = (0, none, none, none, none, none)
  signed : r.status ∈ signedActiveStatuses ∨ r.status = .validated ∨
    r.signedColumns ≠ (none, none, none, none) → Signed P r
  unsettled : isTerminal r.status = false →
    r.finalColumns = (none, none, none, none, none, none) ∧ r.failureCode = none
  validated : r.finalResult.isSome ↔ r.status = .validated
  failed : r.failureCode.isSome ↔ r.status = .failed

/-! ## Groups of columns move one at a time -/

variable {P} {r r' : IntentRow}

theorem Prepared.congr (h : Prepared P r) (hp : r'.intentPayload = r.intentPayload)
    (hc : r'.preparedColumns = r.preparedColumns) : Prepared P r' := by
  simp only [IntentRow.preparedColumns, Prod.mk.injEq] at hc
  obtain ⟨h1, h2, h3, h4, h5, h6, h7⟩ := hc
  unfold Prepared
  rw [hp, h1, h2, h3, h4, h5, h6, h7]
  exact h

theorem Signed.congr (h : Signed P r) (hc : r'.preparedColumns = r.preparedColumns)
    (hs : r'.signedColumns = r.signedColumns) : Signed P r' := by
  simp only [IntentRow.preparedColumns, IntentRow.signedColumns, Prod.mk.injEq] at hc hs
  obtain ⟨_, h2, _⟩ := hc
  obtain ⟨h1, h3, h4, h5⟩ := hs
  unfold Signed
  rw [h1, h2, h3, h4, h5]
  exact h

namespace IntentRow

theorem engine_of_simulationColumns (h : r'.simulationColumns = r.simulationColumns) :
    r'.simulationEngineResult = r.simulationEngineResult := congrArg (·.1) h

theorem result_of_finalColumns (h : r'.finalColumns = r.finalColumns) :
    r'.finalResult = r.finalResult := congrArg (·.1) h

/-- **A move keeps the data right** when each group of columns is kept, or written on the move
that it belongs to. -/
theorem Ok.move (h : r.Ok P) (hcan : canTransition r.status r'.status = true)
    (hid : r'.identity = r.identity)
    (hprep : (r'.preparedColumns = r.preparedColumns ∧ r'.status ≠ .prepared) ∨
      (r'.status = .prepared ∧ Prepared P r'))
    (hsim : (r'.simulationColumns = r.simulationColumns ∧ r'.status ≠ .simulated) ∨
      (r'.status = .simulated ∧ r'.simulationEngineResult.isSome) ∨ r'.status = .failed)
    (hpass : r'.status = .awaitingSignature → r.simulationEngineResult = some "tesSUCCESS")
    (hsig : (r'.signedColumns = r.signedColumns ∧ r'.status ≠ .signed) ∨
      (r'.status = .signed ∧ Signed P r'))
    (hsub : r'.submissionColumns = r.submissionColumns ∨ r'.status = .submitted ∨
      r'.status = .rejected)
    (hfin : (r'.finalColumns = r.finalColumns ∧ r'.status ≠ .validated) ∨
      (r'.status = .validated ∧ r'.finalResult.isSome))
    (hfail : (r'.failureCode = r.failureCode ∧ r'.status ≠ .failed) ∨
      (r'.status = .failed ∧ r'.failureCode.isSome)) : r'.Ok P := by
  have hpay : r'.intentPayload = r.intentPayload := congrArg (·.2.2.2.2.2.2.1) hid
  have hopen : isTerminal r.status = false := by
    revert hcan
    generalize r.status = s
    generalize r'.status = t
    revert s t
    decide
  have hback : r'.status ≠ .created := by
    revert hcan
    generalize r.status = s
    generalize r'.status = t
    revert s t
    decide
  have hfrom : ∀ s : Status, canTransition s r'.status = true →
      (r'.status ≠ .prepared → s ≠ .created) ∧ (r'.status = .prepared → s = .created) ∧
      (r'.status ∈ signedActiveStatuses ∨ r'.status = .validated →
        r'.status ≠ .signed → s ∈ signedActiveStatuses) ∧ (r'.status = .signed →
        s = .awaitingSignature) ∧ (r'.status ∈ unsignedActiveStatuses →
        s = .created ∨ s ∈ unsignedActiveStatuses) := by
    generalize r'.status = t
    revert t
    decide
  obtain ⟨hf1, hf2, hf3, hf4, hf5⟩ := hfrom _ hcan
  obtain ⟨hu1, hu2⟩ := h.unsettled hopen
  refine ⟨?_, fun hc => absurd hc hback, fun _ => ?_, ?_, fun hs => ?_, fun hs => ?_, ?_, ?_,
    fun ht => ?_, ?_, ?_⟩
  · obtain ⟨payload, h1, h2, h3⟩ := h.payload
    refine ⟨payload, hpay.trans h1, ?_, ?_⟩
    · exact (congrArg (·.2.2.2.2.2.1) hid).trans h2
    · exact (congrArg (·.2.2.2.2.1) hid).trans h3
  · rcases hprep with ⟨hc, hs⟩ | ⟨_, hp⟩
    · exact (h.prepared (hf1 hs)).congr hpay hc
    · exact hp
  · rintro (hs | hs)
    · exact absurd hs hback
    · rcases hsim with ⟨hc, _⟩ | ⟨hs', _⟩ | hs'
      · rw [hc]; exact h.unsimulated (.inl (hf2 hs))
      · rw [hs] at hs'; cases hs'
      · rw [hs] at hs'; cases hs'
  · rcases hsim with ⟨_, hs'⟩ | ⟨_, he⟩ | hs'
    · exact absurd hs hs'
    · exact he
    · rw [hs] at hs'; cases hs'
  · have hcols : r'.simulationColumns = r.simulationColumns := by
      rcases hsim with ⟨hc, _⟩ | ⟨hs', _⟩ | hs'
      · exact hc
      · rw [hs'] at hs; exact absurd hs (by decide)
      · rw [hs'] at hs; exact absurd hs (by decide)
    rw [engine_of_simulationColumns hcols]
    rcases hs with hs | hs
    · exact hpass hs
    · by_cases hsg : r'.status = .signed
      · exact h.passed (.inl (hf4 hsg))
      · exact h.passed (.inr (.inl (hf3 hs hsg)))
  · rintro (hs | hs)
    · exact absurd hs hback
    · obtain ⟨h1, h2⟩ := h.unsigned (hf5 hs)
      refine ⟨?_, ?_⟩
      · rcases hsig with ⟨hc, _⟩ | ⟨hs', _⟩
        · exact hc.trans h1
        · rw [hs'] at hs; exact absurd hs (by decide)
      · rcases hsub with hc | hs' | hs'
        · exact hc.trans h2
        · rw [hs'] at hs; exact absurd hs (by decide)
        · rw [hs'] at hs; exact absurd hs (by decide)
  · intro hs
    rcases hsig with ⟨hc, hns⟩ | ⟨_, hp⟩
    · have hsg : r.status ∈ signedActiveStatuses ∨ r.status = .validated ∨
          r.signedColumns ≠ (none, none, none, none) := by
        rcases hs with hs | hs | hs
        · exact .inl (hf3 (.inl hs) hns)
        · exact .inl (hf3 (.inr hs) hns)
        · exact .inr (.inr (hc ▸ hs))
      rcases hprep with ⟨hc', _⟩ | ⟨hs', _⟩
      · exact (h.signed hsg).congr hc' hc
      · have hcr := hf2 hs'
        rcases hsg with h' | h' | h'
        · rw [hcr] at h'; exact absurd h' (by decide)
        · rw [hcr] at h'; cases h'
        · exact absurd (h.unsigned (.inl hcr)).1 h'
    · exact hp
  · refine ⟨?_, ?_⟩
    · rcases hfin with ⟨hc, _⟩ | ⟨hs', _⟩
      · exact hc.trans hu1
      · rw [hs'] at ht; cases ht
    · rcases hfail with ⟨hc, _⟩ | ⟨hs', _⟩
      · exact hc.trans hu2
      · rw [hs'] at ht; cases ht
  · rcases hfin with ⟨hc, hs⟩ | ⟨hs, hr⟩
    · have hn := result_of_finalColumns (hc.trans (a := r'.finalColumns) rfl)
      have hn' : r.finalResult = none := congrArg (·.1) hu1
      rw [hn, hn']
      simpa using hs
    · simp [hs, hr]
  · rcases hfail with ⟨hc, hs⟩ | ⟨hs, hr⟩
    · rw [hc, hu2]
      simpa using hs
    · simp [hs, hr]

/-- An update of the submission columns of a signed intent keeps the data right. -/
theorem Ok.touch (h : r.Ok P) (hs : r.status ∈ signedActiveStatuses) (hst : r'.status = r.status)
    (hid : r'.identity = r.identity) (hprep : r'.preparedColumns = r.preparedColumns)
    (hsim : r'.simulationColumns = r.simulationColumns)
    (hsig : r'.signedColumns = r.signedColumns) (hfin : r'.finalColumns = r.finalColumns)
    (hfail : r'.failureCode = r.failureCode) : r'.Ok P := by
  have hpay : r'.intentPayload = r.intentPayload := congrArg (·.2.2.2.2.2.2.1) hid
  have hcr : r'.status ≠ .created := by
    rw [hst]; revert hs; generalize r.status = s; revert s; decide
  refine ⟨?_, fun hc => absurd hc hcr, fun _ => (h.prepared (hst ▸ hcr)).congr hpay hprep,
    fun hc => ?_, fun hc => ?_, fun _ => ?_, fun hc => ?_, fun _ => (h.signed (.inl hs)).congr hprep
    hsig, fun ht => ?_, ?_, ?_⟩
  · obtain ⟨payload, h1, h2, h3⟩ := h.payload
    exact ⟨payload, hpay.trans h1, (congrArg (·.2.2.2.2.2.1) hid).trans h2,
      (congrArg (·.2.2.2.2.1) hid).trans h3⟩
  · exact hsim.trans (h.unsimulated (hst ▸ hc))
  · exact engine_of_simulationColumns hsim ▸ h.simulated (hst ▸ hc)
  · exact (engine_of_simulationColumns hsim).trans (h.passed (.inr (.inl hs)))
  · have hno : ∀ s : Status, s ∈ signedActiveStatuses →
        ¬ (s = .created ∨ s ∈ unsignedActiveStatuses) := by decide
    exact absurd (hst ▸ hc) (hno _ hs)
  · rw [hfin, hfail]; exact h.unsettled (hst ▸ ht)
  · rw [result_of_finalColumns hfin, hst]; exact h.validated
  · rw [hfail, hst]; exact h.failed

end IntentRow

end Orchestrator
