import Orchestrator.Lifecycle.Changes

/-!
# What a settled outcome rests on

Every signed intent in a terminal status has its grounds in the history: the answers that the call
which settled it had received.

* `Backed`: the grounds of an outcome;
* **`reach_backed`**: in every run, every settled signed intent is backed.
-/

namespace Orchestrator

open Interleave

variable (P : Platform)

/-- The grounds of the outcome of a signed intent. -/
inductive Backed (h : History) (r : IntentRow) : Prop
  | validated {pid hash prepared last lookup raw index result} :
      r.status = .validated → FoundBy h pid r hash prepared last lookup raw →
      lookup.ledgerIndex = some index → isConsistent P lookup hash prepared index last = true →
      lookup.transactionResult = some result → isFinalResult result = true →
      r.finalResult = some result → r.finalLedgerIndex = some index → Backed h r
  | refused {pid hash prepared last lookup raw} :
      r.status = .failed → FoundBy h pid r hash prepared last lookup raw →
      (∀ index result, lookup.ledgerIndex = some index → lookup.transactionResult = some result →
        isConsistent P lookup hash prepared index last = false ∨ isFinalResult result = false) →
      Backed h r
  | absent {pid hash prepared last sequence account} :
      r.status = .expired ∨ r.status = .failed →
      AbsentBy h pid r hash prepared last sequence account → Backed h r
  | malformed {pid l result raw} :
      r.status = .rejected → AnsweredBy h pid l r result raw → isMalformed result = true →
      Backed h r

variable {P} {h h' : History} {pid : ℕ} {l : Call} {c cur r : IntentRow}

theorem Backed.mono (hb : Backed P h r) (hh : h <+: h') : Backed P h' r := by
  cases hb with
  | validated h1 h2 h3 h4 h5 h6 h7 h8 => exact .validated h1 (h2.mono hh) h3 h4 h5 h6 h7 h8
  | refused h1 h2 h3 => exact .refused h1 (h2.mono hh) h3
  | absent h1 h2 => exact .absent h1 (h2.mono hh)
  | malformed h1 h2 h3 => exact .malformed h1 (h2.mono hh) h3

theorem isConsistent_iff {lookup : TxLookup} {hash : String} {prepared index last : ℕ} :
    isConsistent P lookup hash prepared index last = true ↔
      lookup.hash.map P.toUpperCase = some hash ∧ prepared < index ∧ index ≤ last := by
  simp only [isConsistent, Bool.and_eq_true, decide_eq_true_eq, and_assoc]

/-! ## Grounds carry over to the row that is written -/

/-- A version whose prepared and signed columns are those of `c`. -/
structure SameArtifact (c r : IntentRow) : Prop where
  id : r.id = c.id
  account : r.sourceAccount = c.sourceAccount
  prepared : r.preparedColumns = c.preparedColumns
  signed : r.signedColumns = c.signedColumns

theorem IntentRow.Le.sameArtifact (hle : c.Le r) (hs : c.status ∈ signedActiveStatuses) :
    SameArtifact c r := by
  have hne : ∀ s : Status, s ∈ signedActiveStatuses → s ≠ .created ∧ s ∉ unsignedActiveStatuses := by
    decide
  obtain ⟨h1, h2⟩ := hne _ hs
  exact ⟨hle.id.symm, hle.account.2.symm, (hle.prepared h1).symm, (hle.signed h1 h2).symm⟩

theorem SameArtifact.columns (hs : SameArtifact c r) :
    r.signedTxBlob = c.signedTxBlob ∧ r.transactionHash = c.transactionHash ∧
      r.preparedLedgerIndex = c.preparedLedgerIndex ∧ r.sequence = c.sequence ∧
      r.lastLedgerSequence = c.lastLedgerSequence :=
  ⟨congrArg (·.1) hs.signed, congrArg (·.2.1) hs.signed, congrArg (·.2.2.1) hs.prepared,
    congrArg (·.2.2.2.1) hs.prepared, congrArg (·.2.2.2.2.2.1) hs.prepared⟩

theorem FoundBy.congr {hash prepared last lookup raw} (hs : SameArtifact c r)
    (hf : FoundBy h pid c hash prepared last lookup raw) :
    FoundBy h pid r hash prepared last lookup raw := by
  obtain ⟨-, h1, h2, -, h3⟩ := hs.columns
  exact ⟨h1.trans hf.hash_eq, h2.trans hf.prepared_eq, h3.trans hf.last_eq, hf.validated, hf.heard⟩

theorem AbsentBy.congr {hash prepared last sequence account} (hs : SameArtifact c r)
    (ha : AbsentBy h pid c hash prepared last sequence account) :
    AbsentBy h pid r hash prepared last sequence account := by
  obtain ⟨-, h1, h2, h3, h4⟩ := hs.columns
  exact ⟨h1.trans ha.hash_eq, h2.trans ha.prepared_eq, h4.trans ha.last_eq, h3.trans ha.sequence_eq,
    ha.fresh, hs.account.symm ▸ ha.heard⟩

theorem AnsweredBy.congr {result raw} (hs : SameArtifact c r)
    (ha : AnsweredBy h pid l c result raw) : AnsweredBy h pid l r result raw := by
  obtain ⟨hl, blob, response, hb, ho⟩ := ha
  exact ⟨hs.id.symm ▸ hl, blob, response, hs.columns.1.trans hb, ho⟩

/-- An unsigned row has no hash. -/
theorem IntentRow.Ok.hash_none (hok : r.Ok P) (hs : r.status ∈ unsignedActiveStatuses) :
    r.transactionHash = none :=
  congrArg (·.2.1) (hok.unsigned (.inr hs)).1

/-- **A move that settles a signed intent backs it.** -/
theorem Move.backed {request : TransitionRequest} (hm : Move P h pid l c request)
    (hok : cur.Ok P) (hle : c.Le cur) (hfrom : cur.status ∈ request.fromStatuses)
    (hcan : canTransition cur.status request.toStatus = true) (t : ℕ)
    (hhash : (request.updated P t cur).transactionHash.isSome)
    (hterm : isTerminal request.toStatus = true) : Backed P h (request.updated P t cur) := by
  have hcur := (hm.keeps hle hok hfrom hcan t).2
  have same : c.status ∈ signedActiveStatuses → SameArtifact c (request.updated P t cur) :=
    fun hs => (hle.trans hcur).sameArtifact hs
  have unsigned : (request.updated P t cur).transactionHash = cur.transactionHash →
      cur.status ∈ unsignedActiveStatuses → Backed P h (request.updated P t cur) := by
    intro he hu
    rw [he, hok.hash_none hu] at hhash
    cases hhash
  cases hm with
  | prepared | simulated | simulationPassed | signed | submitted => cases hterm
  | windowExpired | mismatch | simulationRejected | signatureExpired | sequenceChanged =>
    exact unsigned rfl (List.mem_singleton.mp hfrom ▸ by decide)
  | unsignedExpired => exact unsigned rfl hfrom
  | malformed t hs ha hmal =>
    exact .malformed rfl (ha.congr (same (hs ▸ by decide))) hmal
  | validated t hs hf hidx hcon hres hfin =>
    exact .validated rfl (hf.congr (same hs)) hidx hcon hres hfin rfl rfl
  | inconsistent hs hf hcon =>
    exact .refused rfl (hf.congr (same hs)) fun index _ hidx _ => .inl (hcon index hidx)
  | unexpected hs hf _ _ hres =>
    exact .refused rfl (hf.congr (same hs)) fun _ result _ hr => .inr (hres result hr)
  | absent hs ha => exact .absent (.inl rfl) (ha.congr (same hs))
  | sequenceConflict hs ha => exact .absent (.inr rfl) (ha.congr (same hs))
  | sequenceRegression hs ha => exact .absent (.inr rfl) (ha.congr (same hs))

/-- **In every run**, every settled signed intent is backed. -/
theorem reach_backed {ok : StepCond Op Op.Ret Failure Reply Call State} {k : Sys}
    (hk : Reach (system P) ok k) (hr : r ∈ k.state.db.rows) (hhash : r.transactionHash.isSome)
    (hterm : isTerminal r.status = true) : Backed P k.log r := by
  have hrows := reach_rows (fun h r => r.transactionHash.isSome → isTerminal r.status = true →
    Backed P h r) hk (fun hb hh h1 h2 => (hb h1 h2).mono hh) (fun h r hs _ _ ht => ?_)
    (fun _ hok _ hle hm hfrom hcan h1 h2 => hm.backed hok hle hfrom hcan _ h1 h2)
    (fun _ hok _ _ ht hfrom _ h2 => ?_)
  · exact hrows r hr hhash hterm
  · rw [hs] at ht
    cases ht
  · have hact : ∀ s : Status, s ∈ signedActiveStatuses → isTerminal s = false := by decide
    exact absurd ((hact _ (ht.keeps hok hfrom 0).2.2).symm.trans h2) Bool.false_ne_true

end Orchestrator
