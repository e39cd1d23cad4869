import Orchestrator.Lifecycle.Changes

/-!
# The exact artifact

What is submitted is what was prepared, simulated and signed. The columns of a row hold one
transaction, its blob, and a signed blob that is this transaction with a signature; the simulation
that let it be signed was of this transaction, and echoed it.

* `PreparedArtifact`, `SignedArtifact`, `SimulatedArtifact`, `ExactArtifact`;
* `IntentRow.Ok.preparedArtifact`, `IntentRow.Ok.signedArtifact`: what the columns hold;
* `reach_simulated`: in every run, a passed simulation was answered;
* **`exact_artifact`**.
-/

namespace Orchestrator

open Interleave

variable (P : Platform)

/-- The prepared columns of `row` hold `transaction`, its encoding and its fields. -/
structure PreparedArtifact (row : IntentRow) (transaction : Record) (preparedTxBlob : String) :
    Prop where
  stored : storedTransaction row = .ok transaction
  built : ∃ payload params, asIntentPayload row.intentPayload = .ok payload ∧
    Record.Same (buildTransaction payload params) transaction
  encoded : encodeTransaction P transaction = .ok preparedTxBlob
  blob : row.preparedTxBlob = some preparedTxBlob
  account : transaction.get? "Account" = some (.str row.sourceAccount)
  sequence : ∃ n : ℕ, row.sequence = some n ∧ transaction.get? "Sequence" = some (.num n)
  fee : ∃ fee, row.feeDrops = some fee ∧ transaction.get? "Fee" = some (.str fee) ∧
    isPositiveDrops fee = true ∧ 1 ≤ digitsValue fee ∧ digitsValue fee ≤ 1000
  window : ∃ index last : ℕ, row.preparedLedgerIndex = some index ∧ last = index + 20 ∧
    row.lastLedgerSequence = some last ∧ transaction.get? "LastLedgerSequence" = some (.num last)

/-- The signed columns of `row` hold `txBlob` and its hash, and without its signature fields it
encodes to the prepared blob. -/
structure SignedArtifact (row : IntentRow) (txBlob preparedTxBlob : String) : Prop where
  blob : row.signedTxBlob = some txBlob
  hash : ∃ hash, P.hashSignedTx txBlob = .ok hash ∧
    row.transactionHash = some (P.toUpperCase hash)
  decoded : ∃ decoded encoded, P.decode txBlob = .ok decoded ∧
    P.encode ((decoded.remove "SigningPubKey").remove "TxnSignature") = .ok encoded ∧
    P.toUpperCase encoded = preparedTxBlob

/-- The transaction that a simulation echoes encodes to the prepared blob. -/
def Echoes (result : SimulationResult) (preparedTxBlob : String) : Prop :=
  ∃ echoed canonical encoded, result.txJson = some echoed ∧ toCanonicalForm echoed = .ok canonical ∧
    encodeComparableTransaction P canonical = .ok encoded ∧ P.toUpperCase encoded = preparedTxBlob

/-- A simulation of exactly `transaction` was answered with `tesSUCCESS` and echoed it. -/
def SimulatedArtifact (h : History) (row : IntentRow) (transaction : Record)
    (preparedTxBlob : String) : Prop :=
  ∃ pid result raw, SimulatedBy h pid row transaction result raw ∧
    result.engineResult = "tesSUCCESS" ∧ Echoes P result preparedTxBlob

def ExactArtifact (h : History) (row : IntentRow) (txBlob : String) : Prop :=
  ∃ transaction preparedTxBlob, PreparedArtifact P row transaction preparedTxBlob ∧
    SignedArtifact P row txBlob preparedTxBlob ∧
    SimulatedArtifact P h row transaction preparedTxBlob

variable {P} {h : History} {pid : ℕ} {l : Call} {row row' c cur : IntentRow}
  {transaction : Record} {txBlob preparedTxBlob : String}

/-! ## What the columns hold -/

/-- A transaction is read back from its column as it was built, up to the order of keys. -/
theorem storedTransaction_of (hjson : P.JsonbPreserves) {t : Record}
    (h : row.preparedTxJson = some (P.jsonb (.obj t))) :
    ∃ t', storedTransaction row = .ok t' ∧ Record.Same t t' := by
  obtain ⟨t', ht', hs⟩ := (hjson (.obj t)).obj_left
  refine ⟨t', ?_, hs⟩
  simp [storedTransaction, h, ht', asRecord]

theorem IntentRow.Ok.preparedArtifact (hkey : P.EncodeByKey) (hjson : P.JsonbPreserves)
    (hok : row.Ok P) (hs : row.status ≠ .created) : ∃ transaction preparedTxBlob,
      PreparedArtifact P row transaction preparedTxBlob := by
  obtain ⟨payload, params, blob, index, hpay, hjs, henc, hblob, hidx, hseq, hfee, hlast, hwin, hpos,
    hcap, -⟩ := hok.prepared hs
  obtain ⟨t, ht, hsame⟩ := storedTransaction_of hjson hjs
  obtain ⟨payload', hcol, hacc, -⟩ := hok.payload
  have hread := asIntentPayload_same payload' (hjson payload'.toJson)
  rw [← hcol, hpay] at hread
  cases hread
  obtain ⟨g1, g2, g3, g4, g5⟩ := buildTransaction_get payload params
  exact ⟨t, blob, ht, ⟨payload, params, hpay, hsame⟩,
    (encodeTransaction_same hkey hsame g5).symm.trans henc, hblob,
    hacc ▸ hsame.get_str g1, ⟨_, hseq, hsame.get_num g2⟩,
    ⟨_, hfee, hsame.get_str g3, hpos, digitsValue_pos hpos, hcap⟩,
    ⟨index, _, hidx, hwin, hlast, hsame.get_num g4⟩⟩

theorem IntentRow.Ok.not_unsigned (hok : row.Ok P) (hb : row.signedTxBlob = some txBlob) :
    row.status ≠ .created ∧ row.status ∉ unsignedActiveStatuses := by
  have h : ¬ (row.status = .created ∨ row.status ∈ unsignedActiveStatuses) := by
    intro hs
    have hn := congrArg (·.1) (hok.unsigned hs).1
    cases hb.symm.trans hn
  exact not_or.mp h

/-- A stored blob stays as it is. -/
theorem IntentRow.Le.signedTxBlob (hle : row.Le row') (hok : row.Ok P)
    (hb : row.signedTxBlob = some txBlob) : row'.signedTxBlob = some txBlob := by
  obtain ⟨h1, h2⟩ := hok.not_unsigned hb
  exact (congrArg (·.1) (hle.signed h1 h2)).symm.trans hb

theorem IntentRow.Ok.signedArtifact (hok : row.Ok P) (hb : row.signedTxBlob = some txBlob)
    (hp : row.preparedTxBlob = some preparedTxBlob) : SignedArtifact P row txBlob preparedTxBlob := by
  have hsigned : row.signedColumns ≠ (none, none, none, none) := by
    intro hn
    cases hb.symm.trans (congrArg (·.1) hn)
  obtain ⟨given, prepared, v, hp', hver, hb', hh, -⟩ := hok.signed (.inr (.inr hsigned))
  obtain rfl := Option.some.inj (hp.symm.trans hp')
  obtain rfl := Option.some.inj (hb.symm.trans hb')
  obtain ⟨decoded, _, unsigned, encoded, _, _, hash, h1, -, -, -, -, -, h2, h3, h4, -, h5, h6, -⟩ :=
    (verify_ok hver).decoded
  rw [unsignedFields_ok h2] at h3
  exact ⟨hb, ⟨hash, h5, h6 ▸ hh⟩, decoded, encoded, h1, h3, h4⟩

/-! ## What the simulation showed -/

variable (P) in
/-- A simulation of the stored transaction that passed. -/
def Simulated (h : History) (row : IntentRow) : Prop :=
  ∃ pid transaction result raw, SimulatedBy h pid row transaction result raw ∧
    result.engineResult = "tesSUCCESS" ∧
    simulationMatchesPrepared P transaction result.txJson = true

theorem SimulatedBy.congr {result : SimulationResult} {raw : Record}
    (hs : SimulatedBy h pid c transaction result raw) (hj : row.preparedTxJson = c.preparedTxJson) :
    SimulatedBy h pid row transaction result raw := by
  obtain ⟨ht, ho⟩ := hs
  refine ⟨?_, ho⟩
  unfold storedTransaction at ht ⊢
  rw [hj]
  split at ht
  · exact ht
  · cases ht

theorem Simulated.congr (hs : Simulated P h c) (hj : row.preparedTxJson = c.preparedTxJson) :
    Simulated P h row :=
  let ⟨pid, t, result, raw, hs, ho⟩ := hs; ⟨pid, t, result, raw, hs.congr hj, ho⟩

theorem Simulated.mono {h' : History} (hs : Simulated P h row) (hh : h <+: h') :
    Simulated P h' row :=
  let ⟨pid, t, result, raw, hs, ho⟩ := hs; ⟨pid, t, result, raw, hs.mono hh, ho⟩

/-- The move that records a passed simulation rests on it. -/
theorem Move.simulated_row {request : TransitionRequest} (hm : Move P h pid l c request)
    (hprev : cur.simulationEngineResult = some "tesSUCCESS" → Simulated P h cur)
    (hok : cur.Ok P) (hle : c.Le cur) (hfrom : cur.status ∈ request.fromStatuses) (t : ℕ)
    (hres : (request.updated P t cur).simulationEngineResult = some "tesSUCCESS") :
    Simulated P h (request.updated P t cur) := by
  have kept : (request.updated P t cur).simulationEngineResult = cur.simulationEngineResult →
      (request.updated P t cur).preparedTxJson = cur.preparedTxJson →
      Simulated P h (request.updated P t cur) :=
    fun he hj => (hprev (he ▸ hres)).congr hj
  cases hm with
  | prepared t hs hb =>
    have hnone := congrArg (·.1) (hok.unsimulated (.inl (List.mem_singleton.mp hfrom)))
    cases hres.symm.trans hnone
  | simulated t hs hsim hmatch =>
    obtain rfl := hle.eq_of_from hs hfrom (by decide)
    exact ⟨pid, _, _, _, hsim.congr rfl, Option.some.inj hres, hmatch⟩
  | _ => exact kept rfl rfl

variable {ok : StepCond Op Op.Ret Failure Reply Call State} {k k' : Sys}
  {a : Act Op Op.Ret Failure Reply Call}

/-- **In every run**, a passed simulation was answered. -/
theorem reach_simulated (hk : Reach (system P) ok k) (hr : row ∈ k.state.db.rows)
    (hres : row.simulationEngineResult = some "tesSUCCESS") : Simulated P k.log row := by
  refine reach_rows (fun h r => r.simulationEngineResult = some "tesSUCCESS" → Simulated P h r) hk
    (fun hs hh he => (hs he).mono hh) (fun h r hs hok he => ?_)
    (fun hprev hok _ hle hm hfrom _ he => hm.simulated_row hprev hok hle hfrom _ he)
    (fun hprev _ _ _ ht _ he => ?_) row hr hres
  · have hnone := congrArg (·.1) (hok.unsimulated (.inl hs))
    cases he.symm.trans hnone
  · cases ht with
    | _ => exact (hprev he).congr rfl

/-- A signature is accepted only after a passed simulation. -/
theorem Move.passed_row {request : TransitionRequest} (hm : Move P h pid l c request)
    (hprev : cur.signedTxBlob.isSome → cur.simulationEngineResult = some "tesSUCCESS")
    (hok : cur.Ok P) (hfrom : cur.status ∈ request.fromStatuses) (t : ℕ)
    (hblob : (request.updated P t cur).signedTxBlob.isSome) :
    (request.updated P t cur).simulationEngineResult = some "tesSUCCESS" := by
  cases hm with
  | simulated t hs hsim hmatch =>
    have hun : cur.status ∈ unsignedActiveStatuses := List.mem_singleton.mp hfrom ▸ by decide
    have hnone : cur.signedTxBlob = none := congrArg (·.1) (hok.unsigned (.inr hun)).1
    change cur.signedTxBlob.isSome at hblob
    rw [hnone] at hblob
    cases hblob
  | signed => exact hok.passed (.inl (List.mem_singleton.mp hfrom))
  | _ => exact hprev hblob

theorem reach_passed (hk : Reach (system P) ok k) (hr : row ∈ k.state.db.rows)
    (hblob : row.signedTxBlob.isSome) : row.simulationEngineResult = some "tesSUCCESS" := by
  refine reach_rows (fun _ r => r.signedTxBlob.isSome → r.simulationEngineResult = some "tesSUCCESS")
    hk (fun hs _ => hs) (fun h r hs hok hb => ?_)
    (fun hprev hok _ _ hm hfrom _ hb => hm.passed_row hprev hok hfrom _ hb)
    (fun hprev _ _ _ ht _ hb => ?_) row hr hblob
  · have hnone : r.signedTxBlob = none := congrArg (·.1) (hok.unsigned (.inl hs)).1
    rw [hnone] at hb
    cases hb
  · cases ht with
    | _ => exact hprev hb

/-- What a simulation matches, it echoes. -/
theorem PreparedArtifact.echoes (hp : PreparedArtifact P row transaction preparedTxBlob)
    {result : SimulationResult}
    (hm : simulationMatchesPrepared P transaction result.txJson = true) :
    Echoes P result preparedTxBlob := by
  obtain ⟨payload, params, -, hsame⟩ := hp.built
  obtain ⟨canonical, hc, hb⟩ := Except.bind_eq_ok.mp hp.encoded
  have hnone : ∀ k ∈ ["SigningPubKey", "TxnSignature", "hash"], canonical.get? k = none := by
    intro k hk
    refine toCanonicalForm_get_none hc (by rintro rfl; simp at hk) (hsame.get_none ?_)
    exact buildTransaction_unsigned payload params k hk
  have hcmp : encodeComparableTransaction P canonical = P.encode canonical := by
    unfold encodeComparableTransaction
    rw [Record.remove_of_get?_none (hnone _ (by simp)), Record.remove_of_get?_none (hnone _ (by simp)),
      Record.remove_of_get?_none (hnone _ (by simp))]
  unfold simulationMatchesPrepared at hm
  split at hm
  · cases hm
  · next echoed htx =>
    rw [hc] at hm
    split at hm
    · next bytes bytes' h1 h2 =>
      obtain ⟨canonical', hc', he'⟩ := Except.bind_eq_ok.mp h2
      obtain rfl : bytes = bytes' := by simpa using hm
      have h1 : P.encode canonical = .ok bytes := hcmp.symm.trans h1
      rw [h1] at hb
      exact ⟨echoed, canonical', bytes, htx, hc', he', Except.ok.inj hb⟩
    · cases hm

/-- In every run, the simulation behind a row that may be signed was of its transaction. -/
theorem reach_simulatedArtifact (hk : Reach (system P) ok k) (hr : row ∈ k.state.db.rows)
    (hp : PreparedArtifact P row transaction preparedTxBlob)
    (hres : row.simulationEngineResult = some "tesSUCCESS") :
    SimulatedArtifact P k.log row transaction preparedTxBlob := by
  obtain ⟨pid, t, result, raw, hs, heng, hmatch⟩ := reach_simulated hk hr hres
  obtain rfl := Except.ok.inj (hs.1.symm.trans hp.stored)
  exact ⟨pid, result, raw, hs, heng, hp.echoes hmatch⟩

/-! ## The artifact of a run -/

/-- Whatever has a signed blob has the whole artifact. -/
theorem reach_exact (hkey : P.EncodeByKey) (hjson : P.JsonbPreserves)
    (hk : Reach (system P) ok k) (hr : row ∈ k.state.db.rows)
    (hb : row.signedTxBlob = some txBlob) : ExactArtifact P k.log row txBlob := by
  have hok := (reach_ok hk).rows row hr
  obtain ⟨t, blob, hp⟩ := hok.preparedArtifact hkey hjson (hok.not_unsigned hb).1
  refine ⟨t, blob, hp, hok.signedArtifact hb hp.blob, reach_simulatedArtifact hk hr hp ?_⟩
  exact reach_passed hk hr (by rw [hb]; rfl)

/-- Where a blob may be submitted, it is the stored one. -/
theorem MaySubmit.stored {w : World Op Op.Ret Call State} (hm : MaySubmit P w pid l txBlob) :
    ∃ row ∈ w.state.db.rows, l = .submit row.id ∧ row.signedTxBlob = some txBlob := by
  obtain ⟨c, ⟨hok, row, hf, hle⟩, hl, -, hb, -⟩ := hm
  exact ⟨row, Db.mem_of_find hf, hle.id ▸ hl, hle.signedTxBlob hok hb⟩

/-- **In every run**, every submit request so far carried the blob its intent has. -/
theorem reach_sent (hk : Reach (system P) ok k) : ∀ e ∈ k.log, ∀ txBlob,
    e.op = .send (.submit txBlob) →
    ∃ row ∈ k.state.db.rows, e.label = .submit row.id ∧ row.signedTxBlob = some txBlob := by
  refine hk.inv (P := fun k => ∀ e ∈ k.log, ∀ txBlob, e.op = .send (.submit txBlob) →
      ∃ row ∈ k.state.db.rows, e.label = .submit row.id ∧ row.signedTxBlob = some txBlob)
    (by simp) fun k a k' hk ih hs hok e he txBlob hop => ?_
  have later : (∃ row ∈ k.state.db.rows, e.label = .submit row.id ∧
      row.signedTxBlob = some txBlob) → ∃ row ∈ k'.state.db.rows, e.label = .submit row.id ∧
        row.signedTxBlob = some txBlob := by
    rintro ⟨row, hr, hl, hb⟩
    obtain ⟨row', hf', hle⟩ := step_le hk hs ((reach_ok hk).ids row hr)
    exact ⟨row', Db.mem_of_find hf', hle.id ▸ hl,
      hle.signedTxBlob ((reach_ok hk).rows row hr) hb⟩
  rcases step_log hs with hlog | ⟨pid, l, op, r, rfl, hlog⟩
  · exact later (ih e (hlog ▸ he) txBlob hop)
  · rw [hlog] at he
    rcases List.mem_append.mp he with he | he
    · exact later (ih e he txBlob hop)
    · obtain rfl := List.mem_singleton.mp he
      cases hop
      exact later (MaySubmit.stored (reach_permit hk hs).1)

/-- The step that accepts a signature finds the intent waiting for one. -/
theorem step_accepts (hk : Reach (system P) ok k) (hs : Step (system P) k a k') {id : String}
    {next : IntentRow} (hf : k.state.db.find id = some cur) (hf' : k'.state.db.find id = some next)
    (hb : cur.signedTxBlob = none) (hb' : next.signedTxBlob.isSome) :
    cur.status = .awaitingSignature := by
  have same : next.signedTxBlob = cur.signedTxBlob → cur.status = .awaitingSignature := by
    intro he
    rw [he, hb] at hb'
    cases hb'
  cases step_change hk hs id with
  | kept he =>
    obtain rfl := Option.some.inj ((hf'.symm.trans he).trans hf)
    exact same rfl
  | moved _ hc _ _ _ hm hfrom _ _ hn =>
    obtain rfl := Option.some.inj (hc.symm.trans hf)
    obtain rfl := Option.some.inj (hn.symm.trans hf')
    cases hm with
    | signed => exact List.mem_singleton.mp hfrom
    | _ => exact same rfl
  | touched _ hc _ _ _ ht _ _ _ hn =>
    obtain rfl := Option.some.inj (hc.symm.trans hf)
    obtain rfl := Option.some.inj (hn.symm.trans hf')
    cases ht with
    | _ => exact same rfl
  | created hn => cases hn.symm.trans hf

/-- **Exact artifact.** In every run, with arbitrary answers: every prepared row holds one
transaction, built from its payload, with its encoding and its fields; every signed row holds that
transaction signed, and it was simulated; a signature is accepted only after this simulation; a
submit request is sent when the row already has its blob and hash; and every request ever sent
carried the blob the row has. -/
theorem exact_artifact (P : Platform) (hkey : P.EncodeByKey) (hjson : P.JsonbPreserves)
    (ok : StepCond Op Op.Ret Failure Reply Call State) (k : Sys) (hk : Reach (system P) ok k) :
    (∀ row ∈ k.state.db.rows, row.status ≠ .created →
      ∃ transaction preparedTxBlob, PreparedArtifact P row transaction preparedTxBlob) ∧
    (∀ row ∈ k.state.db.rows, ∀ txBlob, row.signedTxBlob = some txBlob →
      ExactArtifact P k.log row txBlob) ∧
    (∀ a k' id cur next, Step (system P) k a k' → k.state.db.find id = some cur →
      k'.state.db.find id = some next → cur.signedTxBlob = none → next.signedTxBlob.isSome →
      ∃ transaction preparedTxBlob, PreparedArtifact P cur transaction preparedTxBlob ∧
        SimulatedArtifact P k.log cur transaction preparedTxBlob) ∧
    (∀ pid l txBlob r k', Step (system P) k (.op pid l (.send (.submit txBlob)) r) k' →
      ∃ row ∈ k.state.db.rows, l = .submit row.id ∧ ExactArtifact P k.log row txBlob) ∧
    ∀ e ∈ k.log, ∀ txBlob, e.op = .send (.submit txBlob) →
      ∃ row ∈ k.state.db.rows, e.label = .submit row.id ∧ ExactArtifact P k.log row txBlob := by
  refine ⟨fun row hr hs => ((reach_ok hk).rows row hr).preparedArtifact hkey hjson hs,
    fun row hr txBlob hb => reach_exact hkey hjson hk hr hb, ?_, ?_, ?_⟩
  · intro a k' id cur next hs hf hf' hb hb'
    have hst := step_accepts hk hs hf hf' hb hb'
    have hok := reach_row hk hf
    obtain ⟨t, blob, hp⟩ := hok.preparedArtifact hkey hjson (by rw [hst]; decide)
    exact ⟨t, blob, hp,
      reach_simulatedArtifact hk (Db.mem_of_find hf) hp (hok.passed (.inl hst))⟩
  · intro pid l txBlob r k' hs
    obtain ⟨row, hr, hl, hb⟩ := MaySubmit.stored (reach_permit hk hs).1
    exact ⟨row, hr, hl, reach_exact hkey hjson hk hr hb⟩
  · intro e he txBlob hop
    obtain ⟨row, hr, hl, hb⟩ := reach_sent hk e he txBlob hop
    exact ⟨row, hr, hl, reach_exact hkey hjson hk hr hb⟩

/-- An intent that was signed and submitted once. -/
theorem exact_artifact_submitted : ∃ (k : Sys) (row : IntentRow) (txBlob : String),
    row ∈ k.state.db.rows ∧ ExactArtifact Sample.platform k.log row txBlob ∧
      ∃ e ∈ k.log, e.label = .submit row.id ∧ e.op = .send (.submit txBlob) := by
  obtain ⟨k, -, hk, hφ⟩ := exists_of_play Sample.platform anyStep [] (Sample.signedIntent 3 ++
      [.start (.submit "i5")] ++ Sample.tick 4 2 ++ Sample.told 4 (Sample.ledgerAnswer 3) ++
      Sample.tick 4 3)
    (fun k => k.log.any fun e => e.op = .send (.submit "05AB")) (by decide +kernel)
  obtain ⟨e, he, hop⟩ := List.any_eq_true.mp hφ
  obtain ⟨row, hr, hl, hx⟩ := (exact_artifact Sample.platform Sample.encodeByKey
    Sample.jsonbPreserves anyStep k hk).2.2.2.2 e he _ (of_decide_eq_true hop)
  exact ⟨k, row, _, hr, hx, e, he, hl, of_decide_eq_true hop⟩

end Orchestrator
