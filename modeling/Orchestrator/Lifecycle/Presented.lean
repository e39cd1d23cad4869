import Orchestrator.Intents.Idempotency
import Orchestrator.Intents.Views
import Orchestrator.Lifecycle.Bounds
import Orchestrator.Lifecycle.StatusData
import Orchestrator.Signing.Admission

/-!
# What the API shows

A row of a run can always be presented, and what is shown of it is complete for its status: the
intent it was created for, the transaction it was prepared as, in the order of the builder, and the
outcome. So is what a call answers, and the row it answers with is a version of its intent.

* `DetailView.Complete`, `View.Complete`: what a view shows;
* **`detail_faithful`**: every intent can be shown;
* `returns_prepareLoop`, `returns_submitLoop`, `returns_handle`: the row that a call returns;
* `HeldBefore`, `reach_brings`: the table has held the rows that replies bring;
* `AnswerRecorded`, `reach_recorded`: the row that recording an answer has returned;
* **`answers_complete`**.
-/

namespace Orchestrator

open Interleave

variable (P : Platform)

/-- The transaction that is shown: its keys are in the order of the builder, and it is what the
prepared blob encodes. -/
def ShowsTransaction (intent : IntentPayload) (params : PreparationParams)
    (transaction : Option Record) (preparedTxBlob : Option String) : Prop :=
  ∃ exposed blob, transaction = some exposed ∧ preparedTxBlob = some blob ∧
    exposed.Alike (buildTransaction intent params) ∧ encodeTransaction P exposed = .ok blob

/-- What the detail view of an intent shows, by its status. -/
structure DetailView.Complete (v : DetailView) : Prop where
  intent : v.account = v.intent.account ∧ v.type = v.intent.type
  created : v.status = .created → v.transaction = none ∧ v.preparedTxBlob = none ∧
    v.sequence = none ∧ v.fee = none ∧ v.lastLedgerSequence = none ∧ v.simulation = none
  prepared : v.status ≠ .created → ∃ params index,
    ShowsTransaction P v.intent params v.transaction v.preparedTxBlob ∧
    v.preparedLedgerIndex = some index ∧ v.sequence = some params.sequence ∧
    v.fee = some params.fee ∧ v.lastLedgerSequence = some params.lastLedgerSequence ∧
    params.lastLedgerSequence = lastLedgerSequenceFor index
  unsimulated : v.status = .created ∨ v.status = .prepared → v.simulation = none
  simulated : v.status ∈ simulatedStatuses → v.simulation.isSome
  passed : v.status ∈ passedStatuses → v.simulation.map (·.1) = some "tesSUCCESS"
  unsigned : v.status = .created ∨ v.status ∈ unsignedActiveStatuses →
    v.transactionHash = none ∧ v.signingPubKey = none ∧ v.submission = ⟨0, none, none, none⟩
  signed : v.status ∈ signedActiveStatuses ∨ v.status = .validated →
    v.transactionHash.isSome ∧ v.signingPubKey.isSome ∧ v.signedAt.isSome
  submitted : v.status = .submitted → v.submission.engineResult.isSome
  succeeded : v.succeeded.isSome ↔ v.status = .validated
  failureCode : v.failureCode.isSome ↔ v.status = .failed

/-- What an answer shows. -/
def View.Complete : View → Prop
  | .prepared v => v.status = .awaitingSignature ∧ v.engineResult = some "tesSUCCESS" ∧
      ∃ intent params, ShowsTransaction P intent params v.transaction v.preparedTxBlob
  | .signed v => v.status = .signed ∧ v.transactionHash.isSome ∧ v.signingPubKey.isSome
  | .submitted v => v.transactionHash.isSome ∧ ∃ engineResult, v.engineResult = some engineResult ∧
      (v.status = .submitted ∨ v.status = .rejected ∧ startsWith engineResult "tem" = true)
  | .detail v => v.Complete P ∧ v.status ∈ attachedStatuses

/-! ## Views of rows -/

section Rows

variable {P} {row : IntentRow}

/-- A payload that was stored is read back. -/
theorem IntentRow.Ok.reads (hjson : P.JsonbPreserves) (hok : row.Ok P) {payload : IntentPayload}
    (h : row.intentPayload = P.jsonb payload.toJson) :
    asIntentPayload row.intentPayload = .ok payload ∧ row.sourceAccount = payload.account ∧
      row.intentType = payload.type := by
  have hread (payload : IntentPayload) : asIntentPayload (P.jsonb payload.toJson) = .ok payload :=
    asIntentPayload_same payload (hjson payload.toJson)
  obtain ⟨payload', hcol, haccount, htype⟩ := hok.payload
  have hsame : payload' = payload := by
    have h' := hread payload'
    rw [← hcol, h, hread payload] at h'
    exact (Except.ok.inj h').symm
  subst hsame
  exact ⟨hcol ▸ hread payload', haccount, htype⟩

/-- The prepared columns, as they are shown. -/
theorem IntentRow.Ok.showsTransaction (hkey : P.EncodeByKey) (hjson : P.JsonbPreserves)
    (hok : row.Ok P) (hs : row.status ≠ .created) {payload : IntentPayload}
    (hread : asIntentPayload row.intentPayload = .ok payload) : ∃ params index,
      ShowsTransaction P payload params (row.preparedTxJson.bind orderedTransaction)
        row.preparedTxBlob ∧ row.preparedLedgerIndex = some index ∧
      row.sequence = some params.sequence ∧ row.feeDrops = some params.fee ∧
      row.lastLedgerSequence = some params.lastLedgerSequence ∧
      params.lastLedgerSequence = lastLedgerSequenceFor index := by
  obtain ⟨payload', params, blob, index, hpay, hjs, henc, hblob, hidx, hseq, hfee, hlast, hwin,
    -⟩ := hok.prepared hs
  obtain rfl := Except.ok.inj (hread.symm.trans hpay)
  obtain ⟨exposed, hexposed, halike, hsame⟩ := orderedTransaction_restores hjson payload params
  have hamount := (buildTransaction_get payload params).2.2.2.2
  refine ⟨params, index, ⟨exposed, blob, ?_, hblob, halike, ?_⟩, hidx, hseq, hfee, hlast, hwin⟩
  · rw [hjs]
    exact hexposed
  · exact (encodeTransaction_same hkey hsame hamount).symm.trans henc

/-- **A row that satisfies its invariant can be shown**, completely. -/
theorem IntentRow.Ok.detail (hkey : P.EncodeByKey) (hjson : P.JsonbPreserves) (hok : row.Ok P)
    (hrejected : row.status = .rejected → row.simulationEngineResult.isSome)
    (hsubmitted : row.status = .submitted → row.submitEngineResult.isSome)
    {payload : IntentPayload} (h : row.intentPayload = P.jsonb payload.toJson) :
    presentDetail row = .ok (detailOf row payload) ∧ (detailOf row payload).Complete P := by
  obtain ⟨hread, haccount, htype⟩ := hok.reads hjson h
  have hdata := hok.statusData hrejected
  refine ⟨by rw [presentDetail, hread]; rfl, ?_⟩
  refine {
    intent := ⟨haccount, htype⟩
    created := fun hs => ?_
    prepared := fun hs => hok.showsTransaction hkey hjson hs hread
    unsimulated := fun hs => ?_
    simulated := fun hs => ?_
    passed := fun hs => ?_
    unsigned := fun hs => ?_
    signed := fun hs => ?_
    submitted := hsubmitted
    succeeded := ?_
    failureCode := hdata.failureCode }
  · obtain ⟨hprepared, hsimulation, -⟩ := hdata.created hs
    have hresult : row.simulationEngineResult = none := congrArg (·.1) hsimulation
    simp only [IntentRow.preparedColumns, Prod.mk.injEq] at hprepared
    obtain ⟨hjs, hblob, -, hsequence, hfee, hlast, -⟩ := hprepared
    simp [detailOf, hjs, hblob, hsequence, hfee, hlast, hresult]
  · have hresult : row.simulationEngineResult = none := congrArg (·.1) (hok.unsimulated hs)
    simp [detailOf, hresult]
  · simpa [detailOf] using hdata.simulated hs
  · simp [detailOf, hdata.passed hs]
  · obtain ⟨hsigned, hsubmission⟩ := hok.unsigned hs
    have hhash : row.transactionHash = none := congrArg (·.2.1) hsigned
    have hpub : row.signingPubKey = none := congrArg (·.2.2.1) hsigned
    simp only [IntentRow.submissionColumns, Prod.mk.injEq] at hsubmission
    obtain ⟨hcount, hbaseline, hresult, -, hat, -⟩ := hsubmission
    simp [detailOf, hhash, hpub, hcount, hbaseline, hresult, hat]
  · obtain ⟨-, hhash, hpub, hat⟩ := hdata.signed hs
    exact ⟨hhash, hpub, by simpa [detailOf] using hat⟩
  · simpa [detailOf] using hdata.finalResult

end Rows

variable {P}

/-- **Every intent can be shown.** In every run, each row of the table has a detail view; it shows
the intent whose hash the row was created with, and, once there is one, the prepared transaction
with its keys in the order of the builder, which encodes to the blob that is shown with it. The
result of the simulation, the hash, the engine result of the submission, the outcome and the failure
code are there when the status says so. -/
theorem detail_faithful (P : Platform) (hkey : P.EncodeByKey) (hjson : P.JsonbPreserves) (k : Sys)
    (hk : Reach (system P) anyStep k) : ∀ row ∈ k.state.db.rows, ∃ view,
      presentDetail row = .ok view ∧ view.Complete P ∧
      row.requestHash = requestHash P view.intent := by
  intro row hr
  obtain ⟨payload, hcol, hhash⟩ := reach_stores hk row hr
  obtain ⟨hview, hcomplete⟩ :=
    ((reach_ok hk).rows row hr).detail hkey hjson (reach_rejected hk row hr)
      (reach_submitted hk row hr) hcol
  exact ⟨_, hview, hcomplete, hhash⟩

/-- An intent that is signed. -/
theorem detail_faithful_signed : ∃ (k : Sys) (row : IntentRow) (view : DetailView),
    row ∈ k.state.db.rows ∧ row.status = .signed ∧ presentDetail row = .ok view ∧
      view.transactionHash.isSome ∧ view.transaction.isSome := by
  obtain ⟨k, -, hk, hφ⟩ := exists_of_play Sample.platform anyStep [] (Sample.signedIntent 3)
    (fun k => k.state.db.rows.any fun r => r.status = .signed) (by decide +kernel)
  obtain ⟨row, hr, hst⟩ := List.any_eq_true.mp hφ
  have hst : row.status = .signed := of_decide_eq_true hst
  obtain ⟨view, hview, hcomplete, -⟩ :=
    detail_faithful Sample.platform Sample.encodeByKey Sample.jsonbPreserves k hk row hr
  have hstatus : view.status = row.status := by
    obtain ⟨payload, rfl⟩ := presentDetail_ok hview
    rfl
  have hsigned : view.status = .signed := hstatus.trans hst
  obtain ⟨params, index, ⟨exposed, blob, hexposed, -⟩, -⟩ :=
    hcomplete.prepared (by rw [hsigned]; decide)
  refine ⟨k, row, view, hr, hst, hview, (hcomplete.signed (.inl (by rw [hsigned]; decide))).1, ?_⟩
  rw [hexposed]
  rfl

/-! ## The row a call returns -/

section Returns

variable {P : Platform} {Φ : IntentRow → Prop} {row : IntentRow} {id : String}

/-! ### `prepare` -/

/-- The row a step of `prepare` goes on with, or a status that `prepare` returns with. -/
def StepBrings (Φ : IntentRow → Prop) (row : IntentRow) : StepResult → Prop
  | .row next => Φ next ∧ next.id = row.id
  | .reread => True
  | .done => row.status ∈ preparedStatuses

theorem returns_prepareCreated :
    Returns P Φ (fun out => ∀ next, out = some next → Φ next ∧ next.id = row.id)
      (prepareCreated P row) := by
  refine (returns_any assertRecovered).seq fun _ _ => (returns_any _).seq fun payload _ => ?_
  refine (returns_any (validatedAccountInfo _)).seq fun account _ => ?_
  cases account with
  | none => exact returns_fail _
  | some validated =>
    refine (returns_any (currentAccountInfo _)).seq fun current _ => ?_
    refine (returns_any (ofExcept _)).seq fun _ _ => (returns_any validatedLedgerIndex).seq
      fun index _ => ?_
    refine (returns_any cappedOpenLedgerFee).seq fun fee _ => ?_
    refine (returns_any (Prog.perform Op.networkId)).seq fun networkId _ => ?_
    refine (returns_any (ofExcept _)).seq fun txBlob _ => (returns_any now).seq fun t _ => ?_
    intro r hr
    cases r with
    | error e => cases e <;> exact returns_fail _
    | ok found =>
      exact fun next hnext => ⟨(hr next (congrArg _ hnext)).1, (hr next (congrArg _ hnext)).2.1⟩

theorem returns_moved (request : TransitionRequest) :
    Returns P Φ (fun out => ∀ next, out = some next → Φ next ∧ next.id = row.id)
      (transition row.id request) :=
  (returns_transition row.id request).clean fun _ h next hnext =>
    ⟨(h next hnext).1, (h next hnext).2.1⟩

theorem returns_simulatePrepared :
    Returns P Φ (fun out => ∀ next, out = some next → Φ next ∧ next.id = row.id)
      (simulatePrepared P row) := by
  refine (returns_any assertRecovered).seq fun _ _ => (returns_any (ofExcept _)).seq fun t _ => ?_
  refine (returns_any (required _ _)).seq fun last _ => ?_
  refine (returns_any validatedLedgerIndex).seq fun n _ => ?_
  split_ifs
  · exact (returns_any (transition _ _)).seq fun _ _ => returns_fail _
  refine (returns_any (simulate t)).seq fun out _ => ?_
  dsimp only
  split_ifs
  · exact (returns_any (transition _ _)).seq fun _ _ => returns_fail _
  · exact (returns_any now).seq fun t _ => returns_moved _

theorem returns_completeSimulation :
    Returns P Φ (fun out => ∀ next, out = some next → Φ next ∧ next.id = row.id)
      (completeSimulation row) := by
  refine (returns_any (required _ _)).seq fun engineResult _ => ?_
  split_ifs
  · exact returns_moved _
  · refine (returns_moved _).seq fun out _ => ?_
    cases out with
    | none => exact fun next h => by cases h
    | some next => exact returns_fail _

theorem returns_prepareStep : Returns P Φ (StepBrings Φ row) (prepareStep P row) := by
  have step {p : Service (Option IntentRow)}
      (hp : Returns P Φ (fun out => ∀ next, out = some next → Φ next ∧ next.id = row.id) p) :
      Returns P Φ (StepBrings Φ row) (StepResult.ofRow? <$> p) := by
    refine hp.seq fun out hout => ?_
    cases out with
    | none => exact trivial
    | some next => exact hout next rfl
  unfold prepareStep
  cases hs : row.status with
  | created => exact step returns_prepareCreated
  | prepared => exact step returns_simulatePrepared
  | simulated => exact step returns_completeSimulation
  | awaitingSignature | signed | submitted | validated =>
    change row.status ∈ preparedStatuses
    rw [hs]
    decide
  | expired | rejected | failed => exact returns_fail _

theorem returns_prepareLoop (steps : ℕ) (hrow : Φ row ∧ row.id = id) :
    Returns P Φ (fun out => (Φ out ∧ out.id = id) ∧ out.status ∈ preparedStatuses)
      (prepareLoop P id steps row) := by
  induction steps generalizing row with
  | zero => exact returns_fail _
  | succ steps ih =>
    refine returns_prepareStep.seq fun out hout => ?_
    cases out with
    | done => exact ⟨hrow, hout⟩
    | row next => exact ih ⟨hout.1, hout.2.trans hrow.2⟩
    | reread => exact (returns_load id).seq fun row' hrow' => ih hrow'

/-! ### `submit` -/

theorem returns_submitSigned :
    Returns P Φ (fun out => ∀ next, out = some next → Φ next ∧ next.id = row.id)
      (submitSigned P row) := by
  refine (returns_any assertRecovered).seq fun _ _ => (returns_any (required _ _)).seq
    fun signedTxBlob _ => ?_
  refine (returns_any (required _ _)).seq fun last _ => ?_
  refine (returns_any validatedLedgerIndex).seq fun n _ => ?_
  split_ifs
  · refine (returns_any (resolveSigned P row n 1)).seq fun out _ => ?_
    dsimp only
    split_ifs
    · exact returns_fail _
    · exact fun next h => by cases h
  · refine (returns_any (recordBaseline row n)).seq fun _ _ => (returns_any now).seq fun t _ => ?_
    refine (returns_any (submitRequest signedTxBlob).toExcept).seq fun out _ => ?_
    cases out with
    | error failure => exact (returns_any (updateInStatus _ _ _)).seq fun _ _ => returns_fail _
    | ok answer =>
      change Returns P Φ _ (recordSubmit row answer.1 answer.2 t)
      unfold recordSubmit
      split_ifs
      · exact returns_moved _
      · exact returns_moved _
      · exact returns_updateInStatus _ _ _

theorem returns_submitLoop (steps : ℕ) (hrow : Φ row ∧ row.id = id) :
    Returns P Φ (fun out => Φ out ∧ out.id = id) (submitLoop P id steps row) := by
  induction steps generalizing row with
  | zero => exact hrow
  | succ steps ih =>
    rw [submitLoop_succ]
    split_ifs
    · exact hrow
    · refine returns_submitSigned.seq fun out hout => ?_
      cases out with
      | some next => exact ⟨(hout next rfl).1, (hout next rfl).2.trans hrow.2⟩
      | none => exact (returns_load id).seq fun row' hrow' => ih hrow'
    · exact returns_fail _

end Returns

/-! ## Every run -/

/-- The row that recording an answer has returned: the answer, and what became of the intent. -/
def AnswerRecorded (row : IntentRow) : Prop :=
  row.transactionHash.isSome ∧ ∃ engineResult, row.submitEngineResult = some engineResult ∧
    (row.status = .submitted ∨ row.status = .rejected ∧ startsWith engineResult "tem" = true)

section Runs

variable {P : Platform} {ok : StepCond Op Op.Ret Failure Reply Call State} {k k' : Sys} {pid : ℕ}
  {l : Call} {op : Op} {r : op.Ret}

variable (P ok) in
/-- The table has held the row, in this or an earlier configuration of the run. -/
def HeldBefore (k : Sys) (row : IntentRow) : Prop :=
  ∃ k₀, Reach (system P) ok k₀ ∧ Runs (system P) ok k₀ k ∧ k₀.state.db.find row.id = some row

theorem Db.find_self {db : Db} {id : String} {row : IntentRow} (hf : db.find id = some row) :
    db.find row.id = some row := (Db.find_id hf).symm ▸ hf

/-- **A reply brings rows** that the table holds after it. -/
theorem step_brings (hk : Reach (system P) ok k) (hs : Step (system P) k (.op pid l op r) k') :
    Brings P (fun row => k'.state.db.find row.id = some row) op r := by
  obtain ⟨hp, hx, -⟩ := reach_permit hk hs
  have hok := reach_ok hk
  cases op with
  | findById id =>
    obtain ⟨he, rfl | rfl⟩ := exec_findById hx
    · exact fun row hrow => by cases hrow
    · intro row hrow
      have hf : k.state.db.find id = some row := Except.ok.inj hrow
      rw [← he] at hf
      exact ⟨Db.find_self hf, Db.find_id hf⟩
  | transition id request =>
    obtain ⟨c, hc, rfl, hm⟩ := hp
    rcases transition_step hok hc hm hx with
      ⟨-, hno, -⟩ | ⟨cur, t, hf, -, -, -, -, -, hle, rfl, hs'⟩
    · exact fun row hrow => absurd hrow (hno row)
    · rintro row ⟨⟩
      have hid : cur.id = c.id := Db.find_id hf
      have hf' : k'.state.db.find c.id = some (request.updated P t cur) := by
        rw [hs']
        exact (Db.find_written hf hle c.id).trans (if_pos rfl)
      exact ⟨Db.find_self hf', hid, t, cur, rfl⟩
  | updateInStatus id statuses patch =>
    obtain ⟨c, hc, rfl, ht⟩ := hp
    rcases updateInStatus_step hok hc ht hx with
      ⟨-, hno, -⟩ | ⟨cur, t, hf, -, -, -, -, -, hle, rfl, hs'⟩
    · exact fun row hrow => absurd hrow (hno row)
    · rintro row ⟨⟩
      have hf' : k'.state.db.find c.id = some (patch.updated P t cur) := by
        rw [hs']
        exact (Db.find_written hf hle c.id).trans (if_pos rfl)
      exact ⟨Db.find_self hf', Db.find_id hf'⟩
  | _ => exact trivial

/-- **In every run**, the table has held the rows that replies have brought. -/
theorem reach_brings (hk : Reach (system P) ok k) :
    ∀ e ∈ k.log, Brings P (HeldBefore P ok k) e.op e.ret := by
  refine hk.inv (P := fun k => ∀ e ∈ k.log, Brings P (HeldBefore P ok k) e.op e.ret)
    (by simp) fun k a k' hk ih hs hcond e he => ?_
  have later (row : IntentRow) : HeldBefore P ok k row → HeldBefore P ok k' row :=
    fun ⟨k₀, hk₀, hr, hf⟩ => ⟨k₀, hk₀, hr.step hs hcond, hf⟩
  rcases step_log hs with hlog | ⟨pid, l, op, r, rfl, hlog⟩
  · exact (ih e (hlog ▸ he)).mono later
  · rcases List.mem_append.mp (hlog ▸ he) with he | he
    · exact (ih e he).mono later
    · obtain rfl := List.mem_singleton.mp he
      exact (step_brings hk hs).mono fun row hf => ⟨k', hk.step hs hcond, .refl, hf⟩

/-- **Recording an answer** returns the answer, with the status that it means. -/
theorem step_recorded (hk : Reach (system P) ok k) (hs : Step (system P) k (.op pid l op r) k')
    {row : IntentRow} (hrow : recordedRow op r = some row) : AnswerRecorded row := by
  obtain ⟨hp, hx, -⟩ := reach_permit hk hs
  have hok := reach_ok hk
  have hhash {cur : IntentRow} (hf : k.state.db.find cur.id = some cur)
      (hst : cur.status ∈ signedActiveStatuses) : cur.transactionHash.isSome :=
    ((hok.rows cur (Db.mem_of_find hf)).isSome_signed (.inl hst)).2.1
  cases op with
  | transition id request =>
    obtain ⟨c, hc, rfl, hm⟩ := hp
    rcases transition_step hok hc hm hx with
      ⟨-, hno, -⟩ | ⟨cur, t, hf, -, hfrom, -, -, -, -, rfl, -⟩
    · cases r with
      | error e => cases hrow
      | ok found =>
        cases found with
        | none => cases hrow
        | some row => exact absurd rfl (hno row)
    · have hcur : k.state.db.find cur.id = some cur := (Db.find_id hf).symm ▸ hf
      cases hm with
      | malformed _ _ _ htem =>
        cases hrow
        have hst := List.mem_singleton.mp hfrom
        have hsigned := hhash hcur (by rw [hst]; decide)
        exact ⟨hsigned, _, rfl, .inr ⟨rfl, htem⟩⟩
      | submitted =>
        cases hrow
        have hst := List.mem_singleton.mp hfrom
        have hsigned := hhash hcur (by rw [hst]; decide)
        exact ⟨hsigned, _, rfl, .inl rfl⟩
      | _ => cases hrow
  | updateInStatus id statuses patch =>
    obtain ⟨c, hc, rfl, ht⟩ := hp
    rcases updateInStatus_step hok hc ht hx with
      ⟨-, hno, -⟩ | ⟨cur, t, hf, -, hfrom, hst, -, -, -, rfl, -⟩
    · cases r with
      | error e => cases hrow
      | ok found =>
        cases found with
        | none => cases hrow
        | some row => exact absurd rfl (hno row)
    · have hcur : k.state.db.find cur.id = some cur := (Db.find_id hf).symm ▸ hf
      cases ht with
      | resubmitted =>
        cases hrow
        have hsigned := hhash hcur hst
        exact ⟨hsigned, _, rfl, .inl (List.mem_singleton.mp hfrom)⟩
      | _ => cases hrow
  | _ => cases hrow

theorem reach_recorded (hk : Reach (system P) ok k) :
    ∀ e ∈ k.log, ∀ row, recordedRow e.op e.ret = some row → AnswerRecorded row := by
  refine hk.inv (P := fun k => ∀ e ∈ k.log, ∀ row, recordedRow e.op e.ret = some row →
      AnswerRecorded row)
    (by simp) fun k a k' hk ih hs _ e he row hrow => ?_
  rcases step_log hs with hlog | ⟨pid, l, op, r, rfl, hlog⟩
  · exact ih e (hlog ▸ he) row hrow
  · rcases List.mem_append.mp (hlog ▸ he) with he | he
    · exact ih e he row hrow
    · obtain rfl := List.mem_singleton.mp he
      exact step_recorded hk hs hrow

/-- The intent that a call of the API is about. -/
def Call.intentId : Call → Option String
  | .prepare id => some id
  | .attachSignature id _ => some id
  | .submit id => some id
  | _ => none

/-- What the controller answers when the call returns a row. -/
def Call.answer : Call → IntentRow → Except Failure View
  | .attachSignature _ _, row => IntentsController.signature row
  | .submit _, row => IntentsController.submit row
  | _, row => IntentsController.prepare row

/-- The statuses of the row that a call returns, as far as its own program tells. -/
def Call.answers : Call → List Status
  | .prepare _ => preparedStatuses
  | .attachSignature _ _ => attachedStatuses
  | _ => intentStatuses

/-- **What the calls return**: only those about an intent return a row, and it is that intent's. -/
theorem returns_handle (Φ : IntentRow → Prop) (l : Call) :
    Returns P Φ (fun reply => ∀ row, reply = .intent row → Φ row ∧ l.intentId = some row.id ∧
      row.status ∈ l.answers) (handle P l) := by
  have hall (s : Status) : s ∈ intentStatuses := by cases s <;> decide
  have done {id : String} {R : IntentRow → Prop} {p : Service IntentRow} (hl : l.intentId = some id)
      (hp : Returns P Φ (fun out => (Φ out ∧ out.id = id) ∧ R out) p)
      (hR : ∀ out, R out → out.status ∈ l.answers) :
      Returns P Φ (fun reply => ∀ row, reply = .intent row → Φ row ∧ l.intentId = some row.id ∧
        row.status ∈ l.answers) (Reply.intent <$> p) := by
    refine hp.seq fun out hout row hrow => ?_
    obtain rfl := Reply.intent.inj hrow
    exact ⟨hout.1.1, hl.trans (congrArg some hout.1.2.symm), hR _ hout.2⟩
  cases l with
  | create key dto =>
    exact (returns_any (create P key dto)).seq fun out _ row h => by cases h
  | prepare id =>
    exact done rfl ((returns_load id).seq fun row hrow => returns_prepareLoop _ hrow) fun _ h => h
  | attachSignature id txBlob => exact done rfl (returns_attachSignature P id txBlob) fun _ h => h.1
  | submit id =>
    refine done (R := fun _ => True) rfl ?_ fun out _ => hall out.status
    exact ((returns_load id).seq fun row hrow => returns_submitLoop _ hrow).clean fun _ h =>
      ⟨h, trivial⟩
  | cycle => exact (returns_any (cycle P)).seq fun out _ row h => by cases h

/-- The view of a row that has been read or recorded by the call that returns it. -/
theorem IntentRow.Ok.answer (hkey : P.EncodeByKey) (hjson : P.JsonbPreserves) {row : IntentRow}
    (hok : row.Ok P) (hl : l.intentId = some row.id) (hstatus : row.status ∈ l.answers)
    (hsubmitted : row.status = .submitted → row.submitEngineResult.isSome)
    (hsubmit : ∀ id, l = .submit id → row.status = .validated ∨ AnswerRecorded row) :
    ∃ view, l.answer row = .ok view ∧ view.Complete P := by
  obtain ⟨payload, hcol, -⟩ := hok.payload
  have hread := (hok.reads hjson hcol).1
  have hdetail (hs : row.status ∈ attachedStatuses) :
      ∃ view, (presentDetail row).map View.detail = .ok view ∧ view.Complete P := by
    have hrejected : row.status = .rejected → row.simulationEngineResult.isSome := by
      intro h
      rw [h] at hs
      exact absurd hs (by decide)
    obtain ⟨hview, hcomplete⟩ := hok.detail hkey hjson hrejected hsubmitted hcol
    exact ⟨.detail (detailOf row payload), by rw [hview]; rfl, hcomplete, hs⟩
  cases l with
  | create | cycle => cases hl
  | prepare id =>
    by_cases hs : row.status = .awaitingSignature
    · obtain ⟨params, -, hshows, -⟩ :=
        hok.showsTransaction hkey hjson (by rw [hs]; decide) hread
      exact ⟨.prepared (presentPrepared row), if_pos hs, hs, hok.passed (.inl hs), payload, params,
        hshows⟩
    · have hall : ∀ s ∈ preparedStatuses, s ≠ .awaitingSignature → s ∈ attachedStatuses := by decide
      obtain ⟨view, hview, hcomplete⟩ := hdetail (hall _ hstatus hs)
      exact ⟨view, (if_neg hs).trans hview, hcomplete⟩
  | attachSignature id txBlob =>
    by_cases hs : row.status = .signed
    · obtain ⟨-, hhash, hpub, -⟩ := hok.isSome_signed (.inl (by rw [hs]; decide))
      exact ⟨.signed (presentSigned row), if_pos hs, hs, hhash, hpub⟩
    · obtain ⟨view, hview, hcomplete⟩ := hdetail hstatus
      exact ⟨view, (if_neg hs).trans hview, hcomplete⟩
  | submit id =>
    by_cases hs : row.status = .validated
    · obtain ⟨view, hview, hcomplete⟩ := hdetail (by rw [hs]; decide)
      exact ⟨view, (if_pos hs).trans hview, hcomplete⟩
    · have hrecorded := (hsubmit id rfl).resolve_left hs
      exact ⟨.submitted (presentSubmitted row), if_neg hs, hrecorded⟩

end Runs

/-- **Answers are complete.** In every run, with any interleaving and arbitrary replies: a call that
returns a row was made about that intent, the table has held the row in an earlier configuration of
the run and holds a later version of it, and the controller has an answer for it, in which nothing
is missing that its status stands for. What `prepare` answers has passed its simulation, and its
transaction encodes to its blob; what `submit` answers holds an engine result, and an intent is
answered as rejected only with a `tem` result. -/
theorem answers_complete (P : Platform) (hkey : P.EncodeByKey) (hjson : P.JsonbPreserves)
    (k k' : Sys) (hk : Reach (system P) anyStep k) (pid : ℕ) (l : Call) (row : IntentRow)
    (hs : Step (system P) k (.finish pid l (.ok (.intent row))) k') :
    l.intentId = some row.id ∧ HeldBefore P anyStep k row ∧
      (∃ cur, k.state.db.find row.id = some cur ∧ row.Le cur) ∧
      ∃ view, l.answer row = .ok view ∧ view.Complete P := by
  obtain ⟨⟨k₀, hk₀, hruns, hfind⟩, hid, hstatus⟩ :=
    Reach.returns hk (returns_handle (HeldBefore P anyStep k)) (reach_brings hk) hs row rfl
  have hmem := Db.mem_of_find hfind
  refine ⟨hid, ⟨k₀, hk₀, hruns, hfind⟩, (runs_rely hk₀ hruns).1 row.id row hfind,
    ((reach_ok hk₀).rows row hmem).answer hkey hjson hid hstatus (reach_submitted hk₀ row hmem) ?_⟩
  rintro id rfl
  obtain ⟨-, hrow, -⟩ :=
    Reach.watched (watches_submit (A := fun _ _ => true) id) hk hs fun _ _ => rfl
  refine (hrow row rfl).imp (·.1) fun h => ?_
  obtain ⟨e, he, hrec⟩ := (after_recorded .start _ h).resolve_left (fun hn => by cases hn)
  exact reach_recorded hk e (List.mem_of_mem_filter he) row hrec

namespace Sample

/-- Call 4 has submitted `i5`. -/
def isSubmitted : Act Op Op.Ret Failure Reply Call → Bool
  | .finish pid (.submit id) (.ok (.intent row)) => pid = 4 && id = "i5" && row.status = .submitted
  | _ => false

end Sample

/-- The first submission of a signed intent, which is queued. -/
theorem answers_complete_submitted : ∃ (k k' : Sys) (row : IntentRow) (view : SubmittedView),
    Step (system Sample.platform) k (.finish 4 (.submit "i5") (.ok (.intent row))) k' ∧
      IntentsController.submit row = .ok (.submitted view) ∧ view.transactionHash.isSome := by
  obtain ⟨k, a, k', hk, hs, hφ⟩ := exists_step_of_play Sample.platform anyStep []
    (Sample.signedIntent 3 ++ Sample.submitting 4 3 3 "terQUEUED" ++ Sample.tick 4 1) (.finish 4)
    (fun _ a _ => Sample.isSubmitted a) (by decide +kernel)
  unfold Sample.isSubmitted at hφ
  split at hφ
  · next pid id row =>
    simp only [Bool.and_eq_true, decide_eq_true_eq] at hφ
    obtain ⟨⟨rfl, rfl⟩, hstatus⟩ := hφ
    obtain ⟨-, -, -, view, hview, hcomplete⟩ := answers_complete Sample.platform Sample.encodeByKey
      Sample.jsonbPreserves k k' hk 4 (.submit "i5") row hs
    have hne : row.status ≠ .validated := by
      rw [hstatus]
      decide
    have hsubmitted : IntentsController.submit row = .ok (.submitted (presentSubmitted row)) :=
      if_neg hne
    obtain rfl := Except.ok.inj (hsubmitted.symm.trans hview)
    exact ⟨k, k', row, _, hs, hsubmitted, hcomplete.1⟩
  · cases hφ

end Orchestrator
