import Orchestrator.Interleave.Discipline
import Orchestrator.Lifecycle.Moves

/-!
# The discipline of the service

Every operation of every call is permitted: a write is a `Move` or a `Touch` on a version of the
row that the call has read, and a submission carries the stored blob.

* `Move.keeps`, `Touch.keeps`: what a permitted write makes of the row;
* `Db.Ok`: the invariant of the tables, with unique ids, hashes and sequence-active accounts;
* `Copy`: a version of a row that the table has held;
* **`lifecycle`**: the discipline.
-/

namespace Orchestrator

open Interleave

/-! ## What a write makes of its row -/

section Keeps

variable {P : Platform} {h : History} {pid : ℕ} {l : Call} {c cur r : IntentRow}

/-- A later version, when each group of columns is kept from the status on that it belongs to. -/
theorem IntentRow.Le.move (hcan : canTransition cur.status r.status = true)
    (hid : r.identity = cur.identity)
    (hprep : r.preparedColumns = cur.preparedColumns ∨ cur.status = .created)
    (hsim : r.simulationColumns = cur.simulationColumns ∨ cur.status = .prepared)
    (hsig : r.signedColumns = cur.signedColumns ∨ cur.status = .awaitingSignature)
    (hbase : r.submissionValidatedLedger = cur.submissionValidatedLedger)
    (hatt : cur.submissionAttemptCount ≤ r.submissionAttemptCount) : cur.Le r := by
  refine ⟨hid.symm, .of_canTransition hcan, fun h1 => ?_, fun h1 h2 => ?_, fun h1 h2 => ?_,
    fun h1 _ => ?_, fun h1 => hbase ▸ h1, hatt⟩
  · exact (hprep.resolve_right h1).symm
  · exact (hsim.resolve_right h2).symm
  · refine (hsig.resolve_right fun hs => h2 ?_).symm
    rw [hs]
    decide
  · have hne : ∀ s t : Status, canTransition s t = true → s ≠ t := by decide
    exact absurd h1 (hne _ _ hcan)

/-- The version a transition from one unsigned status was decided on is the current one. -/
theorem IntentRow.Le.eq_of_from {s : Status} (hle : c.Le cur) (hc : c.status = s)
    (hfrom : cur.status ∈ [s]) (hs : s ∉ signedActiveStatuses) : c = cur := by
  rw [List.mem_singleton] at hfrom
  exact hle.frozen (hc.trans hfrom.symm) (hc ▸ hs)

theorem buildBlob_ok {t : Record} {blob : String} (h : buildBlob P t = .ok blob) :
    validateTransaction P t = .ok () ∧ encodeTransaction P t = .ok blob := by
  obtain ⟨_, h1, h2⟩ := Except.bind_eq_ok.mp (mapError_ok h)
  exact ⟨h1, h2⟩

/-- The row after the transition to `PREPARED` has a prepared transaction. -/
theorem BuiltBy.prepared {payload params index blob} (t now : ℕ)
    (hb : BuiltBy P h pid c payload params index blob) (hle : c.Le cur) :
    Prepared P ((preparedRequest (buildTransaction payload params) blob index params.sequence
      params.fee params.lastLedgerSequence t).updated P now cur) := by
  obtain ⟨v, cu, fee, r₁, r₂, r₃, r₄, hp, -, -, -, -, -, -, hfee, -, hlast, hblob⟩ := hb
  obtain ⟨-, hlo, hhi⟩ := checkFee_ok hfee
  exact ⟨payload, params, blob, index, hle.payload ▸ hp, rfl, (buildBlob_ok hblob).2, rfl, rfl, rfl,
    rfl, rfl, hlast, hlo, hhi, rfl⟩

/-- A transition that writes at most the failure code. -/
theorem keeps_plain {req : TransitionRequest} {code : Option FailureCode} (dst : Status)
    (hdst : req.toStatus = dst) (hpatch : req.patch = { failureCode := code }) (hok : cur.Ok P)
    (hcan : canTransition cur.status req.toStatus = true)
    (hto : dst ∉ [.prepared, .simulated, .signed, .validated])
    (hpass : dst = .awaitingSignature → cur.simulationEngineResult = some "tesSUCCESS")
    (hcode : (code = none ∧ dst ≠ .failed) ∨ (dst = .failed ∧ code.isSome))
    (now : ℕ) : (req.updated P now cur).Ok P ∧ cur.Le (req.updated P now cur) := by
  subst hdst
  simp only [List.mem_cons, List.not_mem_nil, or_false, not_or] at hto
  obtain ⟨h1, h2, h3, h4⟩ := hto
  have hr : req.updated P now cur = { cur with
      failureCode := code.or cur.failureCode, status := req.toStatus, updatedAt := now } := by
    simp only [TransitionRequest.updated, hpatch]
    rfl
  rw [hr]
  refine ⟨hok.move hcan rfl (.inl ⟨rfl, h1⟩) (.inl ⟨rfl, h2⟩) hpass (.inl ⟨rfl, h3⟩) (.inl rfl)
    (.inl ⟨rfl, h4⟩) ?_, .move hcan rfl (.inl rfl) (.inl rfl) (.inl rfl) rfl le_rfl⟩
  rcases hcode with ⟨rfl, hf⟩ | ⟨hf, hc⟩
  · exact .inl ⟨rfl, hf⟩
  · exact .inr ⟨hf, by simp [hc]⟩

theorem keeps_prepared {payload params index blob} (t now : ℕ)
    (hb : BuiltBy P h pid c payload params index blob) (hle : c.Le cur) (hok : cur.Ok P)
    (hs : cur.status = .created) :
    let r := (preparedRequest (buildTransaction payload params) blob index params.sequence
      params.fee params.lastLedgerSequence t).updated P now cur
    r.Ok P ∧ cur.Le r := by
  intro r
  have hcan : canTransition cur.status .prepared = true := by rw [hs]; decide
  exact ⟨hok.move hcan rfl (.inr ⟨rfl, hb.prepared t now hle⟩) (.inl ⟨rfl, nofun⟩) nofun
    (.inl ⟨rfl, nofun⟩) (.inl rfl) (.inl ⟨rfl, nofun⟩) (.inl ⟨rfl, nofun⟩),
    .move hcan rfl (.inr hs) (.inl rfl) (.inl rfl) rfl le_rfl⟩

theorem keeps_mismatch (raw : Record) (now : ℕ) (hok : cur.Ok P) (hs : cur.status = .prepared) :
    let r := (mismatchRequest raw).updated P now cur
    r.Ok P ∧ cur.Le r := by
  intro r
  have hcan : canTransition cur.status .failed = true := by rw [hs]; decide
  exact ⟨hok.move hcan rfl (.inl ⟨rfl, nofun⟩) (.inr (.inr rfl)) nofun (.inl ⟨rfl, nofun⟩)
    (.inl rfl) (.inl ⟨rfl, nofun⟩) (.inr ⟨rfl, rfl⟩),
    .move hcan rfl (.inl rfl) (.inr hs) (.inl rfl) rfl le_rfl⟩

theorem keeps_simulated (result : SimulationResult) (raw : Record) (t now : ℕ) (hok : cur.Ok P)
    (hs : cur.status = .prepared) :
    let r := (simulatedRequest result raw t).updated P now cur
    r.Ok P ∧ cur.Le r := by
  intro r
  have hcan : canTransition cur.status .simulated = true := by rw [hs]; decide
  exact ⟨hok.move hcan rfl (.inl ⟨rfl, nofun⟩) (.inr (.inl ⟨rfl, rfl⟩)) nofun (.inl ⟨rfl, nofun⟩)
    (.inl rfl) (.inl ⟨rfl, nofun⟩) (.inl ⟨rfl, nofun⟩),
    .move hcan rfl (.inl rfl) (.inr hs) (.inl rfl) rfl le_rfl⟩

theorem keeps_signed {txBlob preparedTxBlob : String} {verified : VerifiedSignedBlob} (t now : ℕ)
    (hok : cur.Ok P) (hs : cur.status = .awaitingSignature)
    (hblob : cur.preparedTxBlob = some preparedTxBlob)
    (hver : verify P txBlob preparedTxBlob = .ok verified) :
    let r := (signedRequest verified t).updated P now cur
    r.Ok P ∧ cur.Le r := by
  intro r
  have hcan : canTransition cur.status .signed = true := by rw [hs]; decide
  exact ⟨hok.move hcan rfl (.inl ⟨rfl, nofun⟩) (.inl ⟨rfl, nofun⟩) nofun
    (.inr ⟨rfl, _, _, _, hblob, hver, rfl, rfl, rfl, rfl⟩) (.inl rfl) (.inl ⟨rfl, nofun⟩)
    (.inl ⟨rfl, nofun⟩), .move hcan rfl (.inl rfl) (.inl rfl) (.inr hs) rfl le_rfl⟩

theorem keeps_malformed (result : SubmitResult) (raw : Record) (t now : ℕ) (hok : cur.Ok P)
    (hs : cur.status = .signed) :
    let r := (malformedRequest result raw t).updated P now cur
    r.Ok P ∧ cur.Le r := by
  intro r
  have hcan : canTransition cur.status .rejected = true := by rw [hs]; decide
  exact ⟨hok.move hcan rfl (.inl ⟨rfl, nofun⟩) (.inl ⟨rfl, nofun⟩) nofun (.inl ⟨rfl, nofun⟩)
    (.inr (.inr rfl)) (.inl ⟨rfl, nofun⟩) (.inl ⟨rfl, nofun⟩),
    .move hcan rfl (.inl rfl) (.inl rfl) (.inl rfl) rfl (Nat.le_add_right _ _)⟩

theorem keeps_submitted (result : SubmitResult) (raw : Record) (t now : ℕ) (hok : cur.Ok P)
    (hs : cur.status = .signed) :
    let r := (submittedRequest result raw t).updated P now cur
    r.Ok P ∧ cur.Le r := by
  intro r
  have hcan : canTransition cur.status .submitted = true := by rw [hs]; decide
  exact ⟨hok.move hcan rfl (.inl ⟨rfl, nofun⟩) (.inl ⟨rfl, nofun⟩) nofun (.inl ⟨rfl, nofun⟩)
    (.inr (.inl rfl)) (.inl ⟨rfl, nofun⟩) (.inl ⟨rfl, nofun⟩),
    .move hcan rfl (.inl rfl) (.inl rfl) (.inl rfl) rfl (Nat.le_add_right _ _)⟩

theorem keeps_validated (lookup : TxLookup) (raw : Record) (result : String) (index t now : ℕ)
    (hok : cur.Ok P) (hcan : canTransition cur.status .validated = true) :
    let r := (validatedRequest P lookup raw result index t).updated P now cur
    r.Ok P ∧ cur.Le r := by
  intro r
  exact ⟨hok.move hcan rfl (.inl ⟨rfl, nofun⟩) (.inl ⟨rfl, nofun⟩) nofun (.inl ⟨rfl, nofun⟩)
    (.inl rfl) (.inr ⟨rfl, rfl⟩) (.inl ⟨rfl, nofun⟩),
    .move hcan rfl (.inl rfl) (.inl rfl) (.inl rfl) rfl le_rfl⟩

/-- **A permitted transition** keeps the data right and gives a later version. -/
theorem Move.keeps {req : TransitionRequest} (hm : Move P h pid l c req) (hle : c.Le cur)
    (hok : cur.Ok P) (hfrom : cur.status ∈ req.fromStatuses)
    (hcan : canTransition cur.status req.toStatus = true) (now : ℕ) :
    (req.updated P now cur).Ok P ∧ cur.Le (req.updated P now cur) := by
  cases hm with
  | prepared t hs hb =>
    exact keeps_prepared t now hb hle hok (by simpa [preparedRequest] using hfrom)
  | mismatch => exact keeps_mismatch _ now hok (by simpa [mismatchRequest] using hfrom)
  | simulated t => exact keeps_simulated _ _ t now hok (by simpa [simulatedRequest] using hfrom)
  | signed t hs _ _ _ _ _ hblob hver =>
    rw [hle.eq_of_from hs hfrom (by decide)] at hblob
    exact keeps_signed t now hok (by simpa [signedRequest] using hfrom) hblob hver
  | malformed t =>
    exact keeps_malformed _ _ t now hok (by simpa [malformedRequest] using hfrom)
  | submitted t =>
    exact keeps_submitted _ _ t now hok (by simpa [submittedRequest] using hfrom)
  | validated t => exact keeps_validated _ _ _ _ t now hok hcan
  | simulationPassed hs he =>
    rw [hle.eq_of_from hs hfrom (by decide)] at he
    exact keeps_plain .awaitingSignature rfl rfl hok hcan (by decide) (fun _ => he)
      (.inl ⟨rfl, nofun⟩) now
  | simulationRejected =>
    exact keeps_plain .rejected rfl rfl hok hcan (by decide) nofun (.inl ⟨rfl, nofun⟩) now
  | windowExpired | signatureExpired | unsignedExpired | absent =>
    exact keeps_plain .expired rfl rfl hok hcan (by decide) nofun (.inl ⟨rfl, nofun⟩) now
  | sequenceChanged | inconsistent | unexpected | sequenceConflict | sequenceRegression =>
    exact keeps_plain .failed rfl rfl hok hcan (by decide) nofun (.inr ⟨rfl, rfl⟩) now

/-- **A permitted update** keeps the data right and gives a later version of the same status. -/
theorem Touch.keeps {statuses : List Status} {patch : IntentPatch}
    (ht : Touch h pid l c statuses patch) (hok : cur.Ok P) (hfrom : cur.status ∈ statuses)
    (now : ℕ) : (patch.updated P now cur).Ok P ∧ cur.Le (patch.updated P now cur) ∧
      cur.status ∈ signedActiveStatuses := by
  have hs : cur.status ∈ signedActiveStatuses := by
    cases ht with
    | baseline => simp only [List.mem_singleton] at hfrom; rw [hfrom]; decide
    | attempted => exact hfrom
    | resubmitted => simp only [List.mem_singleton] at hfrom; rw [hfrom]; decide
  have hle {r : IntentRow} (hid : r.identity = cur.identity) (hst : r.status = cur.status)
      (h1 : r.preparedColumns = cur.preparedColumns)
      (h2 : r.simulationColumns = cur.simulationColumns)
      (h3 : r.signedColumns = cur.signedColumns)
      (h4 : cur.submissionValidatedLedger.isSome → r.submissionValidatedLedger.isSome)
      (h5 : cur.submissionAttemptCount ≤ r.submissionAttemptCount) : cur.Le r :=
    ⟨hid.symm, hst ▸ .refl _, fun _ => h1.symm, fun _ _ => h2.symm, fun _ _ => h3.symm,
      fun _ hn => absurd hs hn, h4, h5⟩
  cases ht with
  | baseline =>
    exact ⟨hok.touch hs rfl rfl rfl rfl rfl rfl rfl, hle rfl rfl rfl rfl rfl (fun _ => rfl) le_rfl,
      hs⟩
  | attempted =>
    exact ⟨hok.touch hs rfl rfl rfl rfl rfl rfl rfl, hle rfl rfl rfl rfl rfl id le_rfl, hs⟩
  | resubmitted =>
    exact ⟨hok.touch hs rfl rfl rfl rfl rfl rfl rfl,
      hle rfl rfl rfl rfl rfl id (Nat.le_add_right _ _), hs⟩

end Keeps

/-! ## The tables -/

variable (P : Platform)

/-- The invariant of the tables: every row satisfies `IntentRow.Ok`, ids are unique, and so are
the hashes and, among sequence-active rows, the accounts. -/
structure Db.Ok (db : Db) : Prop where
  rows : ∀ r ∈ db.rows, r.Ok P
  ids : ∀ r ∈ db.rows, db.find r.id = some r
  active : ∀ r ∈ db.rows, ∀ o ∈ db.rows, r.active = true → o.active = true →
    o.networkId = r.networkId → o.sourceAccount = r.sourceAccount → o.id = r.id
  hashes : ∀ r ∈ db.rows, ∀ o ∈ db.rows, ∀ hash, r.transactionHash = some hash →
    o.transactionHash = some hash → o.id = r.id

/-- Every row of `db` is in `db'`, in the same or a later version. -/
def Db.Le (db db' : Db) : Prop :=
  ∀ id r, db.find id = some r → ∃ r', db'.find id = some r' ∧ r.Le r'

section Tables

variable {P} {db db' : Db} {cur r : IntentRow}

theorem Db.Le.refl (db : Db) : db.Le db := fun _ r hr => ⟨r, hr, .refl r⟩

theorem Db.Le.trans {db'' : Db} (h : db.Le db') (h' : db'.Le db'') : db.Le db'' := by
  intro id r hr
  obtain ⟨r', hr', hle⟩ := h id r hr
  obtain ⟨r'', hr'', hle'⟩ := h' id r' hr'
  exact ⟨r'', hr'', hle.trans hle'⟩

theorem Db.find_congr (h : db'.rows = db.rows) (id : String) : db'.find id = db.find id := by
  simp only [Db.find, h]

theorem Db.Ok.congr (hok : db.Ok P) (h : db'.rows = db.rows) : db'.Ok P where
  rows := by rw [h]; exact hok.rows
  ids := by simpa only [h, Db.find_congr h] using hok.ids
  active := by rw [h]; exact hok.active
  hashes := by rw [h]; exact hok.hashes

theorem Db.Le.congr (h : db'.rows = db.rows) : db.Le db' := fun id r hr =>
  ⟨r, (Db.find_congr h id).trans hr, .refl r⟩

/-- The tables with one row written: what held of the others still holds, and the indexes have
admitted the new one. -/
theorem Db.Ok.write (hok : db.Ok P) (hr : r.Ok P) (hv : db.violation r = none)
    (hmem : ∀ o ∈ db'.rows, o = r ∨ (o ∈ db.rows ∧ o.id ≠ r.id))
    (hfind : ∀ id, db'.find id = if id = r.id then some r else db.find id) : db'.Ok P := by
  refine ⟨fun o ho => ?_, fun o ho => ?_, fun o ho o' ho' => ?_, fun o ho o' ho' => ?_⟩
  · rcases hmem o ho with rfl | ⟨ho, _⟩
    · exact hr
    · exact hok.rows o ho
  · rw [hfind]
    rcases hmem o ho with rfl | ⟨ho, hid⟩
    · rw [if_pos rfl]
    · rw [if_neg hid]; exact hok.ids o ho
  · rcases hmem o ho with rfl | ⟨ho, hid⟩ <;> rcases hmem o' ho' with rfl | ⟨ho', hid'⟩
    · exact fun _ _ _ _ => rfl
    · intro h1 h2 h3 h4
      exact absurd h4 ((Db.violation_none hv ho' hid').1 h1 h2 h3)
    · intro h1 h2 h3 h4
      exact absurd h4.symm ((Db.violation_none hv ho hid).1 h2 h1 h3.symm)
    · exact hok.active o ho o' ho'
  · rcases hmem o ho with rfl | ⟨ho, hid⟩ <;> rcases hmem o' ho' with rfl | ⟨ho', hid'⟩
    · exact fun _ _ _ => rfl
    · intro hash h1 h2
      exact absurd h2 ((Db.violation_none hv ho' hid').2 hash h1)
    · intro hash h1 h2
      exact absurd h1 ((Db.violation_none hv ho hid).2 hash h2)
    · exact hok.hashes o ho o' ho'

theorem Db.Ok.put (hok : db.Ok P) (hf : db.find cur.id = some cur) (hle : cur.Le r)
    (hr : r.Ok P) (hv : db.violation r = none) : (db.put r).Ok P :=
  hok.write hr hv (fun _ ho => Db.mem_put ho) (Db.find_put (hle.id ▸ hf))

/-- The lookups after a row is written. -/
theorem Db.find_written {id : String} (hf : db.find id = some cur) (hle : cur.Le r) (id' : String) :
    (db.put r).find id' = if id' = id then some r else db.find id' := by
  have hid : r.id = id := hle.id.symm.trans (Db.find_id hf)
  rw [Db.find_put (hid.symm ▸ hf), hid]

theorem Db.Le.put (hf : db.find cur.id = some cur) (hle : cur.Le r) : db.Le (db.put r) := by
  intro id o ho
  rw [Db.find_put (hle.id ▸ hf)]
  by_cases hid : id = r.id
  · rw [if_pos hid]
    rw [hid, ← hle.id, hf] at ho
    cases ho
    exact ⟨r, rfl, hle⟩
  · rw [if_neg hid]
    exact ⟨o, ho, .refl o⟩

theorem NewIntentRow.row_ok (new : NewIntentRow) (payload : IntentPayload)
    (h1 : new.intentPayload = payload.toJson) (h2 : new.sourceAccount = payload.account)
    (h3 : new.intentType = payload.type) : (new.row P).Ok P where
  payload := ⟨payload, congrArg P.jsonb h1, h2, h3⟩
  unprepared _ := rfl
  prepared h := absurd rfl h
  unsimulated _ := rfl
  simulated := nofun
  passed h := by
    rcases h with h | h | h <;> exact absurd h (by simp [NewIntentRow.row, signedActiveStatuses])
  unsigned _ := ⟨rfl, rfl⟩
  signed h := by
    rcases h with h | h | h
    · exact absurd h (by simp [NewIntentRow.row, signedActiveStatuses])
    · exact absurd h (by simp [NewIntentRow.row])
    · exact absurd rfl h
  unsettled _ := ⟨rfl, rfl⟩
  validated := by simp [NewIntentRow.row]
  failed := by simp [NewIntentRow.row]

theorem Db.Ok.append (hok : db.Ok P) (hf : db.find r.id = none) (hr : r.Ok P)
    (hv : db.violation r = none) (audit : List AuditRow) :
    (Db.mk (db.rows ++ [r]) audit).Ok P := by
  refine hok.write hr hv (fun o ho => ?_) (Db.find_append hf audit)
  rcases List.mem_append.mp ho with ho | ho
  · refine .inr ⟨ho, fun hid => ?_⟩
    have := hok.ids o ho
    rw [hid, hf] at this
    cases this
  · exact .inl (List.mem_singleton.mp ho)

theorem Db.Le.append (hf : db.find r.id = none) (audit : List AuditRow) :
    db.Le (Db.mk (db.rows ++ [r]) audit) := by
  intro id o ho
  rw [Db.find_append hf]
  by_cases hid : id = r.id
  · rw [hid, hf] at ho
    cases ho
  · rw [if_neg hid]
    exact ⟨o, ho, .refl o⟩

end Tables

/-! ## The discipline -/

/-- `c` is a version of its row that the table has held. -/
def Copy (db : Db) (c : IntentRow) : Prop :=
  c.Ok P ∧ ∃ cur, db.find c.id = some cur ∧ c.Le cur

/-- The blob is the stored one, and the call is a submission of that intent. -/
def MaySubmit (w : World Op Op.Ret Call State) (pid : ℕ) (l : Call) (txBlob : String) : Prop :=
  ∃ c, Copy P w.state.db c ∧ l = .submit c.id ∧ c.status ∈ signedActiveStatuses ∧
    c.signedTxBlob = some txBlob ∧ (c.submissionValidatedLedger.isSome ∨
      ∃ n out, ⟨pid, l, .updateInStatus c.id [.signed] (baseline n), .ok out⟩ ∈ w.log)

/-- Which operation a call may perform, and on what grounds. -/
def Permit (w : World Op Op.Ret Call State) (pid : ℕ) (l : Call) : Op → Prop
  | .transition id request =>
    ∃ c, Copy P w.state.db c ∧ c.id = id ∧ Move P w.log pid l c request
  | .updateInStatus id statuses patch =>
    ∃ c, Copy P w.state.db c ∧ c.id = id ∧ Touch w.log pid l c statuses patch
  | .createIdempotent row => ∃ idempotencyKey dto id networkId t,
    l = .create idempotencyKey dto ∧
      row = newIntentRow P idempotencyKey (toCanonicalIntent dto) id networkId t
  | .send (.submit txBlob) => MaySubmit P w pid l txBlob
  | .receive (.submit txBlob) => MaySubmit P w pid l txBlob
  | _ => True

section Steps

variable {P} {s s' : State} {db db' : Db} {c : IntentRow}

theorem Copy.mono (h : Copy P db c) (hle : db.Le db') : Copy P db' c := by
  obtain ⟨hok, cur, hf, hc⟩ := h
  obtain ⟨cur', hf', hc'⟩ := hle _ _ hf
  exact ⟨hok, cur', hf', hc.trans hc'⟩

theorem Copy.of_find (hok : db.Ok P) {id : String} (hf : db.find id = some c) :
    Copy P db c ∧ c.id = id :=
  ⟨⟨hok.rows c (Db.mem_of_find hf), c, (Db.find_id hf).symm ▸ hf, .refl c⟩, Db.find_id hf⟩

theorem Copy.of_mem (hok : db.Ok P) (hm : c ∈ db.rows) : Copy P db c :=
  (Copy.of_find hok (hok.ids c hm)).1

/-- **What a permitted transition does**: nothing, or it writes the next version of the row. -/
theorem transition_step (hok : s.db.Ok P) {h : History} {pid : ℕ} {l : Call}
    (hc : Copy P s.db c) {request : TransitionRequest} (hm : Move P h pid l c request)
    {r : Op.Ret (.transition c.id request)}
    (hx : (system P).exec s (.transition c.id request) r s') :
    (s' = s ∧ (∀ row, r ≠ .ok (some row)) ∧ (r = .ok none → ∀ cur, s.db.find c.id = some cur →
      cur.status ∉ request.fromStatuses)) ∨
    ∃ cur t, s.db.find c.id = some cur ∧ c.Le cur ∧ cur.status ∈ request.fromStatuses ∧
      canTransition cur.status request.toStatus = true ∧
      s.db.violation (request.updated P t cur) = none ∧ (request.updated P t cur).Ok P ∧
      cur.Le (request.updated P t cur) ∧ r = .ok (some (request.updated P t cur)) ∧
      s' = { s with db := { s.db.put (request.updated P t cur) with
        audit := s.db.audit ++ [request.audit c.id cur.status] } } := by
  rcases exec_transition hx with ⟨rfl, rfl⟩ | ⟨t, rfl, rfl⟩
  · exact .inl ⟨rfl, by simp, by simp⟩
  · rcases s.db.transition_cases P t c.id request with
      ⟨out, ho, hn, hnone⟩ | ⟨cur, hf, hfrom, hcan, hv, ho⟩
    · rw [ho]
      exact .inl ⟨rfl, hn, hnone⟩
    · obtain ⟨-, cur', hf', hle⟩ := hc
      rw [hf] at hf'
      cases hf'
      obtain ⟨h1, h2⟩ := hm.keeps hle (hok.rows cur (Db.mem_of_find hf)) hfrom hcan t
      refine .inr ⟨cur, t, hf, hle, hfrom, hcan, hv, h1, h2, ?_⟩
      rw [ho]
      exact ⟨rfl, rfl⟩

/-- **What a permitted update does**: nothing, or it writes the next version of the row. -/
theorem updateInStatus_step (hok : s.db.Ok P) {h : History} {pid : ℕ} {l : Call}
    (hc : Copy P s.db c) {statuses : List Status} {patch : IntentPatch}
    (ht : Touch h pid l c statuses patch) {r : Op.Ret (.updateInStatus c.id statuses patch)}
    (hx : (system P).exec s (.updateInStatus c.id statuses patch) r s') :
    (s' = s ∧ (∀ row, r ≠ .ok (some row)) ∧ (r = .ok none → ∀ cur, s.db.find c.id = some cur →
      cur.status ∉ statuses)) ∨
    ∃ cur t, s.db.find c.id = some cur ∧ c.Le cur ∧ cur.status ∈ statuses ∧
      cur.status ∈ signedActiveStatuses ∧
      s.db.violation (patch.updated P t cur) = none ∧ (patch.updated P t cur).Ok P ∧
      cur.Le (patch.updated P t cur) ∧ r = .ok (some (patch.updated P t cur)) ∧
      s' = { s with db := s.db.put (patch.updated P t cur) } := by
  rcases exec_updateInStatus hx with ⟨rfl, rfl⟩ | ⟨t, rfl, rfl⟩
  · exact .inl ⟨rfl, by simp, by simp⟩
  · rcases s.db.updateInStatus_cases P t c.id statuses patch with
      ⟨out, ho, hn, hnone⟩ | ⟨cur, hf, hfrom, hv, ho⟩
    · rw [ho]
      exact .inl ⟨rfl, hn, hnone⟩
    · obtain ⟨-, cur', hf', hle⟩ := hc
      rw [hf] at hf'
      cases hf'
      obtain ⟨h1, h2, h3⟩ := ht.keeps (hok.rows cur (Db.mem_of_find hf)) hfrom t
      refine .inr ⟨cur, t, hf, hle, hfrom, h3, hv, h1, h2, ?_⟩
      rw [ho]
      exact ⟨rfl, rfl⟩

/-- **What a permitted creation does**: nothing, or it inserts the row. -/
theorem createIdempotent_step {idempotencyKey : String} {payload : IntentPayload} {id : String}
    {networkId t : ℕ} {r : Op.Ret (.createIdempotent
      (newIntentRow P idempotencyKey payload id networkId t))}
    (hx : (system P).exec s (.createIdempotent
      (newIntentRow P idempotencyKey payload id networkId t)) r s') :
    (s' = s ∧ ∀ row, r = .ok (false, row) → row ∈ s.db.rows) ∨
    ∃ row : IntentRow, row.id = id ∧ row.status = .created ∧ s.db.find row.id = none ∧
      s.db.violation row = none ∧ row.Ok P ∧ r = .ok (true, row) ∧
      s' = { s with db := { rows := s.db.rows ++ [row], audit := s.db.audit ++
        [⟨id, none, .created, .intentCreated, none⟩] } } := by
  rcases exec_createIdempotent hx with ⟨rfl, rfl⟩ | ⟨rfl, rfl⟩
  · exact .inl ⟨rfl, by simp⟩
  · rcases s.db.createIdempotent_cases P (newIntentRow P idempotencyKey payload id networkId t) with
      ⟨out, ho, hn⟩ | ⟨hf, -, hv, ho⟩
    · rw [ho]
      exact .inl ⟨rfl, fun row h => (hn false row h).2.1⟩
    · refine .inr ⟨_, rfl, rfl, hf, hv, NewIntentRow.row_ok _ payload rfl rfl rfl, ?_⟩
      rw [ho]
      exact ⟨rfl, rfl⟩

/-- **A permitted operation** keeps the invariant of the tables, and every row in the same or a
later version. -/
theorem exec_ok {w : World Op Op.Ret Call State} {pid : ℕ} {l : Call} {op : Op} {r : op.Ret}
    (hok : w.state.db.Ok P) (hp : Permit P w pid l op) (hx : (system P).exec w.state op r s') :
    s'.db.Ok P ∧ w.state.db.Le s'.db := by
  by_cases hw : op.writes = true
  · cases op with
    | transition id request =>
      obtain ⟨c, hc, rfl, hm⟩ := hp
      rcases transition_step hok hc hm hx with ⟨rfl, -⟩ | ⟨cur, t, hf, -, -, -, hv, hr, hle, -, rfl⟩
      · exact ⟨hok, .refl _⟩
      · have hf' : w.state.db.find cur.id = some cur := (Db.find_id hf).symm ▸ hf
        exact ⟨(hok.put hf' hle hr hv).congr rfl, (Db.Le.put hf' hle).trans (.congr rfl)⟩
    | updateInStatus id statuses patch =>
      obtain ⟨c, hc, rfl, ht⟩ := hp
      rcases updateInStatus_step hok hc ht hx with
        ⟨rfl, -⟩ | ⟨cur, t, hf, -, -, -, hv, hr, hle, -, rfl⟩
      · exact ⟨hok, .refl _⟩
      · have hf' : w.state.db.find cur.id = some cur := (Db.find_id hf).symm ▸ hf
        exact ⟨hok.put hf' hle hr hv, .put hf' hle⟩
    | createIdempotent row =>
      obtain ⟨idempotencyKey, dto, id, networkId, t, -, rfl⟩ := hp
      rcases createIdempotent_step hx with ⟨rfl, -⟩ | ⟨row, -, -, hf, hv, hr, -, rfl⟩
      · exact ⟨hok, .refl _⟩
      · exact ⟨hok.append hf hr hv _, .append hf _⟩
    | _ => cases hw
  · obtain ⟨choice, hx⟩ := hx
    rw [perform_db (by simpa using hw) hx]
    exact ⟨hok, .refl _⟩

end Steps

/-- **The discipline of the service.** -/
def lifecycle : Discipline (system P) where
  Inv w := w.state.db.Ok P
  Rely w w' := w.state.db.Le w'.state.db ∧ w.log <+: w'.log
  Permit := Permit P
  refl w := ⟨.refl _, List.prefix_rfl⟩
  trans h h' := ⟨h.1.trans h'.1, h.2.trans h'.2⟩
  exec hi hp hx := by
    obtain ⟨hok, hle⟩ := exec_ok hi hp hx
    exact ⟨hok, hle, List.prefix_append _ _⟩
  env := by
    rintro w s hi ⟨ledger, rfl⟩
    exact ⟨hi, .refl _, List.prefix_rfl⟩
  restart := by
    rintro w s hi ⟨networkId, rfl⟩
    exact ⟨hi, .refl _, List.prefix_rfl⟩

end Orchestrator
