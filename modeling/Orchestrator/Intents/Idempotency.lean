import Orchestrator.Interleave.Path
import Orchestrator.Intents.Canonical
import Orchestrator.Lifecycle.Audit

/-!
# Idempotent creation

Concurrent `create` calls race for the unique index on the idempotency key. The one whose row is
inserted reports `created`; the others read that row back and compare hashes.

* `Db.holding`, `inserts`, `reach_holding`: the rows of a key, and the statements that inserted one;
* `reach_hashed`, `reach_replied`: whose hash a row has, and what the statements returned;
* `create_trace`: what one call does;
* `Idempotent`, **`idempotent_creation`**.
-/

namespace Orchestrator

open Interleave

variable {P : Platform} {ok : StepCond Op Op.Ret Failure Reply Call State} {k k' : Sys}

/-! ## One row for each key -/

section Keys

/-- The rows of an idempotency key. -/
def Db.holding (db : Db) (key : String) : List IntentRow :=
  db.rows.filter fun r => r.idempotencyKey = key

/-- The statement inserted a row for the key. -/
def inserts (key : String) : Entry Op Op.Ret Call → Bool
  | ⟨_, _, .createIdempotent new, .ok (true, _)⟩ => decide (new.idempotencyKey = key)
  | _ => false

theorem Db.length_holding_put {db : Db} (hids : ∀ r ∈ db.rows, db.find r.id = some r)
    {r cur : IntentRow} (hf : db.find r.id = some cur)
    (hk : r.idempotencyKey = cur.idempotencyKey) (key : String) :
    ((db.put r).holding key).length = (db.holding key).length := by
  simp only [holding, ← List.countP_eq_length_filter, put, List.countP_map]
  refine List.countP_congr fun o ho => ?_
  simp only [Function.comp_apply]
  split_ifs with hid
  · have hfo := hids o ho
    rw [hid, hf] at hfo
    rw [hk, Option.some.inj hfo]
  · rfl

theorem inserts_of_writes {key : String} {pid : ℕ} {l : Call} {op : Op} {r : op.Ret}
    (h : ∀ new, op ≠ .createIdempotent new) : inserts key ⟨pid, l, op, r⟩ = false := by
  cases op <;> first | rfl | exact absurd rfl (h _)

theorem inserts_eq {key : String} {e : Entry Op Op.Ret Call} (h : inserts key e = true) :
    ∃ pid l new row, e = ⟨pid, l, .createIdempotent new, .ok (true, row)⟩ ∧
      new.idempotencyKey = key := by
  unfold inserts at h
  split at h
  · next pid l new row => exact ⟨pid, l, new, row, rfl, of_decide_eq_true h⟩
  · cases h

/-- **One step and the rows of a key**: it keeps their number and inserts none, or it inserts the
first one. -/
theorem step_holding (hk : Reach (system P) ok k) {a : Act Op Op.Ret Failure Reply Call}
    (hs : Step (system P) k a k') (key : String) :
    (k'.log.filter (inserts key) = k.log.filter (inserts key) ∧
      (k'.state.db.holding key).length = (k.state.db.holding key).length) ∨
    ∃ e row, k'.log.filter (inserts key) = k.log.filter (inserts key) ++ [e] ∧
      k.state.db.holding key = [] ∧ k'.state.db.holding key = [row] := by
  cases hs with
  | start | finish | kill => exact .inl ⟨rfl, rfl⟩
  | env hx => obtain ⟨ledger, rfl⟩ := hx; exact .inl ⟨rfl, rfl⟩
  | restart hx => obtain ⟨networkId, rfl⟩ := hx; exact .inl ⟨rfl, rfl⟩
  | @op as bs pid l op cont r s hp hx =>
    have hok := reach_ok hk
    have quiet {e : Entry Op Op.Ret Call} (h : inserts key e = false) :
        (k.log ++ [e]).filter (inserts key) = k.log.filter (inserts key) := by
      simp [List.filter_append, h]
    by_cases hw : op.writes = true
    · cases op with
      | transition id request =>
        refine .inl ⟨quiet rfl, ?_⟩
        rcases exec_transition hx with ⟨-, rfl⟩ | ⟨t, -, rfl⟩
        · rfl
        · rcases k.state.db.transition_cases P t id request with
            ⟨out, ho, -⟩ | ⟨cur, hf, -, -, -, ho⟩
          · simp [ho]
          · have hf' : k.state.db.find (request.updated P t cur).id = some cur :=
              (Db.find_id hf : cur.id = id).symm ▸ hf
            simp only [World.record_state, ho]
            exact Db.length_holding_put hok.ids hf' rfl key
      | updateInStatus id statuses patch =>
        refine .inl ⟨quiet rfl, ?_⟩
        rcases exec_updateInStatus hx with ⟨-, rfl⟩ | ⟨t, -, rfl⟩
        · rfl
        · rcases k.state.db.updateInStatus_cases P t id statuses patch with
            ⟨out, ho, -⟩ | ⟨cur, hf, -, -, ho⟩
          · simp [ho]
          · have hf' : k.state.db.find (patch.updated P t cur).id = some cur :=
              (Db.find_id hf : cur.id = id).symm ▸ hf
            simp only [World.record_state, ho]
            exact Db.length_holding_put hok.ids hf' rfl key
      | createIdempotent new =>
        rcases exec_createIdempotent hx with ⟨rfl, rfl⟩ | ⟨rfl, rfl⟩
        · exact .inl ⟨quiet rfl, rfl⟩
        · simp only [World.record_state, World.record_log]
          rcases k.state.db.createIdempotent_cases P new with ⟨out, ho, hout⟩ | ⟨hf, hkey, hv, ho⟩
          · rw [ho]
            refine .inl ⟨quiet ?_, rfl⟩
            cases out with
            | error => rfl
            | ok result => rw [show result = (false, result.2) from Prod.ext (hout _ _ rfl).1 rfl]; rfl
          · rw [ho]
            have hrow : (new.row P).idempotencyKey = new.idempotencyKey := rfl
            by_cases he : new.idempotencyKey = key
            · have hnone : k.state.db.holding key = [] := by
                refine List.filter_eq_nil_iff.mpr fun o ho => ?_
                simpa [he] using hkey o ho
              refine .inr ⟨⟨pid, l, .createIdempotent new, .ok (true, new.row P)⟩, new.row P, ?_,
                hnone, ?_⟩
              · rw [List.filter_append, List.filter_cons_of_pos (by simpa [inserts] using he)]
                rfl
              · change (k.state.db.rows ++ [new.row P]).filter _ = _
                rw [List.filter_append, show k.state.db.rows.filter _ = [] from hnone]
                simp [hrow, he]
            · refine .inl ⟨quiet (by simpa [inserts] using he), ?_⟩
              simp [Db.holding, hrow, he]
      | _ => cases hw
    · obtain ⟨choice, hx⟩ := hx
      have hdb : s.db = k.state.db := perform_db (by simpa using hw) hx
      refine .inl ⟨quiet (inserts_of_writes fun new hop => hw (hop ▸ rfl)), ?_⟩
      rw [← hdb]
      rfl

/-- **One row for each key**, inserted by one statement of the run. -/
theorem reach_holding (hk : Reach (system P) ok k) (key : String) :
    (k.log.filter (inserts key)).length = (k.state.db.holding key).length ∧
      (k.state.db.holding key).length ≤ 1 := by
  refine hk.inv (P := fun k => (k.log.filter (inserts key)).length =
      (k.state.db.holding key).length ∧ (k.state.db.holding key).length ≤ 1) (fun s hs => ?_) ?_
  · simp [hs.1, Db.holding]
  · rintro k a k' hk ⟨heq, hle⟩ hs -
    rcases step_holding hk hs key with ⟨hlog, hlen⟩ | ⟨e, row, hlog, hnone, hone⟩
    · rw [hlog, hlen]
      exact ⟨heq, hle⟩
    · rw [hnone] at heq
      rw [hlog, hone, List.length_append, heq]
      exact ⟨rfl, le_rfl⟩

end Keys

/-! ## What is stored and what is answered -/

section Rows

/-- The row holds the intent and its hash. -/
def Stores (P : Platform) (r : IntentRow) (payload : IntentPayload) : Prop :=
  r.intentPayload = P.jsonb payload.toJson ∧ r.requestHash = requestHash P payload

theorem Stores.congr {r r' : IntentRow} {payload : IntentPayload} (h : Stores P r payload)
    (hr : r'.identity = r.identity) : Stores P r' payload := by
  simp only [IntentRow.identity, Prod.mk.injEq] at hr
  exact ⟨hr.2.2.2.2.2.2.1.trans h.1, hr.2.2.1.trans h.2⟩

/-- Where a row of the next configuration comes from. -/
theorem step_rows {a : Act Op Op.Ret Failure Reply Call} (hs : Step (system P) k a k')
    {r' : IntentRow} (hr' : r' ∈ k'.state.db.rows) :
    (∃ r ∈ k.state.db.rows, r'.identity = r.identity) ∨
      ∃ pid l new, a = .op pid l (.createIdempotent new) (.ok (true, r')) ∧ r' = new.row P := by
  cases hs with
  | start | finish | kill => exact .inl ⟨r', hr', rfl⟩
  | env hx => obtain ⟨ledger, rfl⟩ := hx; exact .inl ⟨r', hr', rfl⟩
  | restart hx => obtain ⟨networkId, rfl⟩ := hx; exact .inl ⟨r', hr', rfl⟩
  | @op as bs pid l op cont r s hp hx =>
    by_cases hw : op.writes = true
    · cases op with
      | transition id request =>
        rcases exec_transition hx with ⟨-, rfl⟩ | ⟨t, -, rfl⟩
        · exact .inl ⟨r', hr', rfl⟩
        · rcases k.state.db.transition_cases P t id request with
            ⟨out, ho, -⟩ | ⟨cur, hf, -, -, -, ho⟩
          · simp only [World.record_state, ho] at hr'
            exact .inl ⟨r', hr', rfl⟩
          · simp only [World.record_state, ho] at hr'
            rcases Db.mem_put hr' with rfl | ⟨hmem, -⟩
            · exact .inl ⟨cur, Db.mem_of_find hf, rfl⟩
            · exact .inl ⟨r', hmem, rfl⟩
      | updateInStatus id statuses patch =>
        rcases exec_updateInStatus hx with ⟨-, rfl⟩ | ⟨t, -, rfl⟩
        · exact .inl ⟨r', hr', rfl⟩
        · rcases k.state.db.updateInStatus_cases P t id statuses patch with
            ⟨out, ho, -⟩ | ⟨cur, hf, -, -, ho⟩
          · simp only [World.record_state, ho] at hr'
            exact .inl ⟨r', hr', rfl⟩
          · simp only [World.record_state, ho] at hr'
            rcases Db.mem_put hr' with rfl | ⟨hmem, -⟩
            · exact .inl ⟨cur, Db.mem_of_find hf, rfl⟩
            · exact .inl ⟨r', hmem, rfl⟩
      | createIdempotent new =>
        rcases exec_createIdempotent hx with ⟨-, rfl⟩ | ⟨rfl, rfl⟩
        · exact .inl ⟨r', hr', rfl⟩
        · rcases k.state.db.createIdempotent_cases P new with ⟨out, ho, -⟩ | ⟨-, -, -, ho⟩
          · simp only [World.record_state, ho] at hr'
            exact .inl ⟨r', hr', rfl⟩
          · simp only [World.record_state, ho, List.mem_append, List.mem_singleton] at hr'
            rcases hr' with hr' | rfl
            · exact .inl ⟨r', hr', rfl⟩
            · exact .inr ⟨pid, l, new, by rw [ho], rfl⟩
      | _ => cases hw
    · obtain ⟨choice, hx⟩ := hx
      have hdb : s.db = k.state.db := perform_db (by simpa using hw) hx
      exact .inl ⟨r', hdb ▸ hr', rfl⟩

/-- **Every row stores one canonical intent**, with its hash. -/
theorem reach_stores (hk : Reach (system P) ok k) :
    ∀ r ∈ k.state.db.rows, ∃ payload, Stores P r payload := by
  refine hk.inv (P := fun k => ∀ r ∈ k.state.db.rows, ∃ payload, Stores P r payload)
    (fun s hs => by simp [hs.1]) ?_
  rintro k a k' hk ih hs - r' hr'
  rcases step_rows hs hr' with ⟨r, hr, hid⟩ | ⟨pid, l, new, rfl, rfl⟩
  · obtain ⟨payload, hp⟩ := ih r hr
    exact ⟨payload, hp.congr hid⟩
  · obtain ⟨⟨key, dto, id, networkId, t, -, rfl⟩, -, -⟩ := reach_permit hk hs
    exact ⟨toCanonicalIntent dto, rfl, rfl⟩

/-- The reply of a creation that did not fail: what it asked to insert, whether it did, the row. -/
def reply? : Entry Op Op.Ret Call → Option (NewIntentRow × Bool × IntentRow)
  | ⟨_, _, .createIdempotent new, .ok (created, row)⟩ => some (new, created, row)
  | _ => none

/-- **A creation answers with the row of its key**, which is still there, in the same or a later
version. -/
theorem reach_replied (hk : Reach (system P) ok k) : ∀ e ∈ k.log, ∀ new created row,
    reply? e = some (new, created, row) →
    (∃ key dto id networkId t, e.label = .create key dto ∧
      new = newIntentRow P key (toCanonicalIntent dto) id networkId t) ∧
    row.idempotencyKey = new.idempotencyKey ∧ (created = true → row = new.row P) ∧
    ∃ row' ∈ k.state.db.rows, row.Le row' := by
  refine hk.inv (P := fun k => ∀ e ∈ k.log, ∀ new created row,
    reply? e = some (new, created, row) →
    (∃ key dto id networkId t, e.label = .create key dto ∧
      new = newIntentRow P key (toCanonicalIntent dto) id networkId t) ∧
    row.idempotencyKey = new.idempotencyKey ∧ (created = true → row = new.row P) ∧
    ∃ row' ∈ k.state.db.rows, row.Le row') (fun s _ e he => nomatch he) ?_
  rintro k a k' hk ih hs hcond e he new created row hreply
  have old (he : e ∈ k.log) : (∃ key dto id networkId t, e.label = .create key dto ∧
      new = newIntentRow P key (toCanonicalIntent dto) id networkId t) ∧
      row.idempotencyKey = new.idempotencyKey ∧ (created = true → row = new.row P) ∧
      ∃ row' ∈ k'.state.db.rows, row.Le row' := by
    obtain ⟨hlabel, hkey, hnew, row', hrow', hle⟩ := ih e he new created row hreply
    obtain ⟨row'', hf, hle'⟩ := step_le hk hs ((reach_ok hk).ids row' hrow')
    exact ⟨hlabel, hkey, hnew, row'', Db.mem_of_find hf, hle.trans hle'⟩
  rcases step_log hs with hlog | ⟨pid, l, op, r, rfl, hlog⟩
  · exact old (hlog ▸ he)
  rw [hlog, List.mem_append, List.mem_singleton] at he
  rcases he with he | rfl
  · exact old he
  cases op with
  | createIdempotent new' =>
    obtain ⟨⟨key, dto, id, networkId, t, rfl, rfl⟩, hx, -⟩ := reach_permit hk hs
    cases r with
    | error => cases hreply
    | ok result =>
      obtain ⟨created', row'⟩ := result
      cases hreply
      refine ⟨⟨key, dto, id, networkId, t, rfl, rfl⟩, ?_⟩
      rcases exec_createIdempotent hx with ⟨hr, -⟩ | ⟨hr, hs'⟩
      · cases hr
      · rcases k.state.db.createIdempotent_cases P
          (newIntentRow P key (toCanonicalIntent dto) id networkId t) with
          ⟨out, ho, hout⟩ | ⟨-, -, -, ho⟩
        · rw [ho] at hr hs'
          obtain ⟨rfl, hmem, hkey⟩ := hout _ _ hr.symm
          exact ⟨hkey, nofun, row, hs' ▸ hmem, .refl row⟩
        · rw [ho] at hr hs'
          cases hr
          refine ⟨rfl, fun _ => rfl, _, ?_, .refl _⟩
          rw [hs']
          simp
  | _ => cases hreply

end Rows

/-! ## One call -/

section Call

/-- What a call answers to the reply of its statement. -/
def createReply (P : Platform) (payload : IntentPayload) :
    Except DbError (Bool × IntentRow) → Except Failure Reply
  | .error e => .error e.failure
  | .ok (created, row) =>
    if created = false ∧ row.requestHash ≠ requestHash P payload then
      .error (ApiError .idempotencyKeyReused
        "This Idempotency-Key was already used for a different request.")
    else .ok (.created created row)

/-- What a call runs after its statement. -/
def createEnd (P : Platform) (payload : IntentPayload)
    (r : Except DbError (Bool × IntentRow)) : Service Reply :=
  (orThrow DbError.failure r >>= fun result =>
    if result.1 = false ∧ result.2.requestHash ≠ requestHash P payload then
      throwFailure (ApiError .idempotencyKeyReused
        "This Idempotency-Key was already used for a different request.")
    else pure result) >>= fun result => .ret (.created result.1 result.2)

theorem createEnd_outcome (P : Platform) (payload : IntentPayload)
    (r : Except DbError (Bool × IntentRow)) :
    (createEnd P payload r).outcome? = some (createReply P payload r) := by
  cases r with
  | error e => rfl
  | ok result =>
    obtain ⟨created, row⟩ := result
    simp only [createEnd, createReply, orThrow, Prog.ret_bind]
    split_ifs <;> rfl

/-- **What one call performs**: three reads, and its statement. -/
theorem create_trace {key : String} {dto : CreateIntentDto} {tr : List (Done Op Op.Ret State)}
    {p : Service Reply} {out : Except Failure Reply}
    (h : Trace (system P) (handle P (.create key dto)) tr p) (hout : p.outcome? = some out) :
    ∃ (d₁ d₂ d₃ : Done Op Op.Ret State) (s s' : State) (id : String) (networkId t : ℕ)
      (r : Except DbError (Bool × IntentRow)),
      tr = [d₁, d₂, d₃, ⟨s, .createIdempotent
        (newIntentRow P key (toCanonicalIntent dto) id networkId t), r, s'⟩] ∧
      d₁.op.writes = false ∧ d₂.op.writes = false ∧ d₃.op.writes = false ∧
      out = createReply P (toCanonicalIntent dto) r := by
  cases h with
  | refl => cases hout
  | @call s₁ _ _ t _ _ _ hx₁ h =>
  cases h with
  | refl => cases hout
  | @call s₂ _ _ id _ _ _ hx₂ h =>
  cases h with
  | refl => cases hout
  | @call s₃ _ _ networkId _ _ _ hx₃ h =>
  cases h with
  | refl => cases hout
  | @call s₄ _ _ r s' _ _ hx₄ h =>
    obtain ⟨rfl, rfl⟩ := h.of_outcome (createEnd_outcome P (toCanonicalIntent dto) r)
    obtain rfl := Option.some.inj
      (hout.symm.trans (createEnd_outcome P (toCanonicalIntent dto) r))
    exact ⟨_, _, _, s₄, s', id, networkId, t, r, rfl, rfl, rfl, rfl, rfl⟩

/-- A statement that does not insert leaves the tables alone. -/
theorem exec_createIdempotent_db {new : NewIntentRow} {r : Op.Ret (.createIdempotent new)}
    {s s' : State} (hx : (system P).exec s (.createIdempotent new) r s')
    (hr : ∀ row, r ≠ .ok (true, row)) : s'.db = s.db := by
  rcases exec_createIdempotent hx with ⟨-, rfl⟩ | ⟨rfl, rfl⟩
  · rfl
  · rcases s.db.createIdempotent_cases P new with ⟨out, ho, -⟩ | ⟨-, -, -, ho⟩
    · rw [ho]
    · exact absurd (by rw [ho]) (hr (new.row P))

end Call

/-! ## The audit row of the creation -/

section Trail

theorem chain_not_created {a : AuditRow} {trail : List AuditRow}
    (h : (a :: trail).IsChain AuditRow.Next) : ∀ b ∈ trail, b.toStatus ≠ .created := by
  have never : ∀ s : Status, canTransition s .created = false := by decide
  induction trail generalizing a with
  | nil => exact fun b hb => nomatch hb
  | cons c trail ih =>
    rw [List.isChain_cons_cons] at h
    intro b hb
    rcases List.mem_cons.mp hb with rfl | hb
    · intro hc
      have hcan := h.1.2
      rw [hc, never] at hcan
      cases hcan
    · exact ih h.2 b hb

/-- A path from creation is at `CREATED` once. -/
theorem IsPath.created_once {trail : List AuditRow} {status : Status} (h : IsPath trail status) :
    ∃ a, trail.filter (fun a => a.toStatus = .created) = [a] := by
  obtain ⟨a, hhead, -, hto⟩ := h.first
  cases trail with
  | nil => cases hhead
  | cons b trail =>
    obtain rfl := Option.some.inj hhead
    refine ⟨b, ?_⟩
    rw [List.filter_cons_of_pos (by simpa using hto), List.filter_eq_nil_iff.mpr]
    simpa using chain_not_created h.chain

end Trail

/-! ## All calls together -/

section Runs

/-- Call `pid` reports that it created the intent of the key. -/
def ReportsCreated (acts : List (Act Op Op.Ret Failure Reply Call)) (key : String) (pid : ℕ) :
    Prop :=
  ∃ dto row, .finish pid (.create key dto) (.ok (.created true row)) ∈ acts

/-- The call was answered, not broken off by an internal error. -/
def Replied (out : Except Failure Reply) : Prop := ∀ message, out ≠ .error (.internal message)

/-- What holds for an idempotency key after a run from `s` to `k` with the steps `acts`. -/
structure Idempotent (P : Platform) (s : State) (acts : List (Act Op Op.Ret Failure Reply Call))
    (k : Sys) (key : String) : Prop where
  /-- There is at most one intent, and it has one `CREATED` audit row. -/
  single : (k.state.db.holding key).length ≤ 1
  audited : ∀ row ∈ k.state.db.holding key,
    ∃ a, (k.state.db.trail row.id).filter (fun a => a.toStatus = .created) = [a]
  /-- There is one as soon as one call was answered. -/
  stored : ∀ pid dto out, .finish pid (.create key dto) out ∈ acts → Replied out →
    ∃ row payload, k.state.db.holding key = [row] ∧ asIntentPayload row.intentPayload = .ok payload
  /-- No two calls report that they created it, and if none was cut off, one does. -/
  unique : ∀ pid pid', ReportsCreated acts key pid → ReportsCreated acts key pid' → pid = pid'
  reported : (∀ pid dto, .start pid (.create key dto) ∈ acts →
      ∃ out, .finish pid (.create key dto) out ∈ acts) →
    (∃ pid dto out, .finish pid (.create key dto) out ∈ acts ∧ Replied out) →
    ∃ pid, ReportsCreated acts key pid
  /-- The same canonical intent returns the intent, any other is refused. -/
  same : ∀ pid dto out row, .finish pid (.create key dto) out ∈ acts → Replied out →
    row ∈ k.state.db.holding key →
    asIntentPayload row.intentPayload = .ok (toCanonicalIntent dto) →
    ∃ created r, out = .ok (.created created r) ∧ r.Le row
  other : ∀ pid dto out row, .finish pid (.create key dto) out ∈ acts → Replied out →
    row ∈ k.state.db.holding key →
    asIntentPayload row.intentPayload ≠ .ok (toCanonicalIntent dto) →
    out = .error (ApiError .idempotencyKeyReused
      "This Idempotency-Key was already used for a different request.")
  /-- Only the call that reports it created the intent changes anything. -/
  untouched : ∀ pid dto out, .finish pid (.create key dto) out ∈ acts →
    ¬ ReportsCreated acts key pid →
    Along (system P) (.start s) acts k fun c a c' =>
      ∀ l op r, a = .op pid l op r → c'.state.db = c.state.db
  /-- An internal error is the failure of the call's statement. -/
  failed : ∀ pid dto message, .finish pid (.create key dto) (.error (.internal message)) ∈ acts →
    ∃ l new error, ⟨pid, l, .createIdempotent new, .error error⟩ ∈ k.log

variable {s : State} {acts : List (Act Op Op.Ret Failure Reply Call)} {key : String} {pid : ℕ}
  {dto : CreateIntentDto} {out : Except Failure Reply}

/-- **A call that has ended**: its history, and what its statement was answered. -/
theorem finish_create (hi : (system P).init s) (hp : Path (system P) (.start s) acts k)
    (hf : .finish pid (.create key dto) out ∈ acts) :
    ∃ (reads : List (Entry Op Op.Ret Call)) (new : NewIntentRow)
      (r : Except DbError (Bool × IntentRow)),
      own pid k.log = reads ++ [⟨pid, .create key dto, .createIdempotent new, r⟩] ∧
      (∀ e ∈ reads, e.op.writes = false) ∧ new.idempotencyKey = key ∧
      Stores P (new.row P) (toCanonicalIntent dto) ∧
      out = createReply P (toCanonicalIntent dto) r := by
  obtain ⟨-, -, tr, p, htr, hout, hown⟩ := hp.finished hi hf
  obtain ⟨d₁, d₂, d₃, s₄, s', id, networkId, t, r, rfl, h₁, h₂, h₃, hreply⟩ :=
    create_trace htr hout
  refine ⟨[d₁, d₂, d₃].map (Done.entry pid (.create key dto)), _, r, hown, ?_, rfl, ⟨rfl, rfl⟩,
    hreply⟩
  simp [Done.entry, h₁, h₂, h₃]

/-- An answered call was answered with a row that the key still holds. -/
theorem finish_replied (hi : (system P).init s) (hp : Path (system P) (.start s) acts k)
    (hf : .finish pid (.create key dto) out ∈ acts) (hr : Replied out) :
    ∃ created r row, out = createReply P (toCanonicalIntent dto) (.ok (created, r)) ∧
      (created = true → Stores P r (toCanonicalIntent dto)) ∧ r.Le row ∧
      row ∈ k.state.db.holding key := by
  obtain ⟨reads, new, r, hown, -, rfl, hnew, hout⟩ := finish_create hi hp hf
  cases r with
  | error e => cases e <;> exact absurd hout (hr _)
  | ok result =>
    obtain ⟨created, r⟩ := result
    have hmem : ⟨pid, .create new.idempotencyKey dto, .createIdempotent new, .ok (created, r)⟩ ∈
        own pid k.log := by simp [hown]
    obtain ⟨-, hkey, hrow, row, hrow', hle⟩ :=
      reach_replied (hp.reach hi) _ (mem_own.mp hmem).1 _ _ _ rfl
    refine ⟨created, r, row, hout, fun hc => hrow hc ▸ hnew, hle, List.mem_filter.mpr ⟨hrow', ?_⟩⟩
    have hid := hle.identity
    simp only [IntentRow.identity, Prod.mk.injEq] at hid
    simpa [← hid.2.1] using hkey

/-- A report of creation stands for a statement that inserted. -/
theorem ReportsCreated.inserts (hi : (system P).init s)
    (hp : Path (system P) (.start s) acts k) (h : ReportsCreated acts key pid) :
    ∃ e ∈ k.log.filter (inserts key), e.pid = pid := by
  obtain ⟨dto, row, hf⟩ := h
  obtain ⟨reads, new, r, hown, -, rfl, hnew, hout⟩ := finish_create hi hp hf
  have hmem : ⟨pid, .create new.idempotencyKey dto, .createIdempotent new, r⟩ ∈ own pid k.log := by
    simp [hown]
  refine ⟨_, List.mem_filter.mpr ⟨(mem_own.mp hmem).1, ?_⟩, rfl⟩
  cases r with
  | error e => cases hout
  | ok result =>
    obtain ⟨created, r⟩ := result
    simp only [createReply] at hout
    split_ifs at hout
    cases hout
    simp [Orchestrator.inserts]

theorem eq_singleton_of_short {α : Type} {l : List α} (h : l.length ≤ 1) {a : α} (ha : a ∈ l) :
    l = [a] := by
  match l, h with
  | [c], _ => rw [List.mem_singleton.mp ha]

theorem eq_of_mem_short {α : Type} {l : List α} (h : l.length ≤ 1) {a b : α} (ha : a ∈ l)
    (hb : b ∈ l) : a = b := by
  rw [eq_singleton_of_short h hb] at ha
  exact List.mem_singleton.mp ha

/-- **Idempotent creation**, in every run. -/
theorem idempotent (hP : P.CollisionFree) (hj : P.JsonbPreserves) (hi : (system P).init s)
    (hp : Path (system P) (.start s) acts k) (key : String) : Idempotent P s acts k key := by
  have hreach := hp.reach hi
  have hok := reach_ok hreach
  obtain ⟨hcount, hsingle⟩ := reach_holding hreach key
  have holds {row : IntentRow} (hrow : row ∈ k.state.db.holding key) :
      ∃ payload, Stores P row payload ∧ asIntentPayload row.intentPayload = .ok payload := by
    obtain ⟨payload, hs⟩ := reach_stores hreach row (List.mem_filter.mp hrow).1
    exact ⟨payload, hs, asIntentPayload_same payload (hs.1 ▸ hj _)⟩
  refine ⟨hsingle, fun row hrow => ?_, fun pid dto out hf hr => ?_, fun pid pid' h h' => ?_,
    fun hall ⟨pid, dto, out, hf, hr⟩ => ?_, fun pid dto out row hf hr hrow hsame => ?_,
    fun pid dto out row hf hr hrow hother => ?_, fun pid dto out hf hnot => ?_,
    fun pid dto message hf => ?_⟩
  · -- audited
    exact ((reach_trail hreach row.id).1 row (hok.ids row (List.mem_filter.mp hrow).1)).created_once
  · -- stored
    obtain ⟨-, -, row, -, -, -, hrow⟩ := finish_replied hi hp hf hr
    obtain ⟨payload, -, hpayload⟩ := holds hrow
    exact ⟨row, payload, eq_singleton_of_short hsingle hrow, hpayload⟩
  · -- unique
    obtain ⟨e, he, rfl⟩ := h.inserts hi hp
    obtain ⟨e', he', rfl⟩ := h'.inserts hi hp
    rw [eq_of_mem_short (hcount.trans_le hsingle) he he']
  · -- reported
    obtain ⟨-, -, row, -, -, -, hrow⟩ := finish_replied hi hp hf hr
    rw [eq_singleton_of_short hsingle hrow] at hcount
    obtain ⟨e, he⟩ := List.length_eq_one_iff.mp hcount
    have hmem := List.mem_filter.mp (he ▸ List.mem_singleton_self e)
    obtain ⟨pid', l, new, row', rfl, rfl⟩ := inserts_eq hmem.2
    obtain ⟨⟨key, dto', id, networkId, t, rfl, rfl⟩, -⟩ :=
      reach_replied hreach _ hmem.1 _ _ _ rfl
    obtain ⟨out', hf'⟩ := hall pid' dto' (hp.started.2 _ hmem.1)
    obtain ⟨reads, new', r', hown, hreads, -, -, hout⟩ := finish_create hi hp hf'
    have hself : _ ∈ own pid' k.log := mem_own.mpr ⟨hmem.1, rfl⟩
    rw [hown] at hself
    rcases List.mem_append.mp hself with hread | hlast
    · cases hreads _ hread
    · cases List.mem_singleton.mp hlast
      rw [hout] at hf'
      exact ⟨pid', dto', row', hf'⟩
  · -- same
    obtain ⟨created, r, row', rfl, -, hle, hrow'⟩ := finish_replied hi hp hf hr
    obtain rfl := eq_of_mem_short hsingle hrow hrow'
    obtain ⟨payload, hstores, hpayload⟩ := holds hrow
    obtain rfl : payload = toCanonicalIntent dto := Except.ok.inj (hpayload.symm.trans hsame)
    have hstores' := hstores.congr hle.identity
    refine ⟨created, r, ?_, hle⟩
    rw [createReply, if_neg fun h => h.2 hstores'.2]
  · -- other
    obtain ⟨created, r, row', rfl, hnew, hle, hrow'⟩ := finish_replied hi hp hf hr
    obtain rfl := eq_of_mem_short hsingle hrow hrow'
    obtain ⟨payload, hstores, hpayload⟩ := holds hrow
    have hstores' := hstores.congr hle.identity
    have hne : r.requestHash ≠ requestHash P (toCanonicalIntent dto) := fun h =>
      hother (requestHash_injective hP (hstores'.2.symm.trans h) ▸ hpayload)
    have hread : created = false := Bool.eq_false_iff.mpr fun hc => hne (hnew hc).2
    rw [createReply, if_pos ⟨hread, hne⟩]
  · -- untouched
    intro as a bs c c' hacts hpre hs hpost l op r ha
    subst ha
    obtain ⟨reads, new, r', hown, hreads, rfl, -, hout⟩ := finish_create hi hp hf
    have hmem : ⟨pid, l, op, r⟩ ∈ own pid k.log :=
      mem_own.mpr ⟨hpost.log_prefix.subset hs.mem_log, rfl⟩
    obtain ⟨-, hx, -⟩ := reach_permit (hpre.reach hi) hs
    rw [hown] at hmem
    rcases List.mem_append.mp hmem with hread | hlast
    · obtain ⟨choice, hx⟩ := hx
      exact perform_db (hreads _ hread) hx
    · cases List.mem_singleton.mp hlast
      refine exec_createIdempotent_db hx fun row hrow => hnot ⟨dto, row, ?_⟩
      rw [hrow] at hout
      rw [hout] at hf
      exact hf
  · -- failed
    obtain ⟨reads, new, r, hown, -, rfl, -, hout⟩ := finish_create hi hp hf
    cases r with
    | error e =>
      have hmem : ⟨pid, .create new.idempotencyKey dto, .createIdempotent new, .error e⟩ ∈
          own pid k.log := by simp [hown]
      exact ⟨_, new, e, (mem_own.mp hmem).1⟩
    | ok result =>
      simp only [createReply] at hout
      split_ifs at hout
      cases hout

end Runs

/-- **Idempotent creation.** In every run, each idempotency key has one intent with one `CREATED`
audit row, reported as created by one call; the calls with the same canonical intent return it, and
the others are refused and change nothing. Two accepted bodies have the same canonical intent
exactly when they agree on every business field, unless both have an array in the place of a nested
object, not the same one, and agree on the rest. -/
theorem idempotent_creation (P : Platform) (hP : P.CollisionFree) (hj : P.JsonbPreserves) :
    (∀ s acts k, (system P).init s → Path (system P) (.start s) acts k →
      ∀ key, Idempotent P s acts k key) ∧
    ∀ r r' dto dto', CreateIntentPipe.transform P (.obj r) = .ok dto →
      CreateIntentPipe.transform P (.obj r') = .ok dto' →
      ((toCanonicalIntent dto = toCanonicalIntent dto' ↔ Agrees r r') ↔ ¬ Blurred r r') := by
  refine ⟨fun s acts k hi hp key => idempotent hP hj hi hp key, fun r r' dto dto' h h' => ?_⟩
  obtain ⟨_, hr, hc⟩ := transform_carries h
  obtain ⟨_, hr', hc'⟩ := transform_carries h'
  cases hr
  cases hr'
  rw [canonical_eq_iff hc hc']
  exact ⟨fun hiff hb => not_agrees_of_blurred hb (hiff.mp (.inr hb)),
    fun hb => or_iff_left hb⟩

namespace Sample

/-- A payment as the API receives it. -/
def body (amount : Json) (tag : Record) : Record :=
  [("type", .str "PAYMENT"), ("account", .str "rPT1Sjq2YGrBMTttX4GZHjKu9dyfzbpAYe"),
    ("destination", .str "rHb9CJAWyB4rj91VRWn96DkukG4bwdtyTh"), ("amount", amount)] ++ tag

def drops (n : String) : Json := .obj [("type", .str "XRP"), ("drops", .str n)]

/-- A platform that gives the intent of `dto` a hash that the tables accept. -/
def hashing : Platform :=
  { platform with
    sha256 := fun s =>
      if s = (toCanonicalIntent dto).toJson.stringify then hash 0 else "-" ++ s }

theorem hashing_collisionFree : hashing.CollisionFree := by
  have hne (s : String) : hash 0 ≠ "-" ++ s := fun h => by
    have := congrArg (fun t : String => t.toList.head?) h
    simp [hash] at this
  intro s t h
  simp only [hashing, platform, id_eq] at h
  split_ifs at h with hs ht ht
  · rw [hs, ht]
  · exact absurd h (hne t)
  · exact absurd h.symm (hne s)
  · exact String.toList_inj.mp (by simpa using congrArg String.toList h)

end Sample

/-- Two calls with one key, each performed between the operations of the other; and a body without a
tag and one with null and a key that is skipped. -/
theorem idempotent_creation_twice :
    (∃ s acts k row, (system Sample.hashing).init s ∧
      Path (system Sample.hashing) (.start s) acts k ∧ k.state.db.holding "i5" = [row] ∧
      Idempotent Sample.hashing s acts k "i5") ∧
    Agrees (Sample.body (Sample.drops "25000000") [])
      (Sample.body (Sample.drops "25000000") [("destinationTag", .null), ("toString", .num 1)]) := by
  have main := idempotent_creation Sample.hashing Sample.hashing_collisionFree
    Sample.jsonbPreserves
  constructor
  · obtain ⟨k, -, ⟨s, hi, hruns⟩, hφ⟩ := exists_of_play Sample.hashing anyStep []
      ([.start (.create "i5" Sample.dto), .start (.create "i5" Sample.dto)] ++
        Sample.tick 0 1 ++ Sample.tick 1 1 ++ [.op 0 (.uuid "i5"), .op 1 (.uuid "i6")] ++
        Sample.tick 1 2 ++ Sample.tick 0 2 ++ [.finish 0, .finish 1])
      (fun k => (k.state.db.holding "i5").length == 1) (by decide +kernel)
    obtain ⟨acts, hp⟩ := hruns.path
    obtain ⟨row, hrow⟩ := List.length_eq_one_iff.mp (of_decide_eq_true hφ)
    exact ⟨s, acts, k, row, hi, hp, hrow, main.1 s acts k hi hp "i5"⟩
  · refine ((main.2 _ _ _ _ rfl rfl).mpr ?_).mp rfl
    rintro ⟨k, hk, items, items', hx, -⟩
    rcases List.mem_pair.mp hk with rfl | rfl <;> cases hx

/-- Two payments of different amounts, each in an array, have the same canonical intent. -/
theorem arrays_share_intent : ¬ ∀ r r' dto dto',
    CreateIntentPipe.transform Sample.hashing (.obj r) = .ok dto →
    CreateIntentPipe.transform Sample.hashing (.obj r') = .ok dto' →
    (toCanonicalIntent dto = toCanonicalIntent dto' ↔ Agrees r r') := by
  intro h
  have hiff := h (Sample.body (.arr [Sample.drops "1"]) []) (Sample.body (.arr [Sample.drops "2"]) [])
    _ _ rfl rfl
  have hamount : (Json.arr [Sample.drops "1"]).Same (.arr [Sample.drops "2"]) :=
    hiff.mp rfl "amount" (by decide)
  cases hamount with
  | arr _ hitems =>
    have hitem := hitems 0 _ _ rfl rfl
    obtain ⟨_, hget, hdrops⟩ := Record.Same.get hitem (k := "drops") rfl
    cases Option.some.inj hget
    exact absurd (same_str.mp hdrops) (by decide)

end Orchestrator
