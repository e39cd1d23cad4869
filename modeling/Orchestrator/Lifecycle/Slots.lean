import Orchestrator.Lifecycle.Journal
import Orchestrator.Interleave.Lock

/-!
# The slot of an account

At most one intent of an account owns its next Sequence. The table keeps this with a partial unique
index; over a whole run the index behaves as a lock, one for each account of each network.

* `IntentRow.slot`, `Db.holder`: the lock and who holds it; `Db.slotEvents`: its events, as the
  audit trail tells them;
* `Db.holder_eq_some`: the holder is the active row; `Slots.moved`: one move against the lock;
* **`slot_refines_lock`**.
-/

namespace Orchestrator

open Interleave

/-- The columns of the sequence-active index. -/
def IntentRow.slot (r : IntentRow) : ℕ × String := (r.networkId, r.sourceAccount)

theorem IntentRow.Le.slot {r r' : IntentRow} (hle : r.Le r') : r'.slot = r.slot :=
  (congrArg₂ Prod.mk hle.account.1 hle.account.2).symm

/-- The row owns the slot. -/
def IntentRow.owns (r : IntentRow) (slot : ℕ × String) : Bool := r.active && decide (r.slot = slot)

theorem IntentRow.owns_iff {r : IntentRow} {slot : ℕ × String} :
    r.owns slot = true ↔ r.active = true ∧ r.slot = slot := by
  simp [IntentRow.owns]

/-- A status of the sequence-active index. -/
def Status.ownsSequence (s : Status) : Bool := sequenceActiveIndexStatuses.contains s

/-- What a move does to the slot: it takes it, gives it back, or neither. -/
def slotEvent (id : String) : (src dst : Bool) → Option (LockEvent String)
  | false, true => some (.acquire id)
  | true, false => some (.release id)
  | _, _ => none

theorem ownsSequence_once : ∀ src dst, canTransition src dst = true → ∀ s, dst.Leads s → ∀ s',
    canTransition s s' = true → src.ownsSequence = s.ownsSequence →
    dst.ownsSequence = s'.ownsSequence → src.ownsSequence = dst.ownsSequence := by
  decide

/-- An intent takes the slot once, and gives it back once. -/
theorem slotEvent_once {id : String} {src dst s s' : Status} {e : LockEvent String}
    (hcan : canTransition src dst = true) (hleads : dst.Leads s) (hcan' : canTransition s s' = true)
    (he : slotEvent id src.ownsSequence dst.ownsSequence = some e) :
    slotEvent id s.ownsSequence s'.ownsSequence ≠ some e := by
  have honce := ownsSequence_once src dst hcan s hleads s' hcan'
  revert honce he
  cases e <;> cases src.ownsSequence <;> cases dst.ownsSequence <;> cases s.ownsSequence <;>
    cases s'.ownsSequence <;> simp [slotEvent]

theorem slotEvent_owner {id : String} {src dst : Bool} {e : LockEvent String}
    (he : slotEvent id src dst = some e) : e.owner = id := by
  cases src <;> cases dst <;> cases he <;> rfl

/-- An audit row names a move of the table. -/
theorem Tells.canTransition {P : Platform} {hist : History} {r : IntentRow} {a : AuditRow}
    {src : Status} (h : Tells P hist r a) (hfrom : a.fromStatus = some src) :
    canTransition src a.toStatus = true := by
  have unsigned : ∀ s ∈ unsignedActiveStatuses, Orchestrator.canTransition s .expired = true := by
    decide
  have signed : ∀ s ∈ signedActiveStatuses, Orchestrator.canTransition s .expired = true ∧
      Orchestrator.canTransition s .validated = true := by
    decide
  cases h with
  | created => cases hfrom
  | unsignedExpired hs => exact Option.some.inj hfrom ▸ unsigned _ hs
  | absent hs => exact Option.some.inj hfrom ▸ (signed _ hs).1
  | validated hs => exact Option.some.inj hfrom ▸ (signed _ hs).2
  | failed hcan => exact Option.some.inj hfrom ▸ hcan
  | _ => exact Option.some.inj hfrom ▸ rfl

namespace Db

/-- The intent that owns the slot. -/
def holder (db : Db) (slot : ℕ × String) : Option String :=
  (db.rows.find? (·.owns slot)).map (·.id)

/-- What an audit row tells about the slot. -/
def slotEvent? (db : Db) (slot : ℕ × String) (a : AuditRow) : Option (LockEvent String) :=
  if (db.find a.intentId).map (·.slot) = some slot then
    a.fromStatus.bind fun src => slotEvent a.intentId src.ownsSequence a.toStatus.ownsSequence
  else none

/-- How the slot was taken and given back, as the audit trail tells it. -/
def slotEvents (db : Db) (slot : ℕ × String) : List (LockEvent String) :=
  db.audit.filterMap (db.slotEvent? slot)

variable {P : Platform} {db db' : Db} {hist : History} {slot : ℕ × String} {id : String}
  {cur r : IntentRow}

theorem holder_eq_some (hok : db.Ok P) :
    db.holder slot = some id ↔ ∃ r, db.find id = some r ∧ r.owns slot = true := by
  constructor
  · intro h
    obtain ⟨r, hr, rfl⟩ := Option.map_eq_some_iff.mp h
    have howns := List.find?_some hr
    exact ⟨r, hok.ids r (List.mem_of_find?_eq_some hr), howns⟩
  · rintro ⟨r, hf, howns⟩
    have hr := mem_of_find hf
    cases ho : db.rows.find? (·.owns slot) with
    | none => exact absurd howns (List.find?_eq_none.mp ho r hr)
    | some o =>
      have howns' := List.find?_some ho
      obtain ⟨hactive, hslot⟩ := IntentRow.owns_iff.mp howns
      obtain ⟨hactive', hslot'⟩ := IntentRow.owns_iff.mp howns'
      obtain ⟨hn, ha⟩ := Prod.mk.inj (hslot'.trans hslot.symm)
      have hid := hok.active r hr o (List.mem_of_find?_eq_some ho) hactive hactive' hn ha
      rw [holder, ho, Option.map_some, hid, find_id hf]

/-- The audit rows tell the same, if every intent keeps its slot. -/
theorem slotEvents_append (audit : List AuditRow) (hdb : db'.audit = db.audit ++ audit)
    (hslot : ∀ a ∈ db.audit, (db'.find a.intentId).map (·.slot) =
      (db.find a.intentId).map (·.slot)) :
    db'.slotEvents slot = db.slotEvents slot ++ audit.filterMap (db'.slotEvent? slot) := by
  rw [slotEvents, slotEvents, hdb, List.filterMap_append]
  congr 1
  refine List.filterMap_congr fun a ha => ?_
  rw [slotEvent?, slotEvent?, hslot a ha]

/-- One row changes, and keeps its slot. -/
theorem slot_kept (hf : db.find id = some cur)
    (hfind : ∀ id', db'.find id' = if id' = id then some r else db.find id')
    (hslot : r.slot = cur.slot) : ∀ a ∈ db.audit, (db'.find a.intentId).map (·.slot) =
      (db.find a.intentId).map (·.slot) := by
  intro a _
  rw [hfind]
  split
  next he => rw [he, hf, Option.map_some, Option.map_some, hslot]
  · rfl

/-- The slot was taken and given back as a lock is, and by each intent at most once. -/
structure Slots (db : Db) (slot : ℕ × String) : Prop where
  runs : (lock String).Runs Machine.anyEvent none (db.slotEvents slot) (db.holder slot)
  once : (db.slotEvents slot).Nodup

/-- One row changes: who owns the slot is the same if the row owns it as before. -/
theorem holder_same (hok : db.Ok P) (hok' : db'.Ok P) (hf : db.find id = some cur)
    (hfind : ∀ id', db'.find id' = if id' = id then some r else db.find id')
    (howns : r.owns slot = cur.owns slot) : db'.holder slot = db.holder slot := by
  refine Option.ext fun o => ?_
  simp only [holder_eq_some hok, holder_eq_some hok', hfind]
  by_cases ho : o = id
  · simp [ho, hf, howns]
  · simp [ho]

/-- Nothing happens to the slot. -/
theorem Slots.same (h : db.Slots slot) (hevents : db'.slotEvents slot = db.slotEvents slot)
    (hholder : db'.holder slot = db.holder slot) : db'.Slots slot :=
  ⟨by rw [hevents, hholder]; exact h.runs, hevents ▸ h.once⟩

/-- A slot that nobody owned, and that the row that changes owns now. -/
theorem holder_taken (hok : db.Ok P) (hok' : db'.Ok P) (hf : db.find id = some cur)
    (hfind : ∀ id', db'.find id' = if id' = id then some r else db.find id')
    (hv : db.violation r = none) (hle : cur.Le r) (hcur : cur.owns slot = false)
    (hr : r.owns slot = true) : db.holder slot = none ∧ db'.holder slot = some id := by
  refine ⟨Option.eq_none_iff_forall_ne_some.mpr fun o ho => ?_,
    (holder_eq_some hok').mpr ⟨r, (hfind id).trans (if_pos rfl), hr⟩⟩
  obtain ⟨other, hfo, howns⟩ := (holder_eq_some hok).mp ho
  have hne : other.id ≠ r.id := by
    rw [← hle.id, find_id hf, find_id hfo]
    rintro rfl
    rw [Option.some.inj (hf.symm.trans hfo), howns] at hcur
    cases hcur
  obtain ⟨hactive, hslot⟩ := IntentRow.owns_iff.mp hr
  obtain ⟨hactive', hslot'⟩ := IntentRow.owns_iff.mp howns
  obtain ⟨hn, ha⟩ := Prod.mk.inj (hslot'.trans hslot.symm)
  exact (violation_none hv (mem_of_find hfo) hne).1 hactive hactive' hn ha

/-- A slot that the row that changes owned, and gives back. -/
theorem holder_left (hok : db.Ok P) (hok' : db'.Ok P) (hf : db.find id = some cur)
    (hfind : ∀ id', db'.find id' = if id' = id then some r else db.find id')
    (hcur : cur.owns slot = true) (hr : r.owns slot = false) :
    db.holder slot = some id ∧ db'.holder slot = none := by
  have hholder : db.holder slot = some id := (holder_eq_some hok).mpr ⟨cur, hf, hcur⟩
  refine ⟨hholder, Option.eq_none_iff_forall_ne_some.mpr fun o ho => ?_⟩
  obtain ⟨other, hfo, howns⟩ := (holder_eq_some hok').mp ho
  rw [hfind] at hfo
  split at hfo
  · rw [← Option.some.inj hfo, hr] at howns
    cases howns
  next hne =>
    exact hne (Option.some.inj (((holder_eq_some hok).mpr ⟨other, hfo, howns⟩).symm.trans hholder))

/-- What a move does to the slot was not done before. -/
theorem slotEvent_fresh (htells : Db.Tells P hist db id) (hf : db.find id = some cur)
    {dst : Status} (hcan : canTransition cur.status dst = true) {e : LockEvent String}
    (he : slotEvent id cur.active dst.ownsSequence = some e) : e ∉ db.slotEvents slot := by
  intro hmem
  obtain ⟨a, ha, hslot⟩ := List.mem_filterMap.mp hmem
  obtain ⟨-, hslot⟩ := Option.ite_none_right_eq_some.mp hslot
  obtain ⟨src, hfrom, hslot⟩ := Option.bind_eq_some_iff.mp hslot
  have hid : a.intentId = id := (slotEvent_owner hslot).symm.trans (slotEvent_owner he)
  have htold := htells cur hf a (List.mem_filter.mpr ⟨ha, decide_eq_true hid⟩)
  exact slotEvent_once (htold.tells.canTransition hfrom) htold.leads hcan (hid ▸ hslot) he

/-- **One move against the lock**: it takes the slot, gives it back, or leaves it. -/
theorem Slots.moved (h : db.Slots slot) (hok : db.Ok P) (hok' : db'.Ok P)
    (htells : Db.Tells P hist db id) (hf : db.find id = some cur)
    (hfind : ∀ id', db'.find id' = if id' = id then some r else db.find id')
    (hv : db.violation r = none) (hle : cur.Le r) (hcan : canTransition cur.status r.status = true)
    {a : AuditRow} (ha : db'.audit = db.audit ++ [a]) (hid : a.intentId = id)
    (hfrom : a.fromStatus = some cur.status) (hto : a.toStatus = r.status) : db'.Slots slot := by
  have hslot := hle.slot
  have hevent : db'.slotEvent? slot a =
      if cur.slot = slot then slotEvent id cur.active r.active else none := by
    simp [slotEvent?, hid, hfind, hslot, hfrom, hto, IntentRow.active, Status.ownsSequence]
  have hevents : db'.slotEvents slot = db.slotEvents slot ++ (db'.slotEvent? slot a).toList := by
    rw [slotEvents_append [a] ha (slot_kept hf hfind hslot)]
    cases h : db'.slotEvent? slot a <;> simp [h]
  rw [hevent] at hevents
  by_cases hs : cur.slot = slot
  · rw [if_pos hs] at hevents
    have hcur : cur.owns slot = cur.active := by simp [IntentRow.owns, hs]
    have hr : r.owns slot = r.active := by simp [IntentRow.owns, hslot, hs]
    have taken (e : LockEvent String) (he : slotEvent id cur.active r.active = some e)
        (hstep : (lock String).step (db.holder slot) e = some (db'.holder slot)) :
        db'.Slots slot := by
      rw [he, Option.toList_some] at hevents
      have hfresh : e ∉ db.slotEvents slot := slotEvent_fresh htells hf hcan he
      refine ⟨hevents ▸ h.runs.step hstep trivial, hevents ▸ ?_⟩
      exact List.nodup_append_comm.mp (List.nodup_cons.mpr ⟨hfresh, h.once⟩)
    have left (hsame : cur.active = r.active) : db'.Slots slot := by
      refine h.same ?_ (holder_same hok hok' hf hfind (by rw [hcur, hr, hsame]))
      rw [hsame] at hevents
      cases hra : r.active <;> rw [hra] at hevents <;> exact hevents.trans (List.append_nil _)
    cases hca : cur.active <;> cases hra : r.active
    · exact left (hca.trans hra.symm)
    · obtain ⟨hnone, hsome⟩ := holder_taken hok hok' hf hfind hv hle (hcur.trans hca) (hr.trans hra)
      exact taken (.acquire id) (by rw [hca, hra]; rfl) (by rw [hnone, hsome]; rfl)
    · obtain ⟨hsome, hnone⟩ := holder_left hok hok' hf hfind (hcur.trans hca) (hr.trans hra)
      exact taken (.release id) (by rw [hca, hra]; rfl) (by rw [hnone, hsome]; exact if_pos rfl)
    · exact left (hca.trans hra.symm)
  · rw [if_neg hs, Option.toList_none, List.append_nil] at hevents
    refine h.same hevents (holder_same hok hok' hf hfind ?_)
    simp [IntentRow.owns, hslot, hs]

/-- A statement that changes no status. -/
theorem Slots.touched (h : db.Slots slot) (hok : db.Ok P) (hok' : db'.Ok P)
    (hf : db.find id = some cur)
    (hfind : ∀ id', db'.find id' = if id' = id then some r else db.find id') (hle : cur.Le r)
    (hst : r.status = cur.status) (ha : db'.audit = db.audit) : db'.Slots slot := by
  have hslot := hle.slot
  refine h.same ?_ (holder_same hok hok' hf hfind ?_)
  · rw [slotEvents_append [] (by rw [ha, List.append_nil]) (slot_kept hf hfind hslot)]
    exact List.append_nil _
  · rw [IntentRow.owns, IntentRow.owns, hslot, IntentRow.active, IntentRow.active, hst]

/-- A new intent owns nothing. -/
theorem Slots.created (h : db.Slots slot) (hok : db.Ok P) (hok' : db'.Ok P) {row : IntentRow}
    (hst : row.status = .created) (hf : db.find row.id = none) (htrail : db.trail row.id = [])
    (hfind : ∀ id', db'.find id' = if id' = row.id then some row else db.find id')
    (ha : db'.audit = db.audit ++ [⟨row.id, none, .created, .intentCreated, none⟩]) :
    db'.Slots slot := by
  have howns : row.owns slot = false := by
    have hactive : row.active = false := by rw [IntentRow.active, hst]; rfl
    rw [IntentRow.owns, hactive, Bool.false_and]
  refine h.same ?_ (Option.ext fun o => ?_)
  · rw [slotEvents_append _ ha fun b hb => ?_]
    · simp [slotEvent?]
    · have hne : b.intentId ≠ row.id := fun he =>
        List.filter_eq_nil_iff.mp htrail b hb (decide_eq_true he)
      rw [hfind, if_neg hne]
  · simp only [holder_eq_some hok, holder_eq_some hok', hfind]
    by_cases ho : o = row.id
    · simp [ho, hf, howns]
    · simp [ho]

end Db

section Runs

variable {P : Platform} {ok : StepCond Op Op.Ret Failure Reply Call State} {k k' : Sys}
  {a : Act Op Op.Ret Failure Reply Call} {slot : ℕ × String}

/-- **One step** keeps the slot a lock. -/
theorem step_slots (hk : Reach (system P) ok k) (hk' : Reach (system P) ok k')
    (hs : Step (system P) k a k') (h : k.state.db.Slots slot) : k'.state.db.Slots slot := by
  have hok' := reach_ok hk'
  cases hs with
  | start | finish | kill => exact h
  | env hx => obtain ⟨ledger, rfl⟩ := hx; exact h
  | restart hx => obtain ⟨networkId, rfl⟩ := hx; exact h
  | @op as bs pid l op cont r s hp hx =>
    have hok := reach_ok hk
    have hpermit := (reach_holds hk).permit hp
    change s.db.Slots slot
    by_cases hw : op.writes = true
    · cases op with
      | transition id' request =>
        obtain ⟨c, hc, rfl, hm⟩ := hpermit
        rcases transition_step hok hc hm hx with
          ⟨rfl, -⟩ | ⟨cur, t, hf, -, -, hcan, hv, -, hle, -, rfl⟩
        · exact h
        · exact h.moved hok hok' (reach_tells hk c.id) hf (Db.find_written hf hle) hv hle hcan rfl
            rfl rfl rfl
      | updateInStatus id' statuses patch =>
        obtain ⟨c, hc, rfl, ht⟩ := hpermit
        rcases updateInStatus_step hok hc ht hx with
          ⟨rfl, -⟩ | ⟨cur, t, hf, -, -, -, -, -, hle, -, rfl⟩
        · exact h
        · exact h.touched hok hok' hf (Db.find_written hf hle) hle rfl rfl
      | createIdempotent row =>
        obtain ⟨idempotencyKey, dto, newId, networkId, t, -, rfl⟩ := hpermit
        rcases createIdempotent_step hx with ⟨rfl, -⟩ | ⟨row, rfl, hst, hf, -, -, -, rfl⟩
        · exact h
        · exact h.created hok hok' hst hf ((reach_trail hk row.id).2 hf) (Db.find_append hf _) rfl
      | _ => cases hw
    · obtain ⟨choice, hx⟩ := hx
      have hdb : s.db = k.state.db := perform_db (by simpa using hw) hx
      rwa [hdb]

/-- **In every run** the slot is a lock. -/
theorem reach_slots (hk : Reach (system P) ok k) (slot : ℕ × String) : k.state.db.Slots slot := by
  refine hk.inv (P := fun k => k.state.db.Slots slot) (fun s hs => ?_)
    fun k a k' hk ih hs hok => step_slots hk (hk.step hs hok) hs ih
  change s.db.Slots slot
  rw [hs.1]
  exact ⟨.refl, .nil⟩

end Runs

/-- **The slot of an account is a lock.** In every configuration of every run, with any number of
requests and passes in progress, the audit trail of the intents of an account in a network is a run
of a lock that is held by the intent that is in a sequence-active status: an intent is prepared only
while no other holds the slot, what comes next is the end of that same intent, and no intent takes
the slot a second time. -/
theorem slot_refines_lock (P : Platform) (k : Sys) (hk : Reach (system P) anyStep k)
    (networkId : ℕ) (account : String) :
    (lock String).Runs Machine.anyEvent none (k.state.db.slotEvents (networkId, account))
      (k.state.db.holder (networkId, account)) ∧
    (k.state.db.slotEvents (networkId, account)).IsChain LockEvent.Follows ∧
    (k.state.db.slotEvents (networkId, account)).Nodup ∧
    ∀ id, k.state.db.holder (networkId, account) = some id ↔ ∃ row, k.state.db.find id = some row ∧
      row.active = true ∧ row.networkId = networkId ∧ row.sourceAccount = account := by
  obtain ⟨hruns, honce⟩ := reach_slots hk (networkId, account)
  refine ⟨hruns, (lock_alternates hruns).1, honce, fun id => ?_⟩
  simp only [Db.holder_eq_some (reach_ok hk), IntentRow.owns_iff, IntentRow.slot, Prod.mk.injEq]

/-- The slot of an intent that was prepared and signed, and then failed. -/
theorem slot_refines_lock_failed : ∃ (k : Sys) (row : IntentRow), row ∈ k.state.db.rows ∧
    k.state.db.slotEvents row.slot = [.acquire row.id, .release row.id] ∧
    (lock String).Runs Machine.anyEvent none [.acquire row.id, .release row.id]
      (k.state.db.holder row.slot) := by
  obtain ⟨k, -, hk, hφ⟩ := exists_of_play Sample.platform anyStep []
    (Sample.signedIntent 3 ++ Sample.searched 4 4 (Sample.foundAnswer 5 99) ++ Sample.tick 4 2)
    (fun k => k.state.db.rows.any fun r =>
      k.state.db.slotEvents r.slot = [.acquire r.id, .release r.id]) (by decide +kernel)
  obtain ⟨row, hr, hevents⟩ := List.any_eq_true.mp hφ
  have hevents := of_decide_eq_true hevents
  exact ⟨k, row, hr, hevents, hevents ▸
    (slot_refines_lock Sample.platform k hk row.networkId row.sourceAccount).1⟩

end Orchestrator
