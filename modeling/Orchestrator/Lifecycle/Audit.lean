import Orchestrator.Lifecycle.Changes
import Mathlib.Data.List.Chain

/-!
# The audit trail

`intent_transitions` is written by the two repository methods that set a status, each in the
transaction of the status itself. What follows holds of the tables alone, whatever is asked of them.

* `Db.trail`: the audit rows of an intent, in the order of their ids;
* `IsPath`: a trail from creation to a status, along the transition table;
* `transition_trail`, `updateInStatus_trail`, `createIdempotent_trail`: what a statement does to
  the trails;
* **`audit_is_history`**.
-/

namespace Orchestrator

open Interleave

/-- The audit rows of intent `id`. -/
def Db.trail (db : Db) (id : String) : List AuditRow := db.audit.filter fun a => a.intentId = id

/-- `b` goes on from where `a` ended, by a move of the table. -/
def AuditRow.Next (a b : AuditRow) : Prop :=
  b.fromStatus = some a.toStatus ∧ canTransition a.toStatus b.toStatus = true

/-- The trail begins with the creation, goes on row by row, and ends in `status`. -/
structure IsPath (trail : List AuditRow) (status : Status) : Prop where
  first : ∃ a, trail.head? = some a ∧ a.fromStatus = none ∧ a.toStatus = .created
  chain : trail.IsChain AuditRow.Next
  last : trail.getLast?.map (·.toStatus) = some status

/-- A path with one more move. -/
theorem IsPath.snoc {trail : List AuditRow} {status : Status} (h : IsPath trail status)
    {a : AuditRow} (hfrom : a.fromStatus = some status)
    (hcan : canTransition status a.toStatus = true) : IsPath (trail ++ [a]) a.toStatus := by
  obtain ⟨b, hb, hst⟩ := Option.map_eq_some_iff.mp h.last
  obtain ⟨c, hc, hcr⟩ := h.first
  refine ⟨⟨c, ?_, hcr⟩, ?_, by simp⟩
  · rw [List.head?_append, hc]
    rfl
  · refine List.isChain_append.mpr ⟨h.chain, List.isChain_singleton a, ?_⟩
    intro x hx y hy
    obtain rfl : b = x := Option.some.inj (hb.symm.trans hx)
    obtain rfl : a = y := Option.some.inj hy
    exact ⟨hst ▸ hfrom, hst ▸ hcan⟩

theorem IsPath.created {a : AuditRow} (hfrom : a.fromStatus = none) (hto : a.toStatus = .created) :
    IsPath [a] .created :=
  ⟨⟨a, rfl, hfrom, hto⟩, List.isChain_singleton a, by simp [hto]⟩

/-- What a statement does to the trail of intent `id`: nothing, and its status stays; one more row,
for the move that was made; or the first one. -/
inductive Trailed (db db' : Db) (id : String) : Prop
  | kept : db'.trail id = db.trail id →
      (db'.find id).map (·.status) = (db.find id).map (·.status) → Trailed db db' id
  | moved {cur cur' a} : db.find id = some cur → db'.find id = some cur' →
      a.fromStatus = some cur.status → a.toStatus = cur'.status →
      canTransition cur.status cur'.status = true → db'.trail id = db.trail id ++ [a] →
      Trailed db db' id
  | created {row a} : db.find id = none → db'.find id = some row → row.status = .created →
      a.fromStatus = none → a.toStatus = .created → db'.trail id = db.trail id ++ [a] →
      Trailed db db' id

variable {P : Platform} {db : Db}

theorem trail_append_self {rows : List IntentRow} {a : AuditRow} {id : String}
    (h : a.intentId = id) : (Db.mk rows (db.audit ++ [a])).trail id = db.trail id ++ [a] := by
  simp [Db.trail, h]

theorem trail_append_other {rows : List IntentRow} {a : AuditRow} {id : String}
    (h : a.intentId ≠ id) : (Db.mk rows (db.audit ++ [a])).trail id = db.trail id := by
  simp [Db.trail, h]

theorem transition_trail (now : ℕ) (id : String) (request : TransitionRequest) (id' : String) :
    Trailed db (db.transition P now id request).2 id' := by
  rcases db.transition_cases P now id request with
    ⟨out, ho, -⟩ | ⟨cur, hf, -, hcan, -, ho⟩
  · rw [ho]
    exact .kept rfl rfl
  · rw [ho]
    have hid : (request.updated P now cur).id = id := show cur.id = id from Db.find_id hf
    have hfind := Db.find_put (r := request.updated P now cur) (hid.symm ▸ hf)
    rw [hid] at hfind
    by_cases he : id = id'
    · subst he
      exact .moved hf ((hfind id).trans (if_pos rfl)) rfl rfl hcan (trail_append_self rfl)
    · refine .kept (trail_append_other he) ?_
      exact congrArg _ ((hfind id').trans (if_neg (Ne.symm he)))

theorem updateInStatus_trail (now : ℕ) (id : String) (statuses : List Status)
    (patch : IntentPatch) (id' : String) :
    Trailed db (db.updateInStatus P now id statuses patch).2 id' := by
  rcases db.updateInStatus_cases P now id statuses patch with
    ⟨out, ho, -⟩ | ⟨cur, hf, -, -, ho⟩
  · rw [ho]
    exact .kept rfl rfl
  · rw [ho]
    have hid : (patch.updated P now cur).id = id := show cur.id = id from Db.find_id hf
    have hfind := Db.find_put (r := patch.updated P now cur) (hid.symm ▸ hf)
    rw [hid] at hfind
    refine .kept rfl ?_
    rw [hfind]
    split_ifs with he
    · rw [he, hf]
      rfl
    · rfl

theorem createIdempotent_trail (new : NewIntentRow) (id' : String) :
    Trailed db (db.createIdempotent P new).2 id' := by
  rcases db.createIdempotent_cases P new with ⟨out, ho, -⟩ | ⟨hf, -, -, ho⟩
  · rw [ho]
    exact .kept rfl rfl
  · rw [ho]
    have hfind := Db.find_append (r := new.row P) hf
    by_cases he : new.id = id'
    · subst he
      exact .created hf ((hfind _ _).trans (if_pos rfl)) rfl rfl rfl (trail_append_self rfl)
    · refine .kept (trail_append_other he) ?_
      exact congrArg _ ((hfind _ id').trans (if_neg (Ne.symm he)))

section Runs

variable {ok : StepCond Op Op.Ret Failure Reply Call State} {k k' : Sys}
  {a : Act Op Op.Ret Failure Reply Call}

/-- **One step, one trail.** -/
theorem step_trail (hs : Step (system P) k a k') (id : String) :
    Trailed k.state.db k'.state.db id := by
  cases hs with
  | start | finish | kill => exact .kept rfl rfl
  | env hx => obtain ⟨ledger, rfl⟩ := hx; exact .kept rfl rfl
  | restart hx => obtain ⟨networkId, rfl⟩ := hx; exact .kept rfl rfl
  | @op as bs pid l op cont r s hp hx =>
    by_cases hw : op.writes = true
    · cases op with
      | transition id' request =>
        rcases exec_transition hx with ⟨-, rfl⟩ | ⟨t, -, rfl⟩
        · exact .kept rfl rfl
        · exact transition_trail t id' request id
      | updateInStatus id' statuses patch =>
        rcases exec_updateInStatus hx with ⟨-, rfl⟩ | ⟨t, -, rfl⟩
        · exact .kept rfl rfl
        · exact updateInStatus_trail t id' statuses patch id
      | createIdempotent row =>
        rcases exec_createIdempotent hx with ⟨-, rfl⟩ | ⟨-, rfl⟩
        · exact .kept rfl rfl
        · exact createIdempotent_trail row id
      | _ => cases hw
    · obtain ⟨choice, hx⟩ := hx
      have hdb : s.db = k.state.db := perform_db (by simpa using hw) hx
      exact .kept (congrArg (·.trail id) hdb) (by rw [← hdb]; rfl)

/-- **In every run**, the trail of an intent is a path to its status, and there is none without
an intent. -/
theorem reach_trail (hk : Reach (system P) ok k) (id : String) :
    (∀ row, k.state.db.find id = some row → IsPath (k.state.db.trail id) row.status) ∧
      (k.state.db.find id = none → k.state.db.trail id = []) := by
  refine hk.inv (P := fun k => (∀ row, k.state.db.find id = some row →
      IsPath (k.state.db.trail id) row.status) ∧
      (k.state.db.find id = none → k.state.db.trail id = [])) (fun s hs => ?_) ?_
  · simp [hs.1, Db.find, Db.trail]
  · rintro k a k' - ⟨hpath, hnone⟩ hs -
    cases step_trail hs id with
    | kept ht hst =>
      rw [ht]
      refine ⟨fun row' hf' => ?_, fun hf' => hnone ?_⟩
      · rw [hf', eq_comm] at hst
        obtain ⟨row, hf, hst⟩ := Option.map_eq_some_iff.mp hst
        rw [show row'.status = row.status from hst.symm]
        exact hpath row hf
      · rw [hf', eq_comm] at hst
        exact Option.map_eq_none_iff.mp hst
    | @moved cur cur' a hf hf' hfrom hto hcan ht =>
      rw [ht]
      refine ⟨fun row' hrow => ?_, fun hno => by cases hf'.symm.trans hno⟩
      obtain rfl := Option.some.inj (hf'.symm.trans hrow)
      exact hto ▸ (hpath cur hf).snoc hfrom (hto ▸ hcan)
    | @created row a hf hf' hst hfrom hto ht =>
      rw [ht, hnone hf]
      refine ⟨fun row' hrow => ?_, fun hno => by cases hf'.symm.trans hno⟩
      obtain rfl := Option.some.inj (hf'.symm.trans hrow)
      exact hst ▸ .created hfrom hto

end Runs

/-- **The audit trail is the history.** In every reachable state, the audit rows of every intent
begin with its creation, each goes on from the one before by a move that the table allows, and the
last one ends in the current status. -/
theorem audit_is_history (P : Platform) (k : Sys) (hk : Reach (system P) anyStep k)
    (row : IntentRow) (hr : row ∈ k.state.db.rows) :
    IsPath (k.state.db.trail row.id) row.status :=
  (reach_trail hk row.id).1 row ((reach_ok hk).ids row hr)

/-- The trail of an intent that was created, prepared and signed. -/
theorem audit_is_history_signed : ∃ (k : Sys) (row : IntentRow), row ∈ k.state.db.rows ∧
    (k.state.db.trail row.id).map (·.toStatus) =
      [.created, .prepared, .simulated, .awaitingSignature, .signed] ∧
    IsPath (k.state.db.trail row.id) row.status := by
  obtain ⟨k, -, hk, hφ⟩ := exists_of_play Sample.platform anyStep [] (Sample.signedIntent 3)
    (fun k => k.state.db.rows.any fun r => (k.state.db.trail r.id).map (·.toStatus) =
      [.created, .prepared, .simulated, .awaitingSignature, .signed]) (by decide +kernel)
  obtain ⟨row, hr, hrow⟩ := List.any_eq_true.mp hφ
  exact ⟨k, row, hr, of_decide_eq_true hrow, audit_is_history Sample.platform k hk row hr⟩

end Orchestrator
