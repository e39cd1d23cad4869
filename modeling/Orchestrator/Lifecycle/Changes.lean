import Orchestrator.Lifecycle.Programs
import Orchestrator.Runtime.Schedules

/-!
# What one step of a run does to one intent

`Change` is the case analysis that every invariant of the rows goes by: the row of an intent is
kept, moved by a `Move`, touched by a `Touch`, or created.

* `Change`, **`step_change`**;
* `Change.le`: a row is in the next configuration in the same or a later version.
-/

namespace Orchestrator

open Interleave

variable (P : Platform)

/-- What a step from `k` to `k'` does to the row of intent `id`. -/
inductive Change (k : Sys) (a : Act Op Op.Ret Failure Reply Call) (k' : Sys) (id : String) : Prop
  | kept : k'.state.db.find id = k.state.db.find id → Change k a k' id
  | moved {pid l request c cur t} :
      a = .op pid l (.transition id request) (.ok (some (request.updated P t cur))) →
      k.state.db.find id = some cur → c.id = id → c.Ok P → c.Le cur →
      Move P k.log pid l c request → cur.status ∈ request.fromStatuses →
      canTransition cur.status request.toStatus = true → cur.Le (request.updated P t cur) →
      k'.state.db.find id = some (request.updated P t cur) → Change k a k' id
  | touched {pid l statuses patch c cur t} :
      a = .op pid l (.updateInStatus id statuses patch) (.ok (some (patch.updated P t cur))) →
      k.state.db.find id = some cur → c.id = id → c.Ok P → c.Le cur →
      Touch k.log pid l c statuses patch → cur.status ∈ statuses →
      cur.status ∈ signedActiveStatuses → cur.Le (patch.updated P t cur) →
      k'.state.db.find id = some (patch.updated P t cur) → Change k a k' id
  | created {row} :
      k.state.db.find id = none → k'.state.db.find id = some row → row.status = .created →
      row.Ok P → Change k a k' id

variable {P} {ok : StepCond Op Op.Ret Failure Reply Call State} {k k' : Sys}
  {a : Act Op Op.Ret Failure Reply Call}

/-- **One step, one intent.** -/
theorem step_change (h : Reach (system P) ok k) (hs : Step (system P) k a k') (id : String) :
    Change P k a k' id := by
  cases hs with
  | start | finish | kill => exact .kept rfl
  | env hx => obtain ⟨ledger, rfl⟩ := hx; exact .kept rfl
  | restart hx => obtain ⟨networkId, rfl⟩ := hx; exact .kept rfl
  | @op as bs pid l op cont r s hp hx =>
    have hok := reach_ok h
    have hpermit := (reach_holds h).permit hp
    by_cases hw : op.writes = true
    · cases op with
      | transition id' request =>
        obtain ⟨c, hc, rfl, hm⟩ := hpermit
        rcases transition_step hok hc hm hx with
          ⟨rfl, -⟩ | ⟨cur, t, hf, hle, hfrom, hcan, -, -, hle', rfl, rfl⟩
        · exact .kept rfl
        · have hfind : ∀ id, Db.find _ id = _ := Db.find_written hf hle'
          by_cases he : id = c.id
          · subst he
            refine .moved rfl hf rfl hc.1 hle hm hfrom hcan hle' ?_
            exact (hfind _).trans (if_pos rfl)
          · exact .kept ((hfind id).trans (if_neg he))
      | updateInStatus id' statuses patch =>
        obtain ⟨c, hc, rfl, ht⟩ := hpermit
        rcases updateInStatus_step hok hc ht hx with
          ⟨rfl, -⟩ | ⟨cur, t, hf, hle, hfrom, hact, -, -, hle', rfl, rfl⟩
        · exact .kept rfl
        · have hfind : ∀ id, Db.find _ id = _ := Db.find_written hf hle'
          by_cases he : id = c.id
          · subst he
            refine .touched rfl hf rfl hc.1 hle ht hfrom hact hle' ?_
            exact (hfind _).trans (if_pos rfl)
          · exact .kept ((hfind id).trans (if_neg he))
      | createIdempotent row =>
        obtain ⟨idempotencyKey, dto, newId, networkId, t, -, rfl⟩ := hpermit
        rcases createIdempotent_step hx with ⟨rfl, -⟩ | ⟨row, -, hst, hf, -, hr, -, rfl⟩
        · exact .kept rfl
        · by_cases he : id = row.id
          · exact .created (he ▸ hf) ((Db.find_append hf _ id).trans (if_pos he)) hst hr
          · exact .kept ((Db.find_append hf _ id).trans (if_neg he))
      | _ => cases hw
    · obtain ⟨choice, hx⟩ := hx
      have hdb := perform_db (by simpa using hw) hx
      exact .kept (congrArg (fun db : Db => db.find id) hdb)

/-- A row stays, in the same or a later version. -/
theorem step_le (h : Reach (system P) ok k) (hs : Step (system P) k a k') {id : String}
    {row : IntentRow} (hf : k.state.db.find id = some row) :
    ∃ row', k'.state.db.find id = some row' ∧ row.Le row' :=
  ((lifecycle P).step_rely (reach_holds h) hs).1 id row hf

/-- A step appends at most the operation it performs to the history. -/
theorem step_log (hs : Step (system P) k a k') :
    k'.log = k.log ∨ ∃ pid l op r, a = .op pid l op r ∧ k'.log = k.log ++ [⟨pid, l, op, r⟩] := by
  cases hs with
  | op => exact .inr ⟨_, _, _, _, rfl, rfl⟩
  | start | finish | kill | env | restart => exact .inl rfl

theorem step_log_prefix (hs : Step (system P) k a k') : k.log <+: k'.log := by
  rcases step_log hs with h | ⟨_, _, _, _, _, h⟩
  · exact h ▸ List.prefix_rfl
  · exact h ▸ List.prefix_append _ _

/-- Where a history with one more entry can be split. -/
theorem split_log {h before after : History} {e new : Entry Op Op.Ret Call}
    (hl : h ++ [new] = before ++ e :: after) :
    (h = before ∧ new = e) ∨ ∃ mid, h = before ++ e :: mid := by
  rcases List.eq_nil_or_concat' after with rfl | ⟨mid, last, rfl⟩
  · obtain ⟨h1, h2⟩ := List.append_inj' hl rfl
    exact .inl ⟨h1, List.singleton_inj.mp h2⟩
  · rw [← List.cons_append, ← List.append_assoc] at hl
    exact .inr ⟨mid, (List.append_inj' hl rfl).1⟩

/-- **Invariants of the rows**: a property of a row and the history that the history's growth
keeps, that new rows have, and that each write keeps. -/
theorem reach_rows (Φ : History → IntentRow → Prop) (h : Reach (system P) ok k)
    (hgrow : ∀ {h h' r}, Φ h r → h <+: h' → Φ h' r)
    (hnew : ∀ h r, r.status = .created → r.Ok P → Φ h r)
    (hmove : ∀ {h pid l request c cur t}, Φ h cur → cur.Ok P → c.Ok P → c.Le cur →
      Move P h pid l c request → cur.status ∈ request.fromStatuses →
      canTransition cur.status request.toStatus = true → Φ h (request.updated P t cur))
    (htouch : ∀ {h pid l statuses patch c cur t}, Φ h cur → cur.Ok P → c.Ok P → c.Le cur →
      Touch h pid l c statuses patch → cur.status ∈ statuses →
      Φ h (patch.updated P t cur)) :
    ∀ r ∈ k.state.db.rows, Φ k.log r := by
  refine h.inv (P := fun k => ∀ r ∈ k.state.db.rows, Φ k.log r) (fun s hs => ?_)
    fun k a k' hk ih hs hcond r hr => ?_
  · rw [hs.1]
    simp
  · have hlog := step_log_prefix hs
    have hf' := (reach_ok (hk.step hs hcond)).ids r hr
    cases step_change hk hs r.id with
    | kept he => exact hgrow (ih r (Db.mem_of_find (he ▸ hf'))) hlog
    | moved _ hf _ hc hle hm hfrom hcan _ hf'' =>
      rw [hf'] at hf''
      cases hf''
      have hmem := Db.mem_of_find hf
      exact hgrow (hmove (ih _ hmem) ((reach_ok hk).rows _ hmem) hc hle hm hfrom hcan) hlog
    | touched _ hf _ hc hle ht hfrom _ _ hf'' =>
      rw [hf'] at hf''
      cases hf''
      have hmem := Db.mem_of_find hf
      exact hgrow (htouch (ih _ hmem) ((reach_ok hk).rows _ hmem) hc hle ht hfrom) hlog
    | created _ hf'' hst hok =>
      rw [hf'] at hf''
      cases hf''
      exact hnew _ _ hst hok

end Orchestrator
