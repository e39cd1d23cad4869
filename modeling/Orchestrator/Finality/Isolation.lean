import Orchestrator.Interleave.Evaluation
import Orchestrator.Finality.Health
import Orchestrator.Runtime.Schedules

/-!
# One intent among others

A finality cycle goes through the sequence-active intents in one `try` block and with one switch of
the endpoint. What it does to an intent is compared with reconciling that intent alone, on the same
answers.

* `Answers`, `Script`, `Scene`, `react`: the answers assigned to each intent, and a cycle that gets
  them; **`cycled_runs`**: it is a run of the service;
* `Db.Agree`, `transition_agree`, `transition_keeps`: a transition reads and writes one row;
* `visit`, `alone`, `budgetLeft`; `visit_alone`, `visit_keeps`: one intent of the loop;
* **`cycle_isolated`**; `cycle_not_isolated`: an error ends the cycle for those after it.
-/

namespace Orchestrator

open Interleave

/-! ## Answers by intent -/

/-- The answers about one intent: the look-up of its hash, the switch of the endpoint after it, the
look-up after the switch, its account; and when it is found final. -/
structure Answers where
  lookup : Except RequestError LedgerResponse
  switched : Except RequestError Unit
  again : Except RequestError LedgerResponse
  account : Except RequestError LedgerResponse
  finalizedAt : ℕ

/-- The answers of one cycle: the validated ledger, those about the intent of each hash, and when
the row of each id is written. -/
structure Script where
  ledger : Except RequestError LedgerResponse
  about : String → Answers
  writtenAt : String → ℕ

/-- The shared state, with the hash that was looked up last, and whether the endpoint has been
switched for another look-up of it. -/
structure Scene where
  state : State
  hash : String
  again : Bool

/-- What the outside contributes to an operation of the cycle. -/
def Script.choice (script : Script) (s : Scene) : Op → Choice
  | .now => .time (script.about s.hash).finalizedAt
  | .randomUUID => .uuid ""
  | .receive .ledger => .answer script.ledger
  | .receive (.tx hash _ _) =>
    .answer (if s.again then (script.about hash).again else (script.about hash).lookup)
  | .receive _ => .answer (script.about s.hash).account
  | .switchEndpoint _ => .switched (script.about s.hash).switched
  | .transition id _ => .time (script.writtenAt id)
  | _ => .time 0

/-- The scene after an operation. -/
def Scene.after (s : Scene) (state : State) : Op → Scene
  | .send (.tx hash _ _) => { s with state, hash }
  | .receive (.tx _ _ _) => { s with state, again := false }
  | .switchEndpoint _ => { s with state, again := true }
  | _ => { s with state }

variable (P : Platform)

theorem isSome_perform (script : Script) (s : Scene) (op : Op) :
    (perform P s.state (script.choice s op) op).isSome = true := by
  cases op with
  | receive q => cases q <;> rfl
  | _ => rfl

/-- An operation of the cycle, with the answer of the script. -/
def react (script : Script) (s : Scene) (op : Op) : op.Ret × Scene :=
  let out := (perform P s.state (script.choice s op) op).get (isSome_perform P script s op)
  (out.1, s.after out.2 op)

/-- A cycle with these answers, from the state of the service. -/
def cycled (script : Script) (s : State) : State :=
  ((cycle P).eval (react P script) ⟨s, "", false⟩).2.state

variable {P}

theorem after_state (s : Scene) (state : State) (op : Op) : (s.after state op).state = state := by
  cases op with
  | send q => cases q <;> rfl
  | receive q => cases q <;> rfl
  | _ => rfl

theorem exec_react (script : Script) (s : Scene) (op : Op) :
    (system P).exec s.state op (react P script s op).1 (react P script s op).2.state := by
  refine ⟨script.choice s op, ?_⟩
  rw [react, after_state]
  exact (Option.some_get _).symm

/-- **The scripted cycle is a run of the service**: one call, with nothing else in between. -/
theorem cycled_runs (script : Script) (s : State) : ∃ k : Sys,
    Runs (system P) anyStep ⟨⟨s, []⟩, [], 0⟩ k ∧ k.pool = [] ∧ k.state = cycled P script s := by
  have hstart : Step (system P) (⟨⟨s, []⟩, [], 0⟩ : Sys) (.start 0 .cycle)
      ⟨⟨s, []⟩, [⟨0, .cycle, handle P .cycle⟩], 1⟩ := .start _ _
  have hpool : (⟨⟨s, []⟩, [⟨0, .cycle, handle P .cycle⟩], 1⟩ : Sys).pool =
      [] ++ ⟨0, .cycle, handle P .cycle⟩ :: [] := rfl
  have heval : (handle P .cycle).eval (react P script) ⟨s, "", false⟩ =
      (((cycle P).eval (react P script) ⟨s, "", false⟩).1.map fun _ => Reply.done,
        ((cycle P).eval (react P script) ⟨s, "", false⟩).2) := Prog.eval_map _ _ _
  obtain ⟨k, rest, hruns, hstate, hlast, hout⟩ := Prog.eval_runs (exec_react script)
    (handle P .cycle) ⟨s, "", false⟩ rfl hpool
  rw [heval] at hstate
  exact ⟨_, ((Runs.refl.step hstart trivial).trans hruns.any).step (.finish hlast hout) trivial,
    rfl, hstate⟩

/-! ## One row of the tables -/

namespace Db

/-- The unique columns that a transition of `resolveSigned` leaves alone. -/
def keys (db : Db) : List (String × Option String) :=
  db.rows.map fun r => (r.id, r.transactionHash)

/-- The ids are distinct: the primary key. -/
def Distinct (db : Db) : Prop := (db.rows.map (·.id)).Nodup

/-- Two tables with the same keys and the same row of this id. -/
structure Agree (id : String) (db db' : Db) : Prop where
  distinct : db.Distinct
  keys : db.keys = db'.keys
  found : db.find id = db'.find id

variable {db db' : Db} {id : String} {r cur : IntentRow} {request : TransitionRequest}

theorem Distinct.congr (h : db.Distinct) (hk : db.keys = db'.keys) : db'.Distinct := by
  have hids : db.rows.map (·.id) = db'.rows.map (·.id) := by
    simpa [keys, Function.comp_def] using congrArg (List.map Prod.fst) hk
  rwa [Distinct, ← hids]

theorem conflictsHash_congr (h : db.keys = db'.keys) (r : IntentRow) :
    db.conflictsHash r = db'.conflictsHash r := by
  have hany (db : Db) : (db.rows.any fun o => o.id != r.id && o.transactionHash == r.transactionHash)
      = db.keys.any fun o => o.1 != r.id && o.2 == r.transactionHash := by
    rw [keys, List.any_map]
    rfl
  rw [conflictsHash, conflictsHash, hany, hany, h]

/-- A row that is not active is refused for its own sake or for its hash. -/
theorem violation_congr (h : db.keys = db'.keys) (hr : r.active = false) :
    db.violation r = db'.violation r := by
  simp only [violation, conflictsActive, hr, Bool.false_and, conflictsHash_congr h r]

theorem find_of_distinct (h : db.Distinct) (hr : r ∈ db.rows) : db.find r.id = some r := by
  have hsome : (db.find r.id).isSome = true := List.find?_isSome.mpr ⟨r, hr, by simp⟩
  obtain ⟨o, ho⟩ := Option.isSome_iff_exists.mp hsome
  rw [ho, List.inj_on_of_nodup_map h (mem_of_find ho) hr (find_id ho)]

theorem keys_put (h : db.Distinct) (hf : db.find r.id = some cur)
    (hhash : r.transactionHash = cur.transactionHash) : (db.put r).keys = db.keys := by
  rw [keys, put, List.map_map]
  refine List.map_congr_left fun o ho => ?_
  by_cases hid : o.id = r.id
  · have hcur : cur = o := Option.some.inj (hf.symm.trans (hid ▸ find_of_distinct h ho))
    simp [hid, hhash, hcur]
  · simp [hid]

variable (P)

theorem updated_hash (h : request.patch.transactionHash = none) (t : ℕ) (cur : IntentRow) :
    (request.updated P t cur).transactionHash = cur.transactionHash := by
  simp [TransitionRequest.updated, IntentPatch.apply, h]

theorem updated_active (h : isTerminal request.toStatus = true) (t : ℕ) (cur : IntentRow) :
    (request.updated P t cur).active = false := by
  have hstatus : ∀ s : Status, isTerminal s = true →
      sequenceActiveIndexStatuses.contains s = false := by decide
  exact hstatus _ h

/-- **A transition that concludes an intent keeps** the keys and every other row. -/
theorem transition_keeps (hdistinct : db.Distinct) (hhash : request.patch.transactionHash = none)
    (t : ℕ) (id : String) : (db.transition P t id request).2.keys = db.keys ∧
      ∀ id', id' ≠ id → (db.transition P t id request).2.find id' = db.find id' := by
  rcases db.transition_cases P t id request with ⟨out, he, -⟩ | ⟨cur, hf, -, -, -, he⟩
  · rw [he]
    exact ⟨rfl, fun _ _ => rfl⟩
  · have hid : (request.updated P t cur).id = id := find_id (r := cur) hf
    have hf' : db.find (request.updated P t cur).id = some cur := hid.symm ▸ hf
    rw [he]
    refine ⟨keys_put hdistinct hf' (updated_hash P hhash t cur), fun id' hne => ?_⟩
    exact (find_put hf' id').trans (if_neg (hid ▸ hne))

/-- **A transition that concludes an intent reads** the keys and the row of the intent. -/
theorem transition_agree (h : Agree id db db') (hterm : isTerminal request.toStatus = true)
    (hhash : request.patch.transactionHash = none) (t : ℕ) :
    (db.transition P t id request).1 = (db'.transition P t id request).1 ∧
      Agree id (db.transition P t id request).2 (db'.transition P t id request).2 := by
  have hkeys := (transition_keeps P h.distinct hhash t id).1
  have hkeys' := (transition_keeps P (h.distinct.congr h.keys) hhash t id).1
  have hsame : (db.transition P t id request).1 = (db'.transition P t id request).1 ∧
      (db.transition P t id request).2.find id = (db'.transition P t id request).2.find id := by
    cases hf : db.find id with
    | none =>
      have hf' := h.found.symm.trans hf
      simp [transition, hf, hf']
    | some cur =>
      have hf' := h.found.symm.trans hf
      have hid : (request.updated P t cur).id = id := find_id (r := cur) hf
      have hput (db : Db) (hf : db.find id = some cur) :
          (db.put (request.updated P t cur)).find id = some (request.updated P t cur) :=
        (find_put (hid.symm ▸ hf) id).trans (if_pos hid.symm)
      have hfind (db : Db) (audit : List AuditRow) :
          ({ db with audit } : Db).find id = db.find id := rfl
      simp only [transition, hf, hf', violation_congr h.keys (updated_active P hterm t cur)]
      split_ifs
      · exact ⟨rfl, h.found⟩
      · exact ⟨rfl, h.found⟩
      · cases db'.violation (request.updated P t cur) with
        | some error => exact ⟨rfl, h.found⟩
        | none => exact ⟨rfl, (hput db hf).trans (hput db' hf').symm⟩
  exact ⟨hsame.1, h.distinct.congr hkeys.symm, hkeys.trans (h.keys.trans hkeys'.symm), hsame.2⟩

end Db

/-! ## One intent of the loop -/

section Visit

variable (P)

/-- The body of the loop of `cycle`: whether the outcome is unprovable, and what is left of the
switch budget. -/
def visit (row : IntentRow) (currentLedger switchBudget : ℕ) : Service (Bool × ℕ) :=
  if unsignedActiveStatuses.contains row.status then
    expireUnsigned row currentLedger >>= fun _ => pure (false, switchBudget)
  else if signedActiveStatuses.contains row.status then
    resolveSigned P row currentLedger switchBudget >>= fun r => pure (r.1 == .unprovable, r.2)
  else pure (false, switchBudget)

variable {P} {script : Script} {row : IntentRow} {s s' : Scene} {n switchBudget : ℕ}

theorem walk_cons (row : IntentRow) (rows : List IntentRow) (n switchBudget : ℕ) (degraded : Bool) :
    walk P n (row :: rows) switchBudget degraded =
      visit P row n switchBudget >>= fun r => walk P n rows r.2 (degraded || r.1) := by
  rw [walk, visit]
  split
  · rw [Prog.bind_assoc]
    simp only [Prog.pure_def, Prog.ret_bind, Bool.or_false]
  · split
    · rw [Prog.bind_assoc]
      simp only [Prog.pure_def, Prog.ret_bind]
    · simp only [Prog.pure_def, Prog.ret_bind, Bool.or_false]

/-- What is done for the intent of an id: requests, and transitions of its row to its end. -/
def Op.reconciles (id : String) : Op → Prop
  | .now | .send _ | .receive _ | .switchEndpoint _ => True
  | .transition id' request =>
    id' = id ∧ isTerminal request.toStatus = true ∧ request.patch.transactionHash = none
  | _ => False

theorem resolving_reconciles (row : IntentRow) : Resolving (Op.reconciles row.id) row where
  send _ _ := trivial
  receive _ _ := trivial
  now := trivial
  transition _ hcon := ⟨rfl, hcon.terminal, hcon.hash⟩
  switchEndpoint _ := trivial

theorem performs_visit (row : IntentRow) (n switchBudget : ℕ) :
    (visit P row n switchBudget).Performs (Op.reconciles row.id) := by
  unfold visit
  split_ifs
  · exact (performs_expireUnsigned n fun last => ⟨rfl, rfl, rfl⟩).bind fun _ => trivial
  · exact ((resolving_reconciles row).resolveSigned _ _).bind fun _ => trivial
  · trivial

/-- What an operation for an intent does to the tables: nothing, or one transition. -/
theorem react_db {id : String} {op : Op} (hop : op.reconciles id) (script : Script) (s : Scene) :
    (react P script s op).2.state = s.state ∨ ∃ request, op = .transition id request ∧
      isTerminal request.toStatus = true ∧ request.patch.transactionHash = none ∧
      (react P script s op).2.state =
        { s.state with db := (s.state.db.transition P (script.writtenAt id) id request).2 } := by
  cases op with
  | transition id' request =>
    obtain ⟨rfl, hterm, hhash⟩ := hop
    exact .inr ⟨request, rfl, hterm, hhash, rfl⟩
  | send q => exact .inl (after_state _ _ _)
  | receive q => cases q <;> exact .inl rfl
  | now | switchEndpoint => exact .inl rfl
  | _ => cases hop

/-- Scenes in which the same is known about one intent. -/
structure Scene.Alike (id : String) (s s' : Scene) : Prop where
  again : s.again = s'.again
  agree : Db.Agree id s.state.db s'.state.db

/-- **An operation for an intent** is answered alike in alike scenes with the same hash. -/
theorem react_alike {id : String} {op : Op} (hop : op.reconciles id) (h : s.Alike id s')
    (hhash : s.hash = s'.hash) : (react P script s op).1 = (react P script s' op).1 ∧
      (react P script s op).2.Alike id (react P script s' op).2 ∧
      (react P script s op).2.hash = (react P script s' op).2.hash := by
  cases op with
  | transition id' request =>
    obtain ⟨rfl, hterm, hkeep⟩ := hop
    obtain ⟨hret, hagree⟩ := Db.transition_agree P h.agree hterm hkeep (script.writtenAt id')
    exact ⟨hret, ⟨h.again, hagree⟩, hhash⟩
  | send q => cases q <;> exact ⟨rfl, ⟨h.again, h.agree⟩, by first | rfl | exact hhash⟩
  | receive q =>
    obtain ⟨state, hash, again⟩ := s
    obtain ⟨state', hash', again'⟩ := s'
    obtain ⟨hagain, hagree⟩ := h
    cases hagain
    cases hhash
    cases q <;> exact ⟨rfl, ⟨rfl, hagree⟩, rfl⟩
  | now | switchEndpoint =>
    obtain ⟨state, hash, again⟩ := s
    cases hhash
    exact ⟨rfl, ⟨by first | rfl | exact h.again, h.agree⟩, rfl⟩
  | _ => cases hop

variable (P) (script) in
/-- A program comes to the same from both scenes, as far as the intent of `id` goes. -/
def EvalAlike {α : Type} (id : String) (p : Service α) (s s' : Scene) : Prop :=
  (p.eval (react P script) s).1 = (p.eval (react P script) s').1 ∧
    (p.eval (react P script) s).2.Alike id (p.eval (react P script) s').2

theorem EvalAlike.map {α β : Type} {id : String} {p : Service α}
    (h : EvalAlike P script id p s s') (g : α → β) : EvalAlike P script id (g <$> p) s s' := by
  rw [EvalAlike, Prog.eval_map, Prog.eval_map, h.1]
  exact ⟨rfl, h.2⟩

/-- An unsigned intent: one transition, whatever the scene has been up to. -/
theorem expireUnsigned_alike (h : s.Alike row.id s') (n : ℕ) :
    EvalAlike P script row.id (expireUnsigned row n) s s' := by
  have hreact : ∀ (s s' : Scene) (op : Op),
      (∃ last, op = .transition row.id (unsignedExpiredRequest last n)) → s.Alike row.id s' →
      (react P script s op).1 = (react P script s' op).1 ∧
        (react P script s op).2.Alike row.id (react P script s' op).2 := by
    rintro s s' _ ⟨last, rfl⟩ h
    obtain ⟨hret, hagree⟩ := Db.transition_agree P h.agree
      (rfl : isTerminal (unsignedExpiredRequest last n).toStatus = true) rfl
      (script.writtenAt row.id)
    exact ⟨hret, h.again, hagree⟩
  exact Prog.eval_related hreact (performs_expireUnsigned n fun last => ⟨last, rfl⟩) h

/-- A signed intent: it is looked up first, so the hash of the scene does not matter. -/
theorem resolveSigned_alike (h : s.Alike row.id s') (n switchBudget : ℕ) :
    EvalAlike P script row.id (resolveSigned P row n switchBudget) s s' := by
  have hreact : ∀ (s s' : Scene) (op : Op), op.reconciles row.id →
      s.Alike row.id s' ∧ s.hash = s'.hash →
      (react P script s op).1 = (react P script s' op).1 ∧
        (react P script s op).2.Alike row.id (react P script s' op).2 ∧
          (react P script s op).2.hash = (react P script s' op).2.hash :=
    fun _ _ _ hop hR => react_alike hop hR.1 hR.2
  have hperforms : (resolveSigned P row n switchBudget).Performs (Op.reconciles row.id) :=
    (resolving_reconciles row).resolveSigned n switchBudget
  revert hperforms
  unfold resolveSigned required
  cases row.transactionHash with
  | none => exact fun _ => ⟨rfl, h⟩
  | some hash =>
    cases row.preparedLedgerIndex with
    | none => exact fun _ => ⟨rfl, h⟩
    | some prepared =>
      cases row.lastLedgerSequence with
      | none => exact fun _ => ⟨rfl, h⟩
      | some last =>
        rintro ⟨-, hrest⟩
        have hsent : ({ s with hash } : Scene).Alike row.id { s' with hash } := ⟨h.again, h.agree⟩
        obtain ⟨hout, halike, -⟩ := Prog.eval_related hreact (hrest ()) ⟨hsent, rfl⟩
        exact ⟨hout, halike⟩

/-- **One intent of the loop** comes to the same in alike scenes. -/
theorem visit_alike (h : s.Alike row.id s') (n switchBudget : ℕ) :
    EvalAlike P script row.id (visit P row n switchBudget) s s' := by
  unfold visit
  split_ifs
  · exact (expireUnsigned_alike h n).map _
  · exact (resolveSigned_alike h n switchBudget).map _
  · exact ⟨rfl, h⟩

/-- **One intent of the loop** leaves the keys, the other rows and the gate as they were. -/
theorem visit_keeps (hdistinct : s.state.db.Distinct) (row : IntentRow) (n switchBudget : ℕ) :
    let final := ((visit P row n switchBudget).eval (react P script) s).2
    final.state.db.keys = s.state.db.keys ∧
      (∀ id, id ≠ row.id → final.state.db.find id = s.state.db.find id) ∧
      final.state.recovered = s.state.recovered := by
  have hreact : ∀ (s₁ : Scene) (op : Op), op.reconciles row.id →
      s₁.state.db.keys = s.state.db.keys ∧
        (∀ id, id ≠ row.id → s₁.state.db.find id = s.state.db.find id) ∧
        s₁.state.recovered = s.state.recovered →
      (react P script s₁ op).2.state.db.keys = s.state.db.keys ∧
        (∀ id, id ≠ row.id → (react P script s₁ op).2.state.db.find id = s.state.db.find id) ∧
        (react P script s₁ op).2.state.recovered = s.state.recovered := by
    rintro s₁ op hop ⟨hkeys, hfind, hrec⟩
    rcases react_db (P := P) hop script s₁ with he | ⟨request, -, -, hhash, he⟩
    · rw [he]
      exact ⟨hkeys, hfind, hrec⟩
    · obtain ⟨hkeys', hfind'⟩ := Db.transition_keeps P (hdistinct.congr hkeys.symm) hhash
        (script.writtenAt row.id) row.id
      rw [he]
      exact ⟨hkeys'.trans hkeys, fun id hne => (hfind' id hne).trans (hfind id hne), hrec⟩
  exact Prog.eval_inv hreact (performs_visit row n switchBudget) ⟨rfl, fun _ _ => rfl, rfl⟩

/-! ### The switch budget -/

/-- What a `tx` request ends with. -/
def searched (answer : Except RequestError LedgerResponse) : Except Failure TxSearch :=
  answer.mapError RequestError.failure >>= readTx

/-- The first endpoint lacks part of the range in which the intent could be found, and no later
ledger can have it. -/
def Script.gap (script : Script) (row : IntentRow) (currentLedger : ℕ) : Bool :=
  signedActiveStatuses.contains row.status &&
    row.lastLedgerSequence.any (fun last => decide (currentLedger > last)) &&
    row.transactionHash.any fun hash =>
      decide (searched (script.about hash).lookup = .ok (.absent false))

/-- What reconciling an intent leaves of the switch budget. -/
def Script.spent (script : Script) (row : IntentRow) (currentLedger switchBudget : ℕ) : ℕ :=
  if script.gap row currentLedger && decide (switchBudget > 0) then switchBudget - 1
  else switchBudget

theorem spent_unsigned (h : signedActiveStatuses.contains row.status = false)
    (n switchBudget : ℕ) : script.spent row n switchBudget = switchBudget := by
  rw [Script.spent, Script.gap, h]
  simp

theorem eval_orThrow {ε α : Type} (failure : ε → Failure) (x : Except ε α) (s : Scene) :
    (orThrow failure x).eval (react P script) s = (x.mapError failure, s) := by
  cases x <;> rfl

theorem eval_required {α : Type} {value : Option α} {column : String} {a : α}
    (h : (required value column).eval (react P script) s = (.ok a, s')) :
    value = some a ∧ s' = s := by
  cases value with
  | some b => cases h; exact ⟨rfl, rfl⟩
  | none => cases h

/-- A request whose answer is known. -/
theorem eval_answered {α : Type} (answer : Except RequestError LedgerResponse)
    (read : LedgerResponse → Except Failure α) (s : Scene) :
    (orThrow RequestError.failure answer >>= fun response => ofExcept (read response)).eval
      (react P script) s = (answer.mapError RequestError.failure >>= read, s) := by
  cases answer with
  | error e => rfl
  | ok response =>
    refine (eval_orThrow id (read response) s).trans ?_
    cases h : read response <;> simp [h, Except.mapError, bind, Except.bind]

theorem eval_tx (hash : String) (min max : ℕ) (s : Scene) :
    (tx hash min max).eval (react P script) s =
      (searched (if s.again then (script.about hash).again else (script.about hash).lookup),
        { s with hash, again := false }) :=
  eval_answered _ readTx _

theorem applying_unswitched (row : IntentRow) :
    Applying (fun op => ∀ reason, op ≠ .switchEndpoint reason) row where
  send _ _ := by simp
  receive _ _ := by simp
  now := by simp
  transition _ _ := by simp

theorem eval_applySearch_again (row : IntentRow) (search : TxSearch) (n : ℕ)
    (h : s.again = false) : ((applySearch P row search n).eval (react P script) s).2.again = false := by
  have hreact : ∀ (s : Scene) (op : Op), (∀ reason, op ≠ .switchEndpoint reason) →
      s.again = false → (react P script s op).2.again = false := by
    intro s op hop h
    cases op with
    | switchEndpoint reason => exact absurd rfl (hop reason)
    | send q => cases q <;> exact h
    | receive q => cases q <;> first | rfl | exact h
    | _ => exact h
  exact Prog.eval_inv hreact ((applying_unswitched row).applySearch search n) h

/-- **The budget is spent** by a gap, and by nothing else. -/
theorem resolveSigned_spends {r : SignedOutcome × ℕ} (hs : s.again = false)
    (hsigned : signedActiveStatuses.contains row.status = true)
    (h : (resolveSigned P row n switchBudget).eval (react P script) s = (.ok r, s')) :
    s'.again = false ∧ r.2 = script.spent row n switchBudget := by
  unfold resolveSigned at h
  obtain ⟨hash, _, hreq, h₁⟩ := Prog.eval_bind_inv h
  obtain ⟨hhash, rfl⟩ := eval_required hreq
  obtain ⟨prepared, _, hreq, h₂⟩ := Prog.eval_bind_inv h₁
  obtain ⟨-, rfl⟩ := eval_required hreq
  obtain ⟨last, _, hreq, h₃⟩ := Prog.eval_bind_inv h₂
  obtain ⟨hlast, rfl⟩ := eval_required hreq
  obtain ⟨search, _, htx, h₄⟩ := Prog.eval_bind_inv h₃
  rw [eval_tx, hs, if_neg Bool.false_ne_true, Prod.mk.injEq] at htx
  obtain ⟨hsearch, rfl⟩ := htx
  have hgap : script.gap row n = decide (search = .absent false ∧ n > last) := by
    rw [Script.gap, hsigned]
    simp [hhash, hlast, hsearch, and_comm]
  have happly {s₂ : Scene} {search : TxSearch} {left : ℕ} (hs₂ : s₂.again = false)
      (h : (applySearch P row search n >>= fun outcome => pure (outcome, left)).eval
        (react P script) s₂ = (.ok r, s')) : s'.again = false ∧ r.2 = left := by
    obtain ⟨outcome, s₃, hout, hend⟩ := Prog.eval_bind_inv h
    have hagain : ((applySearch P row search n).eval (react P script) s₂).2.again = false :=
      eval_applySearch_again row search n hs₂
    rw [hout] at hagain
    cases hend
    exact ⟨hagain, rfl⟩
  rw [Script.spent, hgap]
  split_ifs at h₄ with hswitch
  · obtain ⟨u, _, -, h₅⟩ := Prog.eval_bind_inv h₄
    obtain ⟨search', _, htx, h₆⟩ := Prog.eval_bind_inv h₅
    rw [eval_tx, Prod.mk.injEq] at htx
    obtain ⟨-, rfl⟩ := htx
    obtain ⟨hagain, hleft⟩ := happly rfl h₆
    exact ⟨hagain, by simpa [hswitch] using hleft⟩
  · obtain ⟨hagain, hleft⟩ := happly rfl h₄
    refine ⟨hagain, hleft.trans (if_neg ?_).symm⟩
    simpa [and_assoc] using hswitch

theorem visit_spends {r : Bool × ℕ} (hs : s.again = false)
    (h : (visit P row n switchBudget).eval (react P script) s = (.ok r, s')) :
    s'.again = false ∧ r.2 = script.spent row n switchBudget := by
  have hdisjoint : ∀ status : Status, unsignedActiveStatuses.contains status = true →
      signedActiveStatuses.contains status = false := by decide
  unfold visit at h
  split_ifs at h with hunsigned hsigned
  · obtain ⟨u, s₁, hexpire, hend⟩ := Prog.eval_bind_inv h
    have hagain : s₁.again = false := by
      have hreact : ∀ (s : Scene) (op : Op),
          (∃ last, op = .transition row.id (unsignedExpiredRequest last n)) → s.again = false →
          (react P script s op).2.again = false := by
        rintro s _ ⟨last, rfl⟩ h
        exact h
      have hinv := Prog.eval_inv hreact (performs_expireUnsigned n fun last => ⟨last, rfl⟩) hs
      rwa [hexpire] at hinv
    cases hend
    exact ⟨hagain, (spent_unsigned (hdisjoint _ hunsigned) n switchBudget).symm⟩
  · obtain ⟨r', s₁, hresolve, hend⟩ := Prog.eval_bind_inv h
    cases hend
    exact resolveSigned_spends hs hsigned hresolve
  · cases h
    exact ⟨hs, (spent_unsigned (by simpa using hsigned) n switchBudget).symm⟩

end Visit

/-! ## The whole cycle -/

section Cycle

variable (P) (script : Script) (s : State)

/-- The validated ledger that the cycle reads. -/
def Script.currentLedger : Except Failure ℕ :=
  script.ledger.mapError RequestError.failure >>= readLedgerIndex

/-- Reconciling one intent alone: everything else is as it was before the cycle. -/
def alone (currentLedger switchBudget : ℕ) (row : IntentRow) : Except Failure (Bool × ℕ) × State :=
  let out := (visit P row currentLedger switchBudget).eval (react P script) ⟨s, "", false⟩
  (out.1, out.2.state)

/-- The switch budget after these intents, if none of them ends the cycle. -/
def budgetLeft (currentLedger : ℕ) : List IntentRow → ℕ → Option ℕ
  | [], switchBudget => some switchBudget
  | row :: rows, switchBudget =>
    match (alone P script s currentLedger switchBudget row).1 with
    | .ok r => budgetLeft currentLedger rows r.2
    | .error _ => none

/-- The row of an intent after the cycle: that of the intent alone, unless one before it ended the
cycle. -/
def isolated (currentLedger : ℕ) (before : List IntentRow) (switchBudget : ℕ) (row : IntentRow) :
    Option IntentRow :=
  (budgetLeft P script s currentLedger before switchBudget).elim (s.db.find row.id) fun left =>
    (alone P script s currentLedger left row).2.db.find row.id

variable {P script s}

theorem budgetLeft_ok {n switchBudget : ℕ} {row : IntentRow} {r : Bool × ℕ}
    (h : (alone P script s n switchBudget row).1 = .ok r) (rows : List IntentRow) :
    budgetLeft P script s n (row :: rows) switchBudget = budgetLeft P script s n rows r.2 := by
  rw [budgetLeft, h]

theorem budgetLeft_error {n switchBudget : ℕ} {row : IntentRow} {e : Failure}
    (h : (alone P script s n switchBudget row).1 = .error e) (rows : List IntentRow) :
    budgetLeft P script s n (row :: rows) switchBudget = none := by
  rw [budgetLeft, h]

/-- **The loop**, by induction on the intents that are left. -/
theorem walk_isolated {n : ℕ} {rows : List IntentRow} (hids : (rows.map (·.id)).Nodup)
    {scene : Scene} (halike : ∀ row ∈ rows, scene.Alike row.id ⟨s, "", false⟩)
    (switchBudget : ℕ) (degraded : Bool) :
    let out := (walk P n rows switchBudget degraded).eval (react P script) scene
    (∀ before row after, rows = before ++ row :: after →
      out.2.state.db.find row.id = isolated P script s n before switchBudget row) ∧
    (∀ id, id ∉ rows.map (·.id) → out.2.state.db.find id = scene.state.db.find id) ∧
    out.2.state.recovered = scene.state.recovered ∧
    out.1.isOk = (budgetLeft P script s n rows switchBudget).isSome := by
  induction rows generalizing scene switchBudget degraded with
  | nil => exact ⟨fun before row after h => by simp at h, fun _ _ => rfl, rfl, rfl⟩
  | cons row rows ih =>
    obtain ⟨hrow, hids⟩ := List.nodup_cons.mp hids
    have hhere := halike row List.mem_cons_self
    have hne : ∀ o ∈ rows, o.id ≠ row.id := fun o ho hid =>
      hrow (List.mem_map.mpr ⟨o, ho, hid⟩)
    obtain ⟨hout, hagree⟩ := visit_alike (P := P) hhere n switchBudget
    obtain ⟨hkeys, hfind, hrec⟩ := visit_keeps (P := P) hhere.agree.distinct row n switchBudget
    rw [walk_cons]
    cases he : (visit P row n switchBudget).eval (react P script) scene with
    | mk result scene₁ =>
      rw [he] at hout hagree hkeys hfind hrec
      have hself : scene₁.state.db.find row.id = isolated P script s n [] switchBudget row :=
        hagree.agree.found
      cases result with
      | error e =>
        rw [Prog.eval_bind_error he]
        refine ⟨fun before o after h => ?_, fun id hid => ?_, hrec, ?_⟩
        · cases before with
          | nil =>
            obtain ⟨rfl, rfl⟩ := List.cons.inj h
            exact hself
          | cons x before =>
            obtain ⟨rfl, rfl⟩ := List.cons.inj h
            have ho : o ∈ before ++ o :: after := by simp
            rw [isolated, budgetLeft_error hout.symm]
            exact (hfind _ (hne o ho)).trans (halike o (List.mem_cons_of_mem _ ho)).agree.found
        · exact hfind id fun heq => hid (by simp [heq])
        · rw [budgetLeft_error hout.symm]
          rfl
      | ok r =>
        rw [Prog.eval_bind_ok he]
        have hagain : scene₁.again = false := (visit_spends hhere.again he).1
        have hrest : ∀ o ∈ rows, scene₁.Alike o.id ⟨s, "", false⟩ := by
          intro o ho
          have hold := (halike o (List.mem_cons_of_mem _ ho)).agree
          exact ⟨hagain, hold.distinct.congr hkeys.symm, hkeys.trans hold.keys,
            (hfind _ (hne o ho)).trans hold.found⟩
        obtain ⟨hrows, hothers, hrec', hends⟩ := ih hids hrest r.2 (degraded || r.1)
        refine ⟨fun before o after h => ?_, fun id hid => ?_, hrec'.trans hrec, ?_⟩
        · cases before with
          | nil =>
            obtain ⟨rfl, rfl⟩ := List.cons.inj h
            exact (hothers _ hrow).trans hself
          | cons x before =>
            obtain ⟨rfl, rfl⟩ := List.cons.inj h
            rw [isolated, budgetLeft_ok hout.symm]
            exact hrows before o after rfl
        · rw [List.map_cons, List.mem_cons, not_or] at hid
          exact (hothers id hid.2).trans (hfind id hid.1)
        · rw [budgetLeft_ok hout.symm]
          exact hends

theorem eval_validatedLedgerIndex (scene : Scene) :
    validatedLedgerIndex.eval (react P script) scene = (script.currentLedger, scene) :=
  eval_answered _ readLedgerIndex scene

theorem cycled_eq : cycled P script s =
    ((cyclePass P).eval (react P script) ⟨s, "", false⟩).2.state := by
  have heval : (cycle P).eval (react P script) ⟨s, "", false⟩ =
      (((cyclePass P).toExcept.eval (react P script) ⟨s, "", false⟩).1.map fun _ => (),
        ((cyclePass P).toExcept.eval (react P script) ⟨s, "", false⟩).2) :=
    Prog.eval_map (fun _ => ()) (cyclePass P).toExcept _
  rw [cycled, heval, Prog.eval_toExcept]

/-- The cycle is its loop, and then the note that it is completed. -/
theorem cycled_walk {n : ℕ} (hledger : script.currentLedger = .ok n) :
    let out := (walk P n (s.db.findByStatuses sequenceActiveStatuses) 1 false).eval
      (react P script) ⟨s, "", false⟩
    (cycled P script s).db = out.2.state.db ∧
      (cycled P script s).recovered = (out.2.state.recovered || out.1.isOk) := by
  have hread : validatedLedgerIndex.eval (react P script) ⟨s, "", false⟩ =
      (script.currentLedger, ⟨s, "", false⟩) := eval_validatedLedgerIndex _
  rw [hledger] at hread
  have hrows : (findByStatuses sequenceActiveStatuses).eval (react P script) ⟨s, "", false⟩ =
      (.ok (s.db.findByStatuses sequenceActiveStatuses), ⟨s, "", false⟩) := rfl
  rw [cycled_eq, cyclePass, Prog.eval_bind_ok hread, Prog.eval_bind_ok hrows]
  cases he : (walk P n (s.db.findByStatuses sequenceActiveStatuses) 1 false).eval (react P script)
    ⟨s, "", false⟩ with
  | mk result scene =>
    cases result with
    | ok degraded =>
      rw [Prog.eval_bind_ok he]
      exact ⟨rfl, (Bool.or_true _).symm⟩
    | error e =>
      rw [Prog.eval_bind_error he]
      exact ⟨rfl, (Bool.or_false _).symm⟩

end Cycle

/-- **Isolation up to the first error.** Whatever the answers about each intent: after a cycle, an
intent with no error before it has the row that it would have if it had been reconciled alone with
the same answers, on the switch budget that the intents before it left; behind an error it has the
row that it had. No other row is touched, and the gate is open after the cycle if it was before, or
if no intent ended in an error. Of its budget of one switch the cycle spends one on the first intent
that shows a gap after its deadline. -/
theorem cycle_isolated (P : Platform) (script : Script) (s : State) (hids : s.db.Distinct) (n : ℕ)
    (hledger : script.currentLedger = .ok n) :
    let rows := s.db.findByStatuses sequenceActiveStatuses
    (∃ k : Sys, Runs (system P) anyStep ⟨⟨s, []⟩, [], 0⟩ k ∧ k.pool = [] ∧
      k.state = cycled P script s) ∧
    (∀ before row after, rows = before ++ row :: after →
      (cycled P script s).db.find row.id = isolated P script s n before 1 row) ∧
    (∀ id, id ∉ rows.map (·.id) → (cycled P script s).db.find id = s.db.find id) ∧
    (cycled P script s).recovered = (s.recovered || (budgetLeft P script s n rows 1).isSome) ∧
    ∀ row switchBudget r, (alone P script s n switchBudget row).1 = .ok r →
      r.2 = script.spent row n switchBudget := by
  have hperm : (s.db.findByStatuses sequenceActiveStatuses).Perm
      (s.db.rows.filter fun r => sequenceActiveStatuses.contains r.status) :=
    List.perm_insertionSort _ _
  have hnodup : ((s.db.findByStatuses sequenceActiveStatuses).map (·.id)).Nodup :=
    ((hperm.map _).nodup_iff).mpr (hids.sublist (List.filter_sublist.map _))
  obtain ⟨hdb, hrec⟩ := cycled_walk (P := P) hledger
  obtain ⟨hrows, hothers, hkept, hends⟩ := walk_isolated (P := P) hnodup
    (fun row _ => ⟨rfl, hids, rfl, rfl⟩) 1 false
  refine ⟨cycled_runs script s, fun before row after h => ?_, fun id hid => ?_, ?_, ?_⟩
  · rw [hdb]
    exact hrows before row after h
  · rw [hdb]
    exact hothers id hid
  · rw [hrec, hkept, hends]
  · intro row switchBudget r h
    exact (visit_spends rfl (Prod.ext h rfl)).2

namespace Sample

/-- Intents waiting for their end. -/
def waitingState (ns : List ℕ) : State := ⟨⟨ns.map waiting, []⟩, false, false, 0, []⟩

/-- The transaction of this hash, found in ledger 4. -/
def foundByHash (h : String) : Record :=
  [("hash", .str h), ("validated", .bool true), ("ledger_index", .num 4),
    ("meta", .obj [("TransactionResult", .str "tesSUCCESS")])]

/-- The answers at ledger 30: the look-up of intent 6 ends in a server error, any other finds its
transaction. -/
def errorFor6 : Script where
  ledger := .ok (.ok (ledgerAnswer 30))
  about h :=
    { lookup := .ok (if h = hash 6 then .error "internal" [] else .ok (foundByHash h))
      switched := .ok ()
      again := .error .unavailable
      account := .error .unavailable
      finalizedAt := 1 }
  writtenAt _ := 1

end Sample

/-- The intent before the error is settled, the one behind it is not, and the gate stays closed. -/
theorem cycle_isolated_between :
    let final := cycled Sample.platform Sample.errorFor6 (Sample.waitingState [5, 6, 7])
    (final.db.find (Sample.waiting 5).id).map (·.status) = some .validated ∧
      final.db.find (Sample.waiting 7).id = some (Sample.waiting 7) ∧ final.recovered = false := by
  obtain ⟨-, hrows, -, hrec, -⟩ := cycle_isolated Sample.platform Sample.errorFor6
    (Sample.waitingState [5, 6, 7]) (by unfold Db.Distinct; decide +kernel) 30 (by decide +kernel)
  have hfirst := hrows [] (Sample.waiting 5) [Sample.waiting 6, Sample.waiting 7]
    (by decide +kernel)
  have hlast := hrows [Sample.waiting 5, Sample.waiting 6] (Sample.waiting 7) [] (by decide +kernel)
  refine ⟨?_, hlast.trans (by decide +kernel), hrec.trans (by decide +kernel)⟩
  rw [hfirst]
  decide +kernel

/-- A server error for one intent keeps a validated one behind it unsettled, and the gate closed. -/
theorem cycle_not_isolated : ¬ ∀ (script : Script) (s : State) (n : ℕ), s.db.Distinct →
    script.currentLedger = .ok n →
    (∀ row ∈ s.db.findByStatuses sequenceActiveStatuses,
      ((cycled Sample.platform script s).db.find row.id).map (·.status) =
        ((alone Sample.platform script s n 1 row).2.db.find row.id).map (·.status)) ∧
    (cycled Sample.platform script s).recovered = true := by
  intro hevery
  obtain ⟨hstatus, -⟩ := hevery Sample.errorFor6 (Sample.waitingState [6, 7]) 30
    (by unfold Db.Distinct; decide +kernel) (by decide +kernel)
  have hbehind := hstatus (Sample.waiting 7) (by decide +kernel)
  revert hbehind
  decide +kernel

end Orchestrator
