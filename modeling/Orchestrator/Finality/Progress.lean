import Orchestrator.Finality.Isolation
import Orchestrator.Lifecycle.Changes

/-!
# No account stays blocked

An account has at most one intent between `PREPARED` and its end, so an intent that never ends would
block it. A finality cycle that is told what became of the signed transactions ends every intent
whose window has passed, and from every configuration of every run such a cycle is possible.

* `Db.Tidy`, `reach_tidy`: the constraints of the tables hold in every run;
* `Db.transition_updated`, **`transition_settles`**: what is not refused, a transition to an end;
* `Script.Tells`: the answers about one hash that decide its intent;
* `Decides`, `decides_resolveSigned`, `decides_visit`: one intent of the loop;
* `cycled_flagged`, `cycles_end`, `cycled_from`: the cycles in flight end, and another one runs;
* **`cycle_settles`**, **`accounts_released`**.
-/

namespace Orchestrator

open Interleave

/-! ## The constraints of the tables -/

/-- Every row meets the `CHECK` constraints, and the ids are distinct. -/
structure Db.Tidy (db : Db) : Prop where
  checked : ∀ r ∈ db.rows, r.checks = true
  distinct : db.Distinct

section Tidy

variable {P : Platform} {db : Db} {r cur : IntentRow}

theorem Db.checks_of_violation (h : db.violation r = none) : r.checks = true := by
  unfold Db.violation at h
  split_ifs at h with h₁
  simpa using h₁

theorem Db.Tidy.put (h : db.Tidy) (hv : db.violation r = none) : (db.put r).Tidy where
  checked o ho := by
    obtain rfl | ⟨ho, -⟩ := Db.mem_put ho
    · exact Db.checks_of_violation hv
    · exact h.checked o ho
  distinct := by
    have hids : (db.put r).rows.map (·.id) = db.rows.map (·.id) := by
      rw [Db.put, List.map_map]
      refine List.map_congr_left fun o _ => ?_
      by_cases hid : o.id = r.id <;> simp [hid]
    rw [Db.Distinct, hids]
    exact h.distinct

theorem Db.Tidy.append (h : db.Tidy) (hf : db.find r.id = none) (hv : db.violation r = none)
    (audit : List AuditRow) : (Db.mk (db.rows ++ [r]) audit).Tidy where
  checked o ho := by
    obtain ho | ho := List.mem_append.mp ho
    · exact h.checked o ho
    · rw [List.mem_singleton.mp ho]
      exact Db.checks_of_violation hv
  distinct := by
    rw [Db.Distinct, List.map_append, List.map_singleton]
    refine List.nodup_append'.mpr ⟨h.distinct, List.nodup_singleton _, ?_⟩
    refine List.disjoint_singleton.mpr fun hmem => ?_
    obtain ⟨o, ho, hid⟩ := List.mem_map.mp hmem
    have hfound := Db.find_of_distinct h.distinct ho
    rw [hid, hf] at hfound
    cases hfound

theorem Db.Tidy.congr {db' : Db} (h : db.Tidy) (he : db'.rows = db.rows) : db'.Tidy where
  checked := he ▸ h.checked
  distinct := by
    rw [Db.Distinct, he]
    exact h.distinct

/-- An operation keeps the constraints, whatever it is asked to write. -/
theorem exec_tidy {s s' : State} (h : s.db.Tidy) {op : Op} {r : op.Ret}
    (hx : (system P).exec s op r s') : s'.db.Tidy := by
  by_cases hw : op.writes = true
  · cases op with
    | transition id request =>
      obtain ⟨-, rfl⟩ | ⟨t, -, rfl⟩ := exec_transition hx
      · exact h
      · rcases s.db.transition_cases P t id request with ⟨out, ho, -⟩ | ⟨cur, -, -, -, hv, ho⟩
        · rwa [ho]
        · rw [ho]
          exact (h.put hv).congr rfl
    | updateInStatus id statuses patch =>
      obtain ⟨-, rfl⟩ | ⟨t, -, rfl⟩ := exec_updateInStatus hx
      · exact h
      · rcases s.db.updateInStatus_cases P t id statuses patch with
          ⟨out, ho, -⟩ | ⟨cur, -, -, hv, ho⟩
        · rwa [ho]
        · rw [ho]
          exact h.put hv
    | createIdempotent row =>
      obtain ⟨-, rfl⟩ | ⟨-, rfl⟩ := exec_createIdempotent hx
      · exact h
      · rcases s.db.createIdempotent_cases P row with ⟨out, ho, -⟩ | ⟨hf, -, hv, ho⟩
        · rwa [ho]
        · rw [ho]
          exact h.append hf hv _
    | _ => cases hw
  · obtain ⟨choice, hx⟩ := hx
    rw [perform_db (by simpa using hw) hx]
    exact h

/-- **In every run** the constraints hold. -/
theorem reach_tidy {ok : StepCond Op Op.Ret Failure Reply Call State} {k : Sys}
    (hk : Reach (system P) ok k) : k.state.db.Tidy := by
  refine hk.inv (P := fun k => k.state.db.Tidy) (fun s hs => ?_) fun k a k' _ h hs _ => ?_
  · change s.db.Tidy
    rw [hs.1]
    exact ⟨by simp, List.nodup_nil⟩
  · cases hs with
    | start | finish | kill => exact h
    | op _ hx => exact exec_tidy h hx
    | env hx =>
      obtain ⟨ledger, rfl⟩ := hx
      exact h
    | restart hx =>
      obtain ⟨networkId, rfl⟩ := hx
      exact h

/-! ## Transitions that are not refused -/

/-- A patch that sets no column that a constraint is about. -/
structure IntentPatch.Free (patch : IntentPatch) : Prop where
  hash : patch.transactionHash = none
  fee : patch.feeDrops = none
  prepared : patch.preparedLedgerIndex = none
  last : patch.lastLedgerSequence = none

/-- A transition to a terminal status that sets no column that the constraints are about. -/
structure TransitionRequest.Settles (request : TransitionRequest) : Prop where
  terminal : isTerminal request.toStatus = true
  free : request.patch.Free

variable {request : TransitionRequest}

theorem checks_updated (h : request.patch.Free) (t : ℕ) (cur : IntentRow) :
    (request.updated P t cur).checks = cur.checks := by
  simp [TransitionRequest.updated, IntentPatch.apply, IntentRow.checks, h.hash, h.fee, h.prepared,
    h.last]

/-- The new version of a row does not meet the index on hashes, if it has the hash of the old. -/
theorem Db.Ok.conflictsHash_kept (hok : db.Ok P) (hm : cur ∈ db.rows) (hid : r.id = cur.id)
    (hhash : r.transactionHash = cur.transactionHash) : db.conflictsHash r = false := by
  rw [Db.conflictsHash, hhash, hid]
  cases hc : cur.transactionHash with
  | none => rfl
  | some hash =>
    rw [Option.isSome_some, Bool.true_and, List.any_eq_false]
    intro o ho hboth
    obtain ⟨hne, heq⟩ := Bool.and_eq_true_iff.mp hboth
    exact absurd (hok.hashes cur hm o ho hash hc (by simpa using heq)) (by simpa using hne)

theorem conflictsHash_updated (hok : db.Ok P) (hm : cur ∈ db.rows)
    (h : request.patch.transactionHash = none) (t : ℕ) :
    db.conflictsHash (request.updated P t cur) = false :=
  hok.conflictsHash_kept hm rfl (Db.updated_hash P h t cur)

/-- The new version of an active row does not meet the index on active accounts. -/
theorem Db.Ok.conflictsActive_kept (hok : db.Ok P) (hf : db.find cur.id = some cur)
    (hid : r.identity = cur.identity) (hactive : r.active = true → cur.active = true) :
    db.conflictsActive r = false := by
  refine Bool.eq_false_iff.mpr fun hconflict => ?_
  obtain ⟨hr, hany⟩ := Bool.and_eq_true_iff.mp hconflict
  obtain ⟨o, ho, hother⟩ := List.any_eq_true.mp hany
  simp only [Bool.and_eq_true, bne_iff_ne, ne_eq, beq_iff_eq] at hother
  obtain ⟨⟨⟨hne, hoactive⟩, hnetwork⟩, haccount⟩ := hother
  have hnetwork' : r.networkId = cur.networkId := congrArg (·.2.2.2.1) hid
  have haccount' : r.sourceAccount = cur.sourceAccount := congrArg (·.2.2.2.2.2.1) hid
  have hsame : o.id = cur.id := hok.active cur (Db.mem_of_find hf) o ho (hactive hr) hoactive
    (hnetwork.trans hnetwork') (haccount.trans haccount')
  exact hne (hsame.trans (congrArg (·.1) hid).symm)

/-- A transition that the table of transitions allows and no constraint refuses. -/
theorem Db.transition_updated {id : String} (hf : db.find id = some cur)
    (hfrom : cur.status ∈ request.fromStatuses)
    (hcan : canTransition cur.status request.toStatus = true) {t : ℕ}
    (hchecks : (request.updated P t cur).checks = true)
    (hactive : db.conflictsActive (request.updated P t cur) = false)
    (hhash : db.conflictsHash (request.updated P t cur) = false) :
    db.transition P t id request = (.ok (some (request.updated P t cur)),
      { db.put (request.updated P t cur) with
        audit := db.audit ++ [request.audit id cur.status] }) := by
  have hv : db.violation (request.updated P t cur) = none := by
    simp [Db.violation, hchecks, hactive, hhash]
  simp [Db.transition, hf, hfrom, hcan, hv]

/-- **A transition to an end** that the table of transitions allows is not refused. -/
theorem transition_settles (hok : db.Ok P) (htidy : db.Tidy) {id : String}
    (hf : db.find id = some cur) (hfrom : cur.status ∈ request.fromStatuses)
    (hcan : canTransition cur.status request.toStatus = true) (h : request.Settles) (t : ℕ) :
    db.transition P t id request = (.ok (some (request.updated P t cur)),
      { db.put (request.updated P t cur) with
        audit := db.audit ++ [request.audit id cur.status] }) := by
  have hm := Db.mem_of_find hf
  have hactive : db.conflictsActive (request.updated P t cur) = false := by
    rw [Db.conflictsActive, Db.updated_active P h.terminal, Bool.false_and]
  exact Db.transition_updated hf hfrom hcan
    ((checks_updated h.free t cur).trans (htidy.checked cur hm)) hactive
    (conflictsHash_updated hok hm h.free.hash t)

end Tidy

/-! ## One intent of the loop -/

section Visit

variable {P : Platform} {script : Script} {row : IntentRow} {s : Scene} {n last : ℕ}
  {request : TransitionRequest} {φ : Prop}

/-- The answers about a hash that decide its intent as of ledger `n`: it is in a validated ledger or
in none of its range, and its account as of a ledger not before `n`. -/
structure Script.Tells (script : Script) (n : ℕ) (hash : String) : Prop where
  search : searched (script.about hash).lookup = .ok (.absent true) ∨ ∃ lookup raw,
    searched (script.about hash).lookup = .ok (.found lookup raw) ∧ lookup.validated = true
  account : ∃ account, ((script.about hash).account.mapError RequestError.failure >>=
    readAccountInfo) = .ok account ∧ ∀ a, account = some a → n ≤ a.ledgerIndex.getD 0

/-- The intent is in the table as it was read, and the table is as in every run. -/
structure Present (P : Platform) (s : Scene) (row : IntentRow) : Prop where
  ok : s.state.db.Ok P
  tidy : s.state.db.Tidy
  found : s.state.db.find row.id = some row

/-- The intent has come to its end. -/
def State.Ended (s : State) (id : String) : Prop :=
  ∃ r, s.db.find id = some r ∧ isTerminal r.status = true

/-- The program ends with a value, and where `φ` holds, with the intent at its end. -/
def Decides (P : Platform) (script : Script) {α : Type} (p : Service α) (s : Scene) (id : String)
    (φ : Prop) : Prop :=
  ∃ a s', p.eval (react P script) s = (.ok a, s') ∧ (φ → s'.state.Ended id)

theorem Decides.pure {α : Type} (a : α) (s : Scene) (id : String) (h : ¬ φ) :
    Decides P script (Pure.pure a : Service α) s id φ :=
  ⟨a, s, rfl, fun hφ => absurd hφ h⟩

theorem Decides.map {α β : Type} {p : Service α} {id : String}
    (h : Decides P script p s id φ) (f : α → β) :
    Decides P script (p >>= fun a => Pure.pure (f a)) s id φ := by
  obtain ⟨a, s', he, hends⟩ := h
  exact ⟨f a, s', Prog.eval_bind_ok he _, hends⟩

/-- The terminal statuses that a reconciled intent can come to. -/
theorem canTransition_reconciled : ∀ s t : Status, (s ∈ signedActiveStatuses ∧
      t ∈ [Status.validated, .expired, .failed]) ∨ (s ∈ unsignedActiveStatuses ∧ t = .expired) →
    canTransition s t = true := by
  decide

/-- What a transition of the intent to its end leaves. -/
theorem eval_transition (script : Script) (request : TransitionRequest) (h : Present P s row)
    (hfrom : row.status ∈ request.fromStatuses)
    (hcan : canTransition row.status request.toStatus = true) (hs : request.Settles) : ∃ s',
    (transition row.id request).eval (react P script) s =
      (.ok (some (request.updated P (script.writtenAt row.id) row)), s') ∧
    s'.state.db.find row.id = some (request.updated P (script.writtenAt row.id) row) := by
  have hx := transition_settles h.ok h.tidy h.found hfrom hcan hs (script.writtenAt row.id)
  have hret : (react P script s (.transition row.id request)).1 =
      .ok (some (request.updated P (script.writtenAt row.id) row)) := congrArg Prod.fst hx
  have hstate : (react P script s (.transition row.id request)).2.state.db = _ :=
    congrArg Prod.snd hx
  refine ⟨(react P script s (.transition row.id request)).2, ?_, ?_⟩
  · change (orThrow DbError.failure
      (react P script s (.transition row.id request)).1).eval (react P script) _ = _
    rw [hret]
    rfl
  · rw [hstate]
    exact (Db.find_put (r := request.updated P (script.writtenAt row.id) row) h.found row.id).trans
      (if_pos rfl)

/-- A transition of the intent to its end. -/
theorem decides_transition (h : Present P s row) (hfrom : row.status ∈ request.fromStatuses)
    (hcan : canTransition row.status request.toStatus = true) (hs : request.Settles) :
    Decides P script (transition row.id request) s row.id φ := by
  obtain ⟨s', he, hfound⟩ := eval_transition script request h hfrom hcan hs
  exact ⟨_, s', he, fun _ => ⟨_, hfound, hs.terminal⟩⟩

theorem decides_failIntent (h : Present P s row) (hs : row.status ∈ signedActiveStatuses)
    (failureCode : FailureCode) (details : Record) :
    Decides P script (failIntent row failureCode details) s row.id φ :=
  (decides_transition h hs (canTransition_reconciled _ _ (.inl ⟨hs, by simp [failRequest]⟩))
    ⟨rfl, rfl, rfl, rfl, rfl⟩).map _

/-- Absent from its whole range: the account is read as of a ledger beyond it. -/
theorem decides_applyProvenAbsent (h : Present P s row) (hs : row.status ∈ signedActiveStatuses)
    (hn : last < n) (ht : script.Tells n s.hash) :
    Decides P script (applyProvenAbsent row last) s row.id φ := by
  have hcreated : ∀ s ∈ signedActiveStatuses, s ≠ Status.created := by decide
  obtain ⟨payload, params, blob, index, -, -, -, -, -, hseq, -⟩ :=
    (h.ok.rows row (Db.mem_of_find h.found)).prepared (hcreated _ hs)
  obtain ⟨account, haccount, hlater⟩ := ht.account
  have hread : (validatedAccountInfo row.sourceAccount).eval (react P script) s =
      (.ok account, s) :=
    (eval_answered _ readAccountInfo s).trans (Prod.ext haccount rfl)
  have hfresh : isStale account last = false :=
    isStale_eq_false.mpr fun a ha => lt_of_lt_of_le hn (hlater a ha)
  have settled (request : TransitionRequest) (hreq : request.fromStatuses = signedActiveStatuses)
      (hto : request.toStatus = .expired) (hset : request.Settles) :
      Decides P script (transition row.id request) s row.id φ :=
    decides_transition h (hreq ▸ hs)
      (canTransition_reconciled _ _ (.inl ⟨hs, by simp [hto]⟩)) hset
  unfold applyProvenAbsent
  rw [hseq]
  simp only [required, Prog.ret_bind]
  unfold Decides
  rw [Prog.eval_bind_ok hread, if_neg (by simp [hfresh])]
  split_ifs
  · exact (settled _ rfl rfl ⟨rfl, rfl, rfl, rfl, rfl⟩).map _
  · exact decides_failIntent h hs _ _
  · exact decides_failIntent h hs _ _

/-- Found in a validated ledger. -/
theorem decides_applyFound (h : Present P s row) (hs : row.status ∈ signedActiveStatuses)
    {lookup : TxLookup} (hv : lookup.validated = true) (raw : Record) :
    Decides P script (applyFound P row lookup raw) s row.id φ := by
  have hok := h.ok.rows row (Db.mem_of_find h.found)
  have hcreated : ∀ s ∈ signedActiveStatuses, s ≠ Status.created := by decide
  obtain ⟨payload, params, blob, index, -, -, -, -, hindex, -, -, hlast, -⟩ :=
    hok.prepared (hcreated _ hs)
  obtain ⟨txBlob, preparedTxBlob, v, -, -, -, hhash, -⟩ := hok.signed (.inl hs)
  unfold applyFound
  rw [hindex, hlast, hhash]
  simp only [hv, required, Prog.ret_bind, Bool.not_true, Bool.false_eq_true, if_false]
  cases lookup.ledgerIndex with
  | none => exact decides_failIntent h hs _ _
  | some ledgerIndex =>
    dsimp only
    split_ifs with hcon
    · exact decides_failIntent h hs _ _
    · cases lookup.transactionResult with
      | none => exact decides_failIntent h hs _ _
      | some result =>
        dsimp only
        split_ifs
        · exact decides_failIntent h hs _ _
        · have hnow : now.eval (react P script) s =
              (.ok (script.about s.hash).finalizedAt, s) := rfl
          unfold Decides
          rw [Prog.eval_bind_ok hnow]
          exact (decides_transition h hs
            (canTransition_reconciled _ _ (.inl ⟨hs, by simp [validatedRequest]⟩))
            ⟨rfl, rfl, rfl, rfl, rfl⟩).map _

/-- A search that shows no gap is applied. -/
theorem eval_resolveSigned {hash : String} {index : ℕ} {search : TxSearch}
    (hhash : row.transactionHash = some hash) (hindex : row.preparedLedgerIndex = some index)
    (hlast : row.lastLedgerSequence = some last) (hagain : s.again = false)
    (hsearch : searched (script.about hash).lookup = .ok search) (hgap : search ≠ .absent false)
    (switchBudget : ℕ) : (resolveSigned P row n switchBudget).eval (react P script) s =
      (applySearch P row search n >>= fun outcome => pure (outcome, switchBudget)).eval
        (react P script) { s with hash, again := false } := by
  have hlook : (tx hash (index + 1) last).eval (react P script) s =
      (.ok search, { s with hash, again := false }) := by
    rw [eval_tx, hagain, if_neg Bool.false_ne_true, hsearch]
  unfold resolveSigned
  rw [hindex, hlast, hhash]
  simp only [required, Prog.ret_bind]
  rw [Prog.eval_bind_ok hlook, if_neg (by simp [hgap])]

/-- **A signed intent** whose answers decide it: it is resolved, and past its window it ends. -/
theorem decides_resolveSigned (h : Present P s row) (hs : row.status ∈ signedActiveStatuses)
    (hagain : s.again = false)
    (ht : ∀ hash, row.transactionHash = some hash → script.Tells n hash) (switchBudget : ℕ) :
    Decides P script (resolveSigned P row n switchBudget) s row.id
      (∀ last, row.lastLedgerSequence = some last → last < n) := by
  have hok := h.ok.rows row (Db.mem_of_find h.found)
  have hcreated : ∀ s ∈ signedActiveStatuses, s ≠ Status.created := by decide
  obtain ⟨payload, params, blob, index, -, -, -, -, hindex, -, -, hlast, -⟩ :=
    hok.prepared (hcreated _ hs)
  obtain ⟨txBlob, preparedTxBlob, v, -, -, -, hhash, -⟩ := hok.signed (.inl hs)
  have htells := ht _ hhash
  have here : Present P { s with hash := v.transactionHash, again := false } row :=
    ⟨h.ok, h.tidy, h.found⟩
  have applied {search : TxSearch}
      (hsearch : searched (script.about v.transactionHash).lookup = .ok search)
      (hgap : search ≠ .absent false)
      (hdecides : Decides P script (applySearch P row search n)
        { s with hash := v.transactionHash, again := false } row.id
        (∀ last, row.lastLedgerSequence = some last → last < n)) :
      Decides P script (resolveSigned P row n switchBudget) s row.id
        (∀ last, row.lastLedgerSequence = some last → last < n) := by
    unfold Decides
    rw [eval_resolveSigned hhash hindex hlast hagain hsearch hgap]
    exact hdecides.map _
  obtain hsearch | ⟨lookup, raw, hsearch, hv⟩ := htells.search
  · refine applied hsearch (by simp) ?_
    unfold applySearch
    rw [hlast]
    simp only [required, Prog.ret_bind, Bool.not_true, Bool.false_eq_true, if_false]
    split_ifs with hn
    · exact .pure _ _ _ fun hpast => by have := hpast _ rfl; omega
    · exact decides_applyProvenAbsent here hs (by omega) htells
  · exact applied hsearch (by simp) (decides_applyFound here hs hv raw)

/-- **An unsigned intent** is expired past its window, and kept before. -/
theorem decides_expireUnsigned (h : Present P s row) (hs : row.status ∈ unsignedActiveStatuses) :
    Decides P script (expireUnsigned row n) s row.id
      (∀ last, row.lastLedgerSequence = some last → last < n) := by
  have hcreated : ∀ s ∈ unsignedActiveStatuses, s ≠ Status.created := by decide
  obtain ⟨payload, params, blob, index, -, -, -, -, -, -, -, hlast, -⟩ :=
    (h.ok.rows row (Db.mem_of_find h.found)).prepared (hcreated _ hs)
  unfold expireUnsigned
  rw [hlast]
  simp only [required, Prog.ret_bind]
  split_ifs with hn
  · exact .pure _ _ _ fun hpast => by have := hpast _ rfl; omega
  · exact (decides_transition h hs (canTransition_reconciled _ _ (.inr ⟨hs, rfl⟩))
      ⟨rfl, rfl, rfl, rfl, rfl⟩).map _

/-- **One intent of the loop.** -/
theorem decides_visit (h : Present P s row) (hs : row.status ∈ sequenceActiveStatuses)
    (hagain : s.again = false) (ht : row.status ∈ signedActiveStatuses →
      ∀ hash, row.transactionHash = some hash → script.Tells n hash) (switchBudget : ℕ) :
    Decides P script (visit P row n switchBudget) s row.id
      (∀ last, row.lastLedgerSequence = some last → last < n) := by
  have hgroups : ∀ s ∈ sequenceActiveStatuses, unsignedActiveStatuses.contains s = false →
      s ∈ signedActiveStatuses := by decide
  unfold visit
  split_ifs with hunsigned hsigned
  · exact (decides_expireUnsigned h (by simpa using hunsigned)).map _
  · have hmem : row.status ∈ signedActiveStatuses := by simpa using hsigned
    exact (decides_resolveSigned h hmem hagain (ht hmem) switchBudget).map _
  · exact absurd (hgroups _ hs (by simpa using hunsigned)) (by simpa using hsigned)

end Visit

/-! ## Cycles in flight -/

/-- The state with other flags than those that completed cycles have set. -/
def State.flagged (s : State) (recovered degraded : Bool) : State := { s with recovered, degraded }

def Scene.flagged (s : Scene) (recovered degraded : Bool) : Scene :=
  { s with state := s.state.flagged recovered degraded }

/-- The operations that neither read nor set a flag. -/
def Op.flagless : Op → Prop
  | .recovered | .completeCycle _ => False
  | _ => True

section Flags

variable {P : Platform} {script : Script} {s : State} {n : ℕ} {recovered degraded : Bool}

theorem react_flagged {op : Op} (hop : op.flagless) (scene : Scene) :
    (react P script scene op).1 = (react P script (scene.flagged recovered degraded) op).1 ∧
      (react P script (scene.flagged recovered degraded) op).2 =
        (react P script scene op).2.flagged recovered degraded := by
  cases op with
  | recovered | completeCycle => cases hop
  | send q => cases q <;> exact ⟨rfl, rfl⟩
  | receive q => cases q <;> exact ⟨rfl, rfl⟩
  | _ => exact ⟨rfl, rfl⟩

theorem flagless_resolving (row : IntentRow) : Resolving Op.flagless row where
  send _ _ := trivial
  receive _ _ := trivial
  now := trivial
  transition _ _ := trivial
  switchEndpoint _ := trivial

/-- **A cycle that completes** sets both flags, and reads neither. -/
theorem cycled_flagged (hledger : script.currentLedger = .ok n)
    (hok : ((walk P n (s.db.findByStatuses sequenceActiveStatuses) 1 false).eval (react P script)
      ⟨s, "", false⟩).1.isOk = true) :
    cycled P script (s.flagged recovered degraded) = cycled P script s := by
  have hread (s : State) : validatedLedgerIndex.eval (react P script) ⟨s, "", false⟩ =
      (.ok n, ⟨s, "", false⟩) := hledger ▸ eval_validatedLedgerIndex _
  have hrows (s : State) : (findByStatuses sequenceActiveStatuses).eval (react P script)
      ⟨s, "", false⟩ = (.ok (s.db.findByStatuses sequenceActiveStatuses), ⟨s, "", false⟩) := rfl
  have hperforms : (walk P n (s.db.findByStatuses sequenceActiveStatuses) 1 false).Performs
      Op.flagless :=
    performs_walk n (fun row _ _ => flagless_resolving row) (fun _ _ _ _ => trivial) 1 false
  have hreact (scene scene' : Scene) (op : Op) (hop : op.flagless)
      (h : scene' = scene.flagged recovered degraded) :
      (react P script scene op).1 = (react P script scene' op).1 ∧
        (react P script scene' op).2 =
          (react P script scene op).2.flagged recovered degraded :=
    h ▸ react_flagged hop scene
  have hflags : (⟨s.flagged recovered degraded, "", false⟩ : Scene) =
      (⟨s, "", false⟩ : Scene).flagged recovered degraded := rfl
  have hwalk := Prog.eval_related hreact hperforms hflags
  rw [cycled_eq, cycled_eq, cyclePass, Prog.eval_bind_ok (hread _), Prog.eval_bind_ok (hrows _),
    Prog.eval_bind_ok (hread _), Prog.eval_bind_ok (hrows _)]
  cases he : (walk P n (s.db.findByStatuses sequenceActiveStatuses) 1 false).eval (react P script)
    ⟨s, "", false⟩ with
  | mk result scene =>
    rw [he] at hwalk hok
    cases result with
    | ok unprovable =>
      have he' : (walk P n ((s.flagged recovered degraded).db.findByStatuses
          sequenceActiveStatuses) 1 false).eval (react P script)
            ⟨s.flagged recovered degraded, "", false⟩ =
          (.ok unprovable, scene.flagged recovered degraded) := Prod.ext hwalk.1.symm hwalk.2
      rw [Prog.eval_bind_ok he', Prog.eval_bind_ok he]
      rfl
    | error e => cases hok

end Flags

/-- An outage: no endpoint answers, and no statement reaches the tables. -/
def outage : Op → Choice
  | .now => .time 0
  | .randomUUID => .uuid ""
  | .receive _ => .answer (.error .unavailable)
  | .switchEndpoint _ => .switched (.error .unavailable)
  | _ => .fault

section Outage

variable (P : Platform)

theorem isSome_outage (s : State) (op : Op) : (perform P s (outage op) op).isSome = true := by
  cases op <;> rfl

def reactOutage (s : State) (op : Op) : op.Ret × State :=
  (perform P s (outage op) op).get (isSome_outage P s op)

variable {P}

theorem exec_outage (s : State) (op : Op) :
    (system P).exec s op (reactOutage P s op).1 (reactOutage P s op).2 :=
  ⟨outage op, (Option.some_get _).symm⟩

/-- In an outage only the flags can change. -/
theorem reactOutage_flagged (s : State) (op : Op) :
    ∃ recovered degraded, (reactOutage P s op).2 = s.flagged recovered degraded := by
  cases op <;> exact ⟨_, _, rfl⟩

/-- **The cycles in flight can end** without touching the tables. -/
theorem cycles_end (k : Sys) : ∃ k' : Sys, Runs (system P) noStart k k' ∧
    k'.pool = k.pool.filter (fun t => t.label ≠ .cycle) ∧
    ∃ recovered degraded, k'.state = k.state.flagged recovered degraded := by
  refine exists_ended (I := fun s => ∃ recovered degraded, s = k.state.flagged recovered degraded)
    exec_outage (fun s op h => ?_) .cycle ⟨_, _, rfl⟩
  obtain ⟨recovered, degraded, rfl⟩ := h
  exact reactOutage_flagged (P := P) _ op

end Outage

/-! ## The whole cycle -/

section Cycle

variable {P : Platform} {script : Script} {n : ℕ}

/-- Intents whose answers decide them leave the loop to go on. -/
theorem budgetLeft_isSome {s : State} {rows : List IntentRow}
    (h : ∀ row ∈ rows, ∀ switchBudget, ∃ r, (alone P script s n switchBudget row).1 = .ok r)
    (switchBudget : ℕ) : (budgetLeft P script s n rows switchBudget).isSome = true := by
  induction rows generalizing switchBudget with
  | nil => rfl
  | cons row rows ih =>
    obtain ⟨r, hr⟩ := h row List.mem_cons_self switchBudget
    rw [budgetLeft_ok hr]
    exact ih (fun o ho => h o (List.mem_cons_of_mem _ ho)) r.2

section Settles

variable {s : State} {row : IntentRow} (hok : s.db.Ok P) (htidy : s.db.Tidy)
  (htells : ∀ row ∈ s.db.rows, row.status ∈ signedActiveStatuses →
    ∀ hash, row.transactionHash = some hash → script.Tells n hash)

include hok htidy htells

theorem decides_alone (hrow : row ∈ s.db.findByStatuses sequenceActiveStatuses)
    (switchBudget : ℕ) : Decides P script (visit P row n switchBudget) ⟨s, "", false⟩ row.id
      (∀ last, row.lastLedgerSequence = some last → last < n) := by
  obtain ⟨hmem, hstatus⟩ := Db.mem_findByStatuses hrow
  exact decides_visit ⟨hok, htidy, hok.ids row hmem⟩ hstatus rfl (htells row hmem) switchBudget

theorem alone_ok (hrow : row ∈ s.db.findByStatuses sequenceActiveStatuses) (switchBudget : ℕ) :
    ∃ r, (alone P script s n switchBudget row).1 = .ok r := by
  obtain ⟨r, s', he, -⟩ := decides_alone hok htidy htells hrow switchBudget
  exact ⟨r, congrArg Prod.fst he⟩

omit hok htells in
theorem nodup_findByStatuses (statuses : List Status) :
    ((s.db.findByStatuses statuses).map (·.id)).Nodup := by
  have hperm : (s.db.findByStatuses statuses).Perm
      (s.db.rows.filter fun r => statuses.contains r.status) := List.perm_insertionSort _ _
  exact ((hperm.map _).nodup_iff).mpr (htidy.distinct.sublist (List.filter_sublist.map _))

/-- **An active intent** comes out of the cycle as if it had been alone. -/
theorem cycled_alone (hledger : script.currentLedger = .ok n) (hmem : row ∈ s.db.rows)
    (hstatus : row.status ∈ sequenceActiveStatuses) : ∃ switchBudget,
    (cycled P script s).db.find row.id =
      (alone P script s n switchBudget row).2.db.find row.id := by
  have hrow : row ∈ s.db.findByStatuses sequenceActiveStatuses :=
    (List.perm_insertionSort _ _).mem_iff.mpr (List.mem_filter.mpr ⟨hmem, by simpa using hstatus⟩)
  obtain ⟨before, after, hsplit⟩ := List.append_of_mem hrow
  have hbefore : (budgetLeft P script s n before 1).isSome = true :=
    budgetLeft_isSome (fun o ho => alone_ok hok htidy htells (by simp [hsplit, ho])) 1
  obtain ⟨left, hleft⟩ := Option.isSome_iff_exists.mp hbefore
  obtain ⟨hrows, -⟩ := walk_isolated (P := P) (n := n)
    (nodup_findByStatuses htidy sequenceActiveStatuses)
    (fun row _ => ⟨rfl, htidy.distinct, rfl, rfl⟩) 1 false
  refine ⟨left, ?_⟩
  rw [(cycled_walk (P := P) hledger).1, hrows before row after hsplit, isolated, hleft]
  rfl

theorem walk_isOk : ((walk P n (s.db.findByStatuses sequenceActiveStatuses) 1 false).eval
    (react P script) ⟨s, "", false⟩).1.isOk = true := by
  obtain ⟨-, -, -, hends⟩ := walk_isolated (P := P) (n := n)
    (nodup_findByStatuses htidy sequenceActiveStatuses)
    (fun row _ => ⟨rfl, htidy.distinct, rfl, rfl⟩) 1 false
  exact hends.trans (budgetLeft_isSome (fun _ => alone_ok hok htidy htells) 1)

/-- **The cycle settles**, from any tables as they are in every run. -/
theorem cycled_settles (hledger : script.currentLedger = .ok n) :
    (cycled P script s).recovered = true ∧
    (∀ row ∈ s.db.rows, row.status ∈ sequenceActiveStatuses →
      (∀ last, row.lastLedgerSequence = some last → last < n) →
      (cycled P script s).Ended row.id) ∧
    ∀ id, (∀ row, s.db.find id = some row → row.status ∉ sequenceActiveStatuses) →
      (cycled P script s).db.find id = s.db.find id := by
  obtain ⟨hdb, hrec⟩ := cycled_walk (P := P) hledger
  obtain ⟨-, hothers, -⟩ := walk_isolated (P := P) (n := n)
    (nodup_findByStatuses htidy sequenceActiveStatuses)
    (fun row _ => ⟨rfl, htidy.distinct, rfl, rfl⟩) 1 false
  refine ⟨?_, fun row hmem hstatus hpast => ?_, fun id hid => ?_⟩
  · rw [hrec, walk_isOk hok htidy htells, Bool.or_true]
  · have hrow : row ∈ s.db.findByStatuses sequenceActiveStatuses :=
      (List.perm_insertionSort _ _).mem_iff.mpr (List.mem_filter.mpr ⟨hmem, by simpa using hstatus⟩)
    obtain ⟨left, hfinal⟩ := cycled_alone hok htidy htells hledger hmem hstatus
    obtain ⟨r, s', he, hended⟩ := decides_alone hok htidy htells hrow left
    obtain ⟨o, ho, hterminal⟩ := hended hpast
    have hsame : (alone P script s n left row).2.db.find row.id = s'.state.db.find row.id :=
      congrArg (fun out => out.2.state.db.find row.id) he
    exact ⟨o, (hfinal.trans hsame).trans ho, hterminal⟩
  · rw [hdb]
    refine hothers id fun hmem => ?_
    obtain ⟨row, hrow, rfl⟩ := List.mem_map.mp hmem
    obtain ⟨hmem, hstatus⟩ := Db.mem_findByStatuses hrow
    exact hid row (hok.ids row hmem) hstatus

end Settles

/-- **The scripted cycle happens in any configuration**, once the cycles in flight have ended. -/
theorem cycled_from {k : Sys} (hk : Reach (system P) anyStep k)
    (hledger : script.currentLedger = .ok n)
    (htells : ∀ row ∈ k.state.db.rows, row.status ∈ signedActiveStatuses →
      ∀ hash, row.transactionHash = some hash → script.Tells n hash) :
    ∃ k' : Sys, Runs (system P) (oneAtATime .cycle) k k' ∧
      k'.pool = k.pool.filter (fun t => t.label ≠ .cycle) ∧
      k'.state = cycled P script k.state := by
  obtain ⟨k₀, hended, hpool, recovered, degraded, hflags⟩ := cycles_end (P := P) k
  have hsame : cycled P script k₀.state = cycled P script k.state :=
    hflags ▸ cycled_flagged hledger (walk_isOk (reach_ok hk) (reach_tidy hk) htells)
  have hstart : Step (system P) k₀ (.start k₀.next .cycle)
      { k₀ with pool := k₀.pool ++ [⟨k₀.next, .cycle, handle P .cycle⟩], next := k₀.next + 1 } :=
    .start _ _
  have hidle : ∀ t ∈ k₀.pool, t.label ≠ .cycle := fun t ht => by
    rw [hpool] at ht
    exact of_decide_eq_true (List.mem_filter.mp ht).2
  have heval : (handle P .cycle).eval (react P script) ⟨k₀.state, "", false⟩ =
      (((cycle P).eval (react P script) ⟨k₀.state, "", false⟩).1.map fun _ => Reply.done,
        ((cycle P).eval (react P script) ⟨k₀.state, "", false⟩).2) := Prog.eval_map _ _ _
  obtain ⟨k₁, rest, hruns, hstate, hlast, hout⟩ := Prog.eval_runs (exec_react script)
    (handle P .cycle) ⟨k₀.state, "", false⟩
    (c := { k₀ with pool := k₀.pool ++ [⟨k₀.next, .cycle, handle P .cycle⟩], next := k₀.next + 1 })
    rfl rfl
  rw [heval] at hstate
  have quiet {c c' : Sys} (h : Runs (system P) noStart c c') :
      Runs (system P) (oneAtATime .cycle) c c' :=
    h.mono fun _ _ _ hno pid ha => absurd ha (hno pid _)
  refine ⟨_, (((quiet hended).step hstart fun _ _ => hidle).trans (quiet hruns)).step
    (.finish hlast hout) (by simp [oneAtATime]), ?_, hstate.trans hsame⟩
  exact (List.append_nil _).trans hpool

end Cycle

/-! ## From every configuration -/

/-- The answers of a ledger beyond every window: no transaction and no account is found. -/
def farScript (n : ℕ) : Script where
  ledger := .ok (.ok [("ledger_index", .num n), ("validated", .bool true)])
  about _ := {
    lookup := .ok (.error "txnNotFound" [("searched_all", .bool true)])
    switched := .ok ()
    again := .error .unavailable
    account := .ok (.error "actNotFound" [])
    finalizedAt := 0 }
  writtenAt _ := 0

theorem farScript_currentLedger {n : ℕ} (hn : (n : ℤ) ≤ maxSafeInteger) :
    (farScript n).currentLedger = .ok n := by
  have huint : uint (some (.num n)) "ledger.ledger_index" = .ok n := by
    simp [uint, hn]
  simp [Script.currentLedger, farScript, readLedgerIndex, call, parse, parseLedger, Record.get?,
    orElse, huint, Except.mapError, bind, Except.bind, pure, Except.pure]

theorem farScript_tells (n : ℕ) (hash : String) : (farScript n).Tells n hash where
  search := .inl rfl
  account := ⟨none, rfl, fun a h => by cases h⟩

/-- **A cycle that is told the outcomes settles.** In every configuration of every run, with answers
that decide every signed intent as of validated ledger `n`, one finality cycle completes, started
when those in flight have ended, so that the gate is open after it, and every intent whose window
ends before `n` is at its end after it. -/
theorem cycle_settles (P : Platform) (k : Sys) (hk : Reach (system P) anyStep k) (script : Script)
    (n : ℕ) (hledger : script.currentLedger = .ok n)
    (htells : ∀ row ∈ k.state.db.rows, row.status ∈ signedActiveStatuses →
      ∀ hash, row.transactionHash = some hash → script.Tells n hash) :
    ∃ k' : Sys, Runs (system P) (oneAtATime .cycle) k k' ∧
      k'.pool = k.pool.filter (fun t => t.label ≠ .cycle) ∧
      k'.state = cycled P script k.state ∧ k'.state.recovered = true ∧
      ∀ row ∈ k.state.db.rows, row.status ∈ sequenceActiveStatuses →
        (∀ last, row.lastLedgerSequence = some last → last < n) → k'.state.Ended row.id := by
  obtain ⟨k', hruns, hpool, hstate⟩ := cycled_from hk hledger htells
  obtain ⟨hrec, hended, -⟩ := cycled_settles (reach_ok hk) (reach_tidy hk) htells hledger
  exact ⟨k', hruns, hpool, hstate, hstate ▸ hrec, hstate ▸ hended⟩

/-- A signed intent, ledger 30 after the end of its window, and its transaction is nowhere. -/
theorem cycle_settles_signed : ∃ (k k' : Sys) (row : IntentRow), row ∈ k.state.db.rows ∧
    row.status = .signed ∧ Runs (system Sample.platform) (oneAtATime .cycle) k k' ∧
    k'.state.recovered = true ∧ k'.state.Ended row.id := by
  obtain ⟨k, -, hk, hφ⟩ := exists_of_play Sample.platform anyStep [] (Sample.signedIntent 3)
    (fun k => k.state.db.rows.any fun r => r.status = .signed && r.lastLedgerSequence = some 23)
    (by decide +kernel)
  obtain ⟨row, hrow, hboth⟩ := List.any_eq_true.mp hφ
  obtain ⟨hsigned, hlast⟩ := Bool.and_eq_true_iff.mp hboth
  obtain ⟨k', hruns, -, -, hrec, hended⟩ := cycle_settles Sample.platform k hk (farScript 30) 30
    (farScript_currentLedger (by decide)) fun _ _ _ hash _ => farScript_tells 30 hash
  refine ⟨k, k', row, hrow, of_decide_eq_true hsigned, hruns, hrec, hended row hrow ?_ ?_⟩
  · rw [of_decide_eq_true hsigned]
    decide
  · rintro last h
    cases h.symm.trans (of_decide_eq_true hlast)
    decide

/-- **No account stays blocked.** From every configuration of every run, whatever calls are in
flight, the service can go on, by the end of the cycles in flight and one more finality cycle, to a
configuration in which the gate is open and no intent holds the Sequence of its account: no intent
waits for its end for ever. (Every window ends before the last ledger index that an answer can
hold.) -/
theorem accounts_released (P : Platform) (k : Sys) (hk : Reach (system P) anyStep k)
    (hwindow : ∀ row ∈ k.state.db.rows, ∀ last, row.lastLedgerSequence = some last →
      (last : ℤ) < maxSafeInteger) :
    ∃ k' : Sys, Runs (system P) (oneAtATime .cycle) k k' ∧
      k'.pool = k.pool.filter (fun t => t.label ≠ .cycle) ∧ k'.state.recovered = true ∧
      ∀ row ∈ k'.state.db.rows, row.status ∉ sequenceActiveStatuses := by
  have hpast : ∀ row ∈ k.state.db.rows, ∀ last, row.lastLedgerSequence = some last →
      last < maxSafeInteger.toNat := fun row hrow last hlast => by
    have := hwindow row hrow last hlast
    omega
  have hledger : (farScript maxSafeInteger.toNat).currentLedger = .ok maxSafeInteger.toNat :=
    farScript_currentLedger (by decide)
  obtain ⟨k', hruns, hpool, hstate⟩ := cycled_from (P := P) hk hledger
    fun _ _ _ hash _ => farScript_tells _ hash
  obtain ⟨hrec, hended, hkept⟩ := cycled_settles (reach_ok hk) (reach_tidy hk)
    (fun _ _ _ hash _ => farScript_tells _ hash) hledger
  refine ⟨k', hruns, hpool, hstate ▸ hrec, fun row hrow hactive => ?_⟩
  have hfound := (reach_ok (hk.runs hruns.any)).ids row hrow
  rw [hstate] at hfound
  cases hbefore : k.state.db.find row.id with
  | none =>
    rw [hkept row.id (fun o ho => by cases hbefore.symm.trans ho), hbefore] at hfound
    cases hfound
  | some o =>
    have hid := Db.find_id hbefore
    by_cases hstatus : o.status ∈ sequenceActiveStatuses
    · have ho := Db.mem_of_find hbefore
      obtain ⟨r, hr, hterminal⟩ := hended o ho hstatus (hpast o ho)
      rw [hid, hfound] at hr
      cases hr
      have hno : ∀ s ∈ sequenceActiveStatuses, isTerminal s = false := by decide
      cases hterminal.symm.trans (hno _ hactive)
    · rw [hkept row.id fun r hr => Option.some.inj (hbefore.symm.trans hr) ▸ hstatus,
        hbefore] at hfound
      cases hfound
      exact hstatus hactive

/-- The account of a signed intent is released. -/
theorem accounts_released_signed : ∃ k k' : Sys,
    (k.state.db.rows.any fun r => r.status = .signed) = true ∧
    Runs (system Sample.platform) (oneAtATime .cycle) k k' ∧
    ∀ row ∈ k'.state.db.rows, row.status ∉ sequenceActiveStatuses := by
  obtain ⟨k, -, hk, hφ⟩ := exists_of_play Sample.platform anyStep [] (Sample.signedIntent 3)
    (fun k => (k.state.db.rows.any fun r => r.status = .signed) && k.state.db.rows.all fun r =>
      r.lastLedgerSequence.all fun last : ℕ => decide ((last : ℤ) < maxSafeInteger))
    (by decide +kernel)
  obtain ⟨hsigned, hall⟩ := Bool.and_eq_true_iff.mp hφ
  obtain ⟨k', hruns, -, -, hreleased⟩ := accounts_released Sample.platform k hk
    fun row hrow last hlast => by
      have hbound := (List.all_eq_true.mp hall) row hrow
      rw [hlast, Option.all_some] at hbound
      simpa using hbound
  exact ⟨k, k', hsigned, hruns, hreleased⟩

end Orchestrator
