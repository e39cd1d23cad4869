import Orchestrator.Lifecycle.Audit

/-!
# Frozen artifacts

The prepared, the simulation and the signed columns of an intent are each written by one kind of
move. Its statuses are left for good, so that it is made once.

* `Artifact`: a group of columns, and the statuses before it is written;
* `Move.writes_before`: such a write leads out of them;
* **`reach_once`**: the columns are named by at most one write;
* `IntentRow.Keeps`: no column that is set is set to another value;
* **`artifacts_frozen`**.
-/

namespace Orchestrator

open Interleave

/-- A group of columns that are written together: whether a patch names one of them, and the
statuses in which they are not written yet. -/
structure Artifact where
  names : IntentPatch → Bool
  before : List Status

def preparedArtifact : Artifact where
  names p := p.preparedTxJson.isSome || p.preparedTxBlob.isSome || p.preparedLedgerIndex.isSome ||
    p.sequence.isSome || p.feeDrops.isSome || p.lastLedgerSequence.isSome
  before := [.created]

def simulationArtifact : Artifact where
  names p := p.simulationEngineResult.isSome || p.simulationResult.isSome || p.simulatedAt.isSome
  before := [.created, .prepared]

def signedArtifact : Artifact where
  names p := p.signedTxBlob.isSome || p.transactionHash.isSome || p.signingPubKey.isSome
  before := [.created, .prepared, .simulated, .awaitingSignature]

def artifacts : List Artifact := [preparedArtifact, simulationArtifact, signedArtifact]

/-- The entry is a statement that has set a column of the artifact of intent `id`. -/
def Artifact.writes (g : Artifact) (id : String) : Entry Op Op.Ret Call → Bool
  | ⟨_, _, .transition id' request, .ok (some _)⟩ => id' = id && g.names request.patch
  | ⟨_, _, .updateInStatus id' _ patch, .ok (some _)⟩ => id' = id && g.names patch
  | _ => false

section Writes

variable {P : Platform} {h : History} {pid : ℕ} {l : Call} {c : IntentRow} {g : Artifact}

/-- The statuses before an artifact is written are not come back to. -/
theorem Artifact.left_for_good (hg : g ∈ artifacts) {s t : Status} (hl : s.Leads t)
    (hs : s ∉ g.before) : t ∉ g.before := by
  have hall : ∀ before ∈ artifacts.map (·.before), ∀ s t : Status, s.Leads t → s ∉ before →
      t ∉ before := by decide
  exact hall g.before (List.mem_map_of_mem hg) s t hl hs

/-- **A move that writes an artifact** leads from before it to after it. -/
theorem Move.writes_before (hg : g ∈ artifacts) {request : TransitionRequest}
    (hm : Move P h pid l c request) (hn : g.names request.patch = true) :
    (∀ s ∈ request.fromStatuses, s ∈ g.before) ∧ request.toStatus ∉ g.before := by
  simp only [artifacts, List.mem_cons, List.not_mem_nil, or_false] at hg
  rcases hg with rfl | rfl | rfl
  · cases hm with
    | prepared => exact ⟨fun s hs => hs, show Status.prepared ∉ preparedArtifact.before by decide⟩
    | _ => cases hn
  · have hfrom : ∀ s ∈ [Status.prepared], s ∈ simulationArtifact.before := by decide
    cases hm with
    | mismatch => exact ⟨hfrom, show Status.failed ∉ simulationArtifact.before by decide⟩
    | simulated => exact ⟨hfrom, show Status.simulated ∉ simulationArtifact.before by decide⟩
    | _ => cases hn
  · have hfrom : ∀ s ∈ [Status.awaitingSignature], s ∈ signedArtifact.before := by decide
    cases hm with
    | signed => exact ⟨hfrom, show Status.signed ∉ signedArtifact.before by decide⟩
    | _ => cases hn

theorem Touch.writes_nothing (hg : g ∈ artifacts) {statuses : List Status} {patch : IntentPatch}
    (ht : Touch h pid l c statuses patch) : g.names patch = false := by
  simp only [artifacts, List.mem_cons, List.not_mem_nil, or_false] at hg
  rcases hg with rfl | rfl | rfl <;> cases ht <;> rfl

end Writes

section Runs

variable {P : Platform} {ok : StepCond Op Op.Ret Failure Reply Call State} {k k' : Sys}
  {a : Act Op Op.Ret Failure Reply Call} {g : Artifact} {id : String}

/-- How often the artifact can have been written: not before it, once after it. -/
def Artifact.written (g : Artifact) (db : Db) (id : String) : ℕ :=
  if (db.find id).all fun row => g.before.contains row.status then 0 else 1

theorem Artifact.written_mono (hg : g ∈ artifacts) (hk : Reach (system P) ok k)
    (hs : Step (system P) k a k') : g.written k.state.db id ≤ g.written k'.state.db id := by
  unfold Artifact.written
  cases hf : k.state.db.find id with
  | none => simp
  | some row =>
    obtain ⟨row', hf', hle⟩ := step_le hk hs hf
    rw [hf']
    by_cases hb : row.status ∈ g.before
    · simp [hb]
    · simp [hb, g.left_for_good hg hle.leads hb]

/-- **The step that writes an artifact** finds it unwritten. -/
theorem step_writes (hg : g ∈ artifacts) (hk : Reach (system P) ok k) {pid : ℕ} {l : Call} {op : Op}
    {r : op.Ret} (hs : Step (system P) k (.op pid l op r) k')
    (hw : g.writes id ⟨pid, l, op, r⟩ = true) :
    g.written k.state.db id = 0 ∧ g.written k'.state.db id = 1 := by
  obtain ⟨hp, hx, -⟩ := reach_permit hk hs
  unfold Artifact.writes at hw
  split at hw
  · next request row he =>
    cases he
    obtain ⟨hid, hn⟩ := Bool.and_eq_true_iff.mp hw
    obtain rfl := of_decide_eq_true hid
    obtain ⟨c, hc, rfl, hm⟩ := hp
    obtain ⟨hfrom, hto⟩ := hm.writes_before hg hn
    rcases transition_step (reach_ok hk) hc hm hx with
      ⟨-, hnone, -⟩ | ⟨cur, t, hf, -, hst, -, -, -, hle, -, hst'⟩
    · exact absurd rfl (hnone row)
    · have hf' : k'.state.db.find c.id = some (request.updated P t cur) := by
        rw [hst']
        exact (Db.find_written hf hle c.id).trans (if_pos rfl)
      have hnot : (request.updated P t cur).status ∉ g.before := hto
      rw [Artifact.written, Artifact.written, hf, hf']
      exact ⟨by simp [hfrom _ hst], by simp [hnot]⟩
  · next patch row he =>
    cases he
    obtain ⟨-, hn⟩ := Bool.and_eq_true_iff.mp hw
    obtain ⟨c, -, -, ht⟩ := hp
    cases hn.symm.trans (ht.writes_nothing hg)
  · cases hw

/-- **In every run**, an artifact is written at most once. -/
theorem reach_once (hg : g ∈ artifacts) (hk : Reach (system P) ok k) (id : String) :
    k.log.countP (g.writes id) ≤ g.written k.state.db id := by
  refine hk.inv (P := fun k => k.log.countP (g.writes id) ≤ g.written k.state.db id)
    (fun s hs => ?_) fun k a k' hk ih hs _ => ?_
  · exact Nat.zero_le _
  have hmono : g.written k.state.db id ≤ g.written k'.state.db id := g.written_mono hg hk hs
  rcases step_log hs with hlog | ⟨pid, l, op, r, rfl, hlog⟩
  · rw [hlog]
    exact ih.trans hmono
  rw [hlog, List.countP_append, List.countP_singleton]
  split_ifs with hw
  · obtain ⟨h0, h1⟩ := step_writes hg hk hs hw
    omega
  · exact ih.trans hmono

/-- What is set stays as it is. -/
def Kept {α : Type} (a b : Option α) : Prop := ∀ v, a = some v → b = some v

theorem Kept.of_eq {α : Type} {a b : Option α} (h : a = b) : Kept a b := fun _ hv => h ▸ hv

theorem Kept.of_none {α : Type} {a b : Option α} (h : a = none) : Kept a b :=
  fun _ hv => nomatch h.symm.trans hv

/-- No prepared, simulation or signed column that is set is set to another value. -/
structure IntentRow.Keeps (r r' : IntentRow) : Prop where
  preparedTxJson : Kept r.preparedTxJson r'.preparedTxJson
  preparedTxBlob : Kept r.preparedTxBlob r'.preparedTxBlob
  preparedLedgerIndex : Kept r.preparedLedgerIndex r'.preparedLedgerIndex
  sequence : Kept r.sequence r'.sequence
  feeDrops : Kept r.feeDrops r'.feeDrops
  lastLedgerSequence : Kept r.lastLedgerSequence r'.lastLedgerSequence
  simulationEngineResult : Kept r.simulationEngineResult r'.simulationEngineResult
  simulationResult : Kept r.simulationResult r'.simulationResult
  simulatedAt : Kept r.simulatedAt r'.simulatedAt
  signedTxBlob : Kept r.signedTxBlob r'.signedTxBlob
  transactionHash : Kept r.transactionHash r'.transactionHash
  signingPubKey : Kept r.signingPubKey r'.signingPubKey

/-- A later version keeps them: each group is null, or it is the same. -/
theorem IntentRow.Le.keeps {r r' : IntentRow} (hle : r.Le r') (hok : r.Ok P) : r.Keeps r' := by
  have hprep : r.preparedColumns = (none, none, none, none, none, none, none) ∨
      r.preparedColumns = r'.preparedColumns := by
    by_cases hc : r.status = .created
    · exact .inl (hok.unprepared hc)
    · exact .inr (hle.prepared hc)
  have hsim : r.simulationColumns = (none, none, none) ∨
      r.simulationColumns = r'.simulationColumns := by
    by_cases hc : r.status = .created ∨ r.status = .prepared
    · exact .inl (hok.unsimulated hc)
    · exact .inr (hle.simulation (fun h => hc (.inl h)) fun h => hc (.inr h))
  have hsig : r.signedColumns = (none, none, none, none) ∨ r.signedColumns = r'.signedColumns := by
    by_cases hc : r.status = .created ∨ r.status ∈ unsignedActiveStatuses
    · exact .inl (hok.unsigned hc).1
    · exact .inr (hle.signed (fun h => hc (.inl h)) fun h => hc (.inr h))
  simp only [preparedColumns, simulationColumns, signedColumns, Prod.mk.injEq] at hprep hsim hsig
  have hkept : ∀ {α : Type} {a b : Option α}, a = none ∨ a = b → Kept a b :=
    fun h => h.elim .of_none .of_eq
  exact ⟨hkept (hprep.imp (·.1) (·.1)), hkept (hprep.imp (·.2.1) (·.2.1)),
    hkept (hprep.imp (·.2.2.1) (·.2.2.1)), hkept (hprep.imp (·.2.2.2.1) (·.2.2.2.1)),
    hkept (hprep.imp (·.2.2.2.2.1) (·.2.2.2.2.1)), hkept (hprep.imp (·.2.2.2.2.2.1) (·.2.2.2.2.2.1)),
    hkept (hsim.imp (·.1) (·.1)), hkept (hsim.imp (·.2.1) (·.2.1)), hkept (hsim.imp (·.2.2) (·.2.2)),
    hkept (hsig.imp (·.1) (·.1)), hkept (hsig.imp (·.2.1) (·.2.1)),
    hkept (hsig.imp (·.2.2.1) (·.2.2.1))⟩

/-- A step adds nothing to the trail of an intent in a terminal status. -/
theorem step_trail_of_isTerminal (hs : Step (system P) k a k') {row : IntentRow}
    (hf : k.state.db.find id = some row) (ht : isTerminal row.status = true) :
    k'.state.db.trail id = k.state.db.trail id := by
  cases step_trail hs id with
  | kept htrail => exact htrail
  | created hno => cases hno.symm.trans hf
  | moved hf' _ _ _ hcan =>
    obtain rfl := Option.some.inj (hf.symm.trans hf')
    have hall : ∀ s t : Status, isTerminal s = true → canTransition s t = false := by decide
    cases hcan.symm.trans (hall _ _ ht)

/-- **After the end nothing changes**, neither the row nor its trail. -/
theorem runs_of_isTerminal (hk : Reach (system P) ok k) (hruns : Runs (system P) ok k k')
    {row : IntentRow} (hf : k.state.db.find id = some row) (ht : isTerminal row.status = true) :
    k'.state.db.find id = some row ∧ k'.state.db.trail id = k.state.db.trail id := by
  induction hruns with
  | refl => exact ⟨hf, rfl⟩
  | step hr hs _ ih =>
    obtain ⟨hf', htrail⟩ := ih
    obtain ⟨row', hf'', hle⟩ := step_le (hk.runs hr) hs hf'
    exact ⟨hle.eq_of_isTerminal ht ▸ hf'', (step_trail_of_isTerminal hs hf' ht).trans htrail⟩

end Runs

/-- **Frozen artifacts.** Over every run, the prepared, the simulation and the signed columns of an
intent are each written at most once; none of them that is set ever changes; and once an intent is
`VALIDATED`, `REJECTED`, `EXPIRED` or `FAILED`, its row stays as it is and its audit trail ends. -/
theorem artifacts_frozen (P : Platform) (k : Sys) (hk : Reach (system P) anyStep k) (id : String) :
    (∀ g ∈ artifacts, k.log.countP (g.writes id) ≤ 1) ∧
    ∀ row, k.state.db.find id = some row → ∀ k', Runs (system P) anyStep k k' →
      (∃ row', k'.state.db.find id = some row' ∧ row.Keeps row') ∧
      (isTerminal row.status = true →
        k'.state.db.find id = some row ∧ k'.state.db.trail id = k.state.db.trail id) := by
  refine ⟨fun g hg => ?_, fun row hf k' hruns => ⟨?_, fun ht => runs_of_isTerminal hk hruns hf ht⟩⟩
  · refine (reach_once hg hk id).trans ?_
    unfold Artifact.written
    split_ifs <;> decide
  · obtain ⟨row', hf', hle⟩ := (runs_rely hk hruns).1 id row hf
    exact ⟨row', hf', hle.keeps (reach_row hk hf)⟩

/-- A submission is answered after its intent was validated: the row stays as it is. -/
theorem artifacts_frozen_validated : ∃ (k : Sys) (row : IntentRow),
    k.state.db.find "i5" = some row ∧ row.status = .validated ∧
    (k.log.any fun e => e.label = .submit "i5" && e.op = .receive (.submit "05AB")) = true ∧
    (∀ g ∈ artifacts, k.log.countP (g.writes "i5") ≤ 1) ∧
    ∀ k', Runs (system Sample.platform) anyStep k k' → k'.state.db.find "i5" = some row := by
  obtain ⟨k, -, hk, hφ⟩ := exists_of_play Sample.platform anyStep []
    (Sample.signedIntent 3 ++ Sample.submitting 4 3 3 "tesSUCCESS" ++
      Sample.searched 5 4 (Sample.foundAnswer 5 4) ++ Sample.tick 5 3 ++ [.finish 5])
    (fun k => (k.log.any fun e => e.label = .submit "i5" && e.op = .receive (.submit "05AB")) &&
      (k.state.db.find "i5").any fun row => row.status = .validated) (by decide +kernel)
  obtain ⟨hsent, hrow⟩ := Bool.and_eq_true_iff.mp hφ
  obtain ⟨row, hf, hst⟩ := (Option.any_eq_true _ _).mp hrow
  have hst : row.status = .validated := of_decide_eq_true hst
  obtain ⟨honce, hkeep⟩ := artifacts_frozen Sample.platform k hk "i5"
  exact ⟨k, row, hf, hst, hsent, honce, fun k' hruns =>
    ((hkeep row hf k' hruns).2 (by rw [hst]; decide)).1⟩

end Orchestrator
