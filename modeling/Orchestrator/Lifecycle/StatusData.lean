import Orchestrator.Lifecycle.InternalErrors

/-!
# The status determines the data

* `IntentRow.StatusData`: the columns that are set, and those that are not, in each status;
* `reach_rejected`, `reach_submitted`: an intent is rejected after its simulation, and a submitted
  one has an engine result;
* `IntentRow.Le.engineResult`: the engine result of an earlier version;
* `Outside`, `Caught`: where the text of an error comes from, and what the `try` of a cycle saw;
* **`status_determines_data`**.
-/

namespace Orchestrator

open Interleave

/-- Statuses that only a simulated intent has. -/
def simulatedStatuses : List Status :=
  [.simulated, .awaitingSignature, .signed, .submitted, .validated, .rejected]

/-- Statuses that only an intent has whose simulation passed. -/
def passedStatuses : List Status := [.awaitingSignature, .signed, .submitted, .validated]

/-- The columns in each status. -/
structure IntentRow.StatusData (r : IntentRow) : Prop where
  created : r.status = .created →
    r.preparedColumns = (none, none, none, none, none, none, none) ∧
    r.simulationColumns = (none, none, none) ∧ r.signedColumns = (none, none, none, none) ∧
    r.submissionColumns = (0, none, none, none, none, none) ∧
    r.finalColumns = (none, none, none, none, none, none)
  prepared : r.status ≠ .created → r.preparedTxJson.isSome ∧ r.preparedTxBlob.isSome ∧
    r.preparedLedgerIndex.isSome ∧ r.sequence.isSome ∧ r.feeDrops.isSome ∧
    r.lastLedgerSequence.isSome ∧ r.preparedAt.isSome
  simulated : r.status ∈ simulatedStatuses → r.simulationEngineResult.isSome
  passed : r.status ∈ passedStatuses → r.simulationEngineResult = some "tesSUCCESS"
  signed : r.status ∈ signedActiveStatuses ∨ r.status = .validated →
    r.signedTxBlob.isSome ∧ r.transactionHash.isSome ∧ r.signingPubKey.isSome ∧ r.signedAt.isSome
  finalResult : r.finalResult.isSome ↔ r.status = .validated
  failureCode : r.failureCode.isSome ↔ r.status = .failed

section Rows

variable {P : Platform} {r r' : IntentRow}

theorem IntentRow.Ok.engineResult_of_passed (hok : r.Ok P) (hs : r.status ∈ passedStatuses) :
    r.simulationEngineResult = some "tesSUCCESS" := by
  have hall : ∀ s ∈ passedStatuses,
      s = .awaitingSignature ∨ s ∈ signedActiveStatuses ∨ s = .validated := by decide
  exact hok.passed (hall _ hs)

theorem IntentRow.Ok.statusData (hok : r.Ok P)
    (hrejected : r.status = .rejected → r.simulationEngineResult.isSome) : r.StatusData where
  created hs := ⟨hok.unprepared hs, hok.unsimulated (.inl hs), (hok.unsigned (.inl hs)).1,
    (hok.unsigned (.inl hs)).2, (hok.unsettled (by rw [hs]; decide)).1⟩
  prepared hs := hok.isSome_prepared hs
  simulated hs := by
    have hall : ∀ s ∈ simulatedStatuses, s = .simulated ∨ s ∈ passedStatuses ∨ s = .rejected := by
      decide
    rcases hall _ hs with hs | hs | hs
    · exact hok.simulated hs
    · rw [hok.engineResult_of_passed hs]
      rfl
    · exact hrejected hs
  passed hs := hok.engineResult_of_passed hs
  signed hs := hok.isSome_signed hs
  finalResult := hok.validated
  failureCode := hok.failed

/-- From `SIMULATED` on the engine result stays, and from `AWAITING_SIGNATURE` on it is
`tesSUCCESS`, also in an intent that expires, fails or is rejected later. -/
theorem IntentRow.Le.engineResult (hle : r.Le r') (hok : r.Ok P) :
    (r.status ∈ simulatedStatuses → r'.simulationEngineResult = r.simulationEngineResult) ∧
    (r.status ∈ passedStatuses → r'.simulationEngineResult = some "tesSUCCESS") := by
  have hall : ∀ s, s ∈ simulatedStatuses ∨ s ∈ passedStatuses → s ≠ .created ∧ s ≠ .prepared := by
    decide
  have hkept (hs : r.status ∈ simulatedStatuses ∨ r.status ∈ passedStatuses) :
      r'.simulationEngineResult = r.simulationEngineResult :=
    IntentRow.engine_of_simulationColumns (hle.simulation (hall _ hs).1 (hall _ hs).2).symm
  exact ⟨fun hs => hkept (.inl hs),
    fun hs => (hkept (.inr hs)).trans (hok.engineResult_of_passed hs)⟩

end Rows

section Runs

variable {P : Platform} {ok : StepCond Op Op.Ret Failure Reply Call State} {k : Sys}

/-- **In every run**, a rejected intent has been simulated. -/
theorem reach_rejected (hk : Reach (system P) ok k) :
    ∀ r ∈ k.state.db.rows, r.status = .rejected → r.simulationEngineResult.isSome := by
  refine reach_rows (fun _ r => r.status = .rejected → r.simulationEngineResult.isSome) hk
    (fun hr _ => hr) (fun _ r hst _ hs => ?_) (fun hr hcur _ _ hm hfrom _ hs => ?_)
    fun hr _ _ _ ht _ hs => ?_
  · cases hst.symm.trans hs
  · cases hm with
    | simulationRejected =>
      exact hcur.simulated (List.mem_singleton.mp hfrom)
    | malformed =>
      have hst := List.mem_singleton.mp hfrom
      have hpassed := hcur.engineResult_of_passed (by rw [hst]; decide)
      exact Option.isSome_of_mem hpassed
    | _ => cases hs
  · cases ht <;> exact hr hs

/-- **In every run**, a submitted intent has the engine result of its last recorded submission. -/
theorem reach_submitted (hk : Reach (system P) ok k) :
    ∀ r ∈ k.state.db.rows, r.status = .submitted → r.submitEngineResult.isSome := by
  refine reach_rows (fun _ r => r.status = .submitted → r.submitEngineResult.isSome) hk
    (fun hr _ => hr) (fun _ r hst _ hs => ?_) (fun _ _ _ _ hm _ _ hs => ?_)
    fun hr _ _ _ ht _ hs => ?_
  · cases hst.symm.trans hs
  · cases hm with
    | submitted => rfl
    | _ => cases hs
  · cases ht with
    | resubmitted => rfl
    | _ => exact hr hs

variable (P k) in
/-- The text `m` was raised by the codec, or by the connection in a reply to call `pid`. -/
def Outside (pid : ℕ) (m : String) : Prop :=
  (∃ e ∈ own pid k.log, raises e.op e.ret = some m) ∨ P.Raises m

variable (P k) in
/-- The `try` block of cycle `pid` has ended with the error `e`. -/
def Caught (pid : ℕ) (e : Failure) : Prop :=
  ∃ tr, own pid k.log = tr.map (Done.entry pid .cycle) ∧
    Trace (system P) (cyclePass P) tr (.fail e)

/-- If such a text did not come from outside, every reply to the call clears it. -/
theorem clears_of_not_outside (hk : Reach (system P) ok k) {pid : ℕ} {m : String}
    (hm : Inconsistent m) (hout : ¬ Outside P k pid m) :
    ∀ e ∈ own pid k.log, Clears P m e.op e.ret := fun e he =>
  hm.clears (reach_replies hk e (List.mem_of_mem_filter he)) fun hr => hout (.inl ⟨e, he, hr⟩)

end Runs

/-- **The status determines the data.** In every run, every row has the columns its status stands
for; a row that was simulated has kept its engine result, `tesSUCCESS` if it ever awaited a
signature; and no call ends, and no cycle is cut short, with an error of inconsistent data, unless
the codec or the connection raised an error of that text. -/
theorem status_determines_data (P : Platform) (hjson : P.JsonbPreserves) (k₀ k : Sys)
    (h₀ : Reach (system P) anyStep k₀) (hr : Runs (system P) anyStep k₀ k) :
    (∀ row ∈ k.state.db.rows, row.StatusData) ∧
    (∀ row₀ ∈ k₀.state.db.rows, ∃ row, k.state.db.find row₀.id = some row ∧
      (row₀.status ∈ simulatedStatuses →
        row.simulationEngineResult = row₀.simulationEngineResult) ∧
      (row₀.status ∈ passedStatuses → row.simulationEngineResult = some "tesSUCCESS")) ∧
    ∀ pid m, Inconsistent m →
      (∀ l k', Step (system P) k (.finish pid l (.error (.internal m))) k' → Outside P k pid m) ∧
      (Caught P k pid (.internal m) → Outside P k pid m) := by
  have hk := h₀.runs hr
  refine ⟨fun row hrow => ?_, fun row₀ hrow₀ => ?_, fun pid m hm => ⟨fun l k' hs => ?_, ?_⟩⟩
  · exact ((reach_ok hk).rows row hrow).statusData (reach_rejected hk row hrow)
  · obtain ⟨row, hf, hle⟩ := (runs_rely h₀ hr).1 row₀.id row₀ ((reach_ok h₀).ids row₀ hrow₀)
    exact ⟨row, hf, hle.engineResult ((reach_ok h₀).rows row₀ hrow₀)⟩
  · by_contra hout
    have hbody (l : Call) : ((system P).body l).Given (Clears P m)
        (Clean (· = .internal m) fun _ => True) :=
      avoids_handle hjson (fun hP => hout (.inr hP)) l fun id _ => hm.ne_didNotSettle id
    exact hk.outcome hbody hs (clears_of_not_outside hk hm hout) rfl
  · rintro ⟨tr, hown, htrace⟩
    by_contra hout
    refine (avoids_cyclePass (P := P)).trace htrace (fun d hd => ?_) rfl
    exact clears_of_not_outside hk hm hout (d.entry pid .cycle) (hown ▸ List.mem_map_of_mem hd)

/-- An intent that awaits its signature expires: its engine result stays. -/
theorem status_determines_data_expired : ∃ (k₀ k : Sys) (row₀ row : IntentRow),
    k₀.state.db.find "i5" = some row₀ ∧ row₀.status = .awaitingSignature ∧
    k.state.db.find "i5" = some row ∧ row.status = .expired ∧ row.StatusData ∧
    row.simulationEngineResult = some "tesSUCCESS" := by
  obtain ⟨k₀, k, h₀, hr, hφ⟩ := exists_runs_of_play Sample.platform anyStep []
    (Sample.recovered 0 3 ++ Sample.created 1 "i5" ++ Sample.prepared 2 "i5" 5 3)
    ([.start .cycle] ++ Sample.told 3 (Sample.ledgerAnswer 24) ++ Sample.tick 3 3)
    (fun k₀ k => ((k₀.state.db.find "i5").any fun row => row.status = .awaitingSignature) &&
      (k.state.db.find "i5").any fun row => row.status = .expired) (by decide +kernel)
  obtain ⟨hfirst, hlast⟩ := Bool.and_eq_true_iff.mp hφ
  obtain ⟨row₀, hf₀, hst₀⟩ := (Option.any_eq_true _ _).mp hfirst
  obtain ⟨row, hf, hst⟩ := (Option.any_eq_true _ _).mp hlast
  have hst₀ : row₀.status = .awaitingSignature := of_decide_eq_true hst₀
  obtain ⟨hdata, hpath, -⟩ :=
    status_determines_data Sample.platform Sample.jsonbPreserves k₀ k h₀ hr
  obtain ⟨row', hf', -, hpassed⟩ := hpath row₀ (Db.mem_of_find hf₀)
  rw [Db.find_id hf₀, hf] at hf'
  obtain rfl := Option.some.inj hf'
  exact ⟨k₀, k, row₀, row, hf₀, hst₀, hf, of_decide_eq_true hst, hdata row (Db.mem_of_find hf),
    hpassed (by rw [hst₀]; decide)⟩

end Orchestrator
