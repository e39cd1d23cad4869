import Orchestrator.Lifecycle.Artifact

/-!
# The baseline of the first submission

`submitSigned` stores the validated ledger when its copy of the row has none, with an update that
checks only the status. It is written once if no such update runs on a row that was given another
baseline, or that left `SIGNED` without one.

* `baselineOnce`: the runs in which no update does;
* `step_baseline`, `runs_baseline`: there, a baseline stays as it is;
* `reach_stored`: and after an update there is one;
* **`baseline_first`**.
-/

namespace Orchestrator

open Interleave

/-- The intent and the baseline of an update that was executed. -/
def storesBaseline : Act Op Op.Ret Failure Reply Call → Option (String × ℕ)
  | .op _ _ (.updateInStatus id _ patch) (.ok _) => patch.submissionValidatedLedger.map (id, ·)
  | _ => none

/-- When the update runs, a row in `SIGNED` has no other baseline, and a row that has left
`SIGNED` has one. -/
def baselineOnce : StepCond Op Op.Ret Failure Reply Call State := fun k a _ =>
  ∀ b ∈ storesBaseline a, ∀ row ∈ k.state.db.find b.1,
    (row.status = .signed ∧ (row.submissionValidatedLedger = none ∨
      row.submissionValidatedLedger = some b.2)) ∨
    (row.status ≠ .signed ∧ row.submissionValidatedLedger.isSome)

instance (k : Sys) (a : Act Op Op.Ret Failure Reply Call) (k' : Sys) :
    Decidable (baselineOnce k a k') :=
  inferInstanceAs (Decidable (∀ b ∈ storesBaseline a, _))

variable {P : Platform} {h : History} {pid n : ℕ} {l : Call} {c row : IntentRow} {id : String}

/-! ## What stores it -/

theorem Move.no_baseline {request : TransitionRequest} (hm : Move P h pid l c request) :
    request.patch.submissionValidatedLedger = none := by
  cases hm <;> rfl

/-- An update either keeps the baseline, or stores a validated index that its call has read. -/
theorem Touch.baseline_cases {statuses : List Status} {patch : IntentPatch}
    (ht : Touch h pid l c statuses patch) : patch.submissionValidatedLedger = none ∨
      ∃ n, statuses = [.signed] ∧ patch = Orchestrator.baseline n ∧ LedgerRead h pid n := by
  cases ht with
  | baseline hl hs hn hread => exact .inr ⟨_, rfl, rfl, hread⟩
  | attempted => exact .inl rfl
  | resubmitted => exact .inl rfl

/-- **In every run**, a baseline is a validated index that was read. -/
theorem reach_observed {ok : StepCond Op Op.Ret Failure Reply Call State} {k : Sys}
    (hk : Reach (system P) ok k) (hr : row ∈ k.state.db.rows)
    (hn : row.submissionValidatedLedger = some n) : ∃ pid, LedgerRead k.log pid n := by
  refine reach_rows (fun h r => ∀ n, r.submissionValidatedLedger = some n →
      ∃ pid, LedgerRead h pid n) hk ?_ ?_ ?_ ?_ row hr n hn
  · intro h h' r hr hh n hn
    obtain ⟨pid, hread⟩ := hr n hn
    exact ⟨pid, hread.mono hh⟩
  · intro h r hs hok n hn
    have hnone : r.submissionValidatedLedger = none :=
      congrArg (·.2.1) (hok.unsigned (.inl hs)).2
    cases hn.symm.trans hnone
  · intro h pid l request c cur t hprev _ _ _ hm _ _ n hn
    have hkeep : (request.updated P t cur).submissionValidatedLedger =
        cur.submissionValidatedLedger := by
      change request.patch.submissionValidatedLedger.or _ = _
      rw [hm.no_baseline, Option.none_or]
    exact hprev n (hkeep ▸ hn)
  · intro h pid l statuses patch c cur t hprev _ _ _ ht _ n hn
    change patch.submissionValidatedLedger.or _ = _ at hn
    rcases ht.baseline_cases with hnone | ⟨m, -, rfl, hread⟩
    · rw [hnone, Option.none_or] at hn
      exact hprev n hn
    · obtain rfl : m = n := Option.some.inj hn
      exact ⟨pid, hread⟩

/-! ## It is stored once -/

variable {k k' : Sys} {a : Act Op Op.Ret Failure Reply Call}

/-- **One step keeps a baseline.** -/
theorem step_baseline {ok : StepCond Op Op.Ret Failure Reply Call State}
    (hk : Reach (system P) ok k) (hs : Step (system P) k a k') (honce : baselineOnce k a k')
    (hf : k.state.db.find id = some row) (hn : row.submissionValidatedLedger = some n) :
    ∃ row', k'.state.db.find id = some row' ∧ row'.submissionValidatedLedger = some n := by
  cases step_change hk hs id with
  | kept he => exact ⟨row, he.trans hf, hn⟩
  | created hnone => cases hnone.symm.trans hf
  | moved _ hc _ _ _ hm _ _ _ hf' =>
    obtain rfl := Option.some.inj (hf.symm.trans hc)
    refine ⟨_, hf', ?_⟩
    change Option.or _ _ = _
    rw [hm.no_baseline, Option.none_or, hn]
  | touched ha hc _ _ _ ht hfrom _ _ hf' =>
    obtain rfl := Option.some.inj (hf.symm.trans hc)
    refine ⟨_, hf', ?_⟩
    change Option.or _ _ = _
    rcases ht.baseline_cases with hnone | ⟨m, hst, rfl, -⟩
    · rw [hnone, Option.none_or, hn]
    · subst ha hst
      have hsigned : row.status = .signed := List.mem_singleton.mp hfrom
      rcases honce (id, m) rfl row hf with ⟨-, hnone | hsame⟩ | ⟨hne, -⟩
      · cases hn.symm.trans hnone
      · rw [← hn, hsame]
        rfl
      · exact absurd hsigned hne

/-- **Along a run, a baseline stays as it is.** -/
theorem runs_baseline (hk : Reach (system P) baselineOnce k)
    (hruns : Runs (system P) baselineOnce k k') (hf : k.state.db.find id = some row)
    (hn : row.submissionValidatedLedger = some n) :
    ∃ row', k'.state.db.find id = some row' ∧ row'.submissionValidatedLedger = some n := by
  induction hruns with
  | refl => exact ⟨row, hf, hn⟩
  | step hr hs honce ih =>
    obtain ⟨row', hf', hn'⟩ := ih
    exact step_baseline (hk.runs hr) hs honce hf' hn'

/-- **After the update there is a baseline**, whether it applied or not. -/
theorem reach_stored (hk : Reach (system P) baselineOnce k) {out : Option IntentRow}
    (he : ⟨pid, l, .updateInStatus id [.signed] (baseline n), .ok out⟩ ∈ k.log) :
    ∃ row, k.state.db.find id = some row ∧ row.submissionValidatedLedger.isSome := by
  refine hk.inv (P := fun k => ∀ pid l id n out,
      ⟨pid, l, .updateInStatus id [.signed] (baseline n), .ok out⟩ ∈ k.log →
      ∃ row, k.state.db.find id = some row ∧ row.submissionValidatedLedger.isSome)
    (by simp) ?_ pid l id n out he
  intro k a k' hk ih hs honce pid l id n out he
  have later : (∃ row, k.state.db.find id = some row ∧ row.submissionValidatedLedger.isSome) →
      ∃ row, k'.state.db.find id = some row ∧ row.submissionValidatedLedger.isSome := by
    rintro ⟨row, hf, hb⟩
    obtain ⟨row', hf', hle⟩ := step_le hk hs hf
    exact ⟨row', hf', hle.baseline hb⟩
  rcases step_log hs with hlog | ⟨pid', l', op, r, rfl, hlog⟩
  · exact later (ih pid l id n out (hlog ▸ he))
  · rw [hlog] at he
    rcases List.mem_append.mp he with he | he
    · exact later (ih pid l id n out he)
    · cases List.mem_singleton.mp he
      obtain ⟨⟨c, hc, rfl, ht⟩, hx, -⟩ := reach_permit hk hs
      rcases updateInStatus_step (reach_ok hk) hc ht hx with
        ⟨-, hnone, hmiss⟩ | ⟨cur, t, hf, -, -, -, -, -, hle, -, hst⟩
      · obtain ⟨-, cur, hf, -⟩ := hc
        obtain rfl : out = none := by
          cases out with
          | none => rfl
          | some row => exact absurd rfl (hnone row)
        have hne : cur.status ≠ .signed := fun h => hmiss rfl cur hf (h ▸ List.mem_singleton_self _)
        rcases honce (c.id, n) rfl cur hf with ⟨hs, -⟩ | ⟨-, hb⟩
        · exact absurd hs hne
        · exact later ⟨cur, hf, hb⟩
      · refine ⟨(baseline n).updated P t cur, ?_, rfl⟩
        rw [hst]
        exact (Db.find_written hf hle _).trans (if_pos rfl)

/-- Where a blob is sent, its intent has a baseline. -/
theorem MaySubmit.baseline {txBlob : String} (hk : Reach (system P) baselineOnce k)
    (hm : MaySubmit P k.toWorld pid l txBlob) :
    ∃ row ∈ k.state.db.rows, l = .submit row.id ∧ ∃ n, row.submissionValidatedLedger = some n := by
  obtain ⟨c, ⟨-, cur, hf, hle⟩, hl, -, -, hbase⟩ := hm
  have hsome : cur.submissionValidatedLedger.isSome := by
    rcases hbase with hb | ⟨n, out, he⟩
    · exact hle.baseline hb
    · obtain ⟨cur', hf', hb⟩ := reach_stored hk he
      obtain rfl := Option.some.inj (hf.symm.trans hf')
      exact hb
  exact ⟨cur, Db.mem_of_find hf, hle.id ▸ hl, Option.isSome_iff_exists.mp hsome⟩

/-- **In every run**, every request so far was sent after the baseline of its intent was read. -/
theorem reach_before (hk : Reach (system P) baselineOnce k) {before after : History}
    {e : Entry Op Op.Ret Call} (hlog : k.log = before ++ e :: after) {txBlob : String}
    (hop : e.op = .send (.submit txBlob)) :
    ∃ row ∈ k.state.db.rows, e.label = .submit row.id ∧
      ∃ n pid, row.submissionValidatedLedger = some n ∧ LedgerRead before pid n := by
  refine hk.inv (P := fun k => ∀ before e after txBlob, k.log = before ++ e :: after →
      e.op = .send (.submit txBlob) → ∃ row ∈ k.state.db.rows, e.label = .submit row.id ∧
        ∃ n pid, row.submissionValidatedLedger = some n ∧ LedgerRead before pid n)
    (by simp) ?_ before e after txBlob hlog hop
  intro k a k' hk ih hs honce before e after txBlob hlog hop
  have later : (∃ row ∈ k.state.db.rows, e.label = .submit row.id ∧
        ∃ n pid, row.submissionValidatedLedger = some n ∧ LedgerRead before pid n) →
      ∃ row ∈ k'.state.db.rows, e.label = .submit row.id ∧
        ∃ n pid, row.submissionValidatedLedger = some n ∧ LedgerRead before pid n := by
    rintro ⟨row, hr, hl, n, pid, hn, hread⟩
    have hf := (reach_ok hk).ids row hr
    obtain ⟨row', hf', hn'⟩ := step_baseline hk hs honce hf hn
    exact ⟨row', Db.mem_of_find hf', (Db.find_id hf').symm ▸ hl, n, pid, hn', hread⟩
  rcases step_log hs with hsame | ⟨pid, l, op, r, rfl, hgrow⟩
  · exact later (ih before e after txBlob (hsame ▸ hlog) hop)
  · rw [hgrow] at hlog
    rcases split_log hlog with ⟨rfl, rfl⟩ | ⟨mid, hold⟩
    · cases hop
      obtain ⟨row, hr, hl, n, hn⟩ := MaySubmit.baseline hk (reach_permit hk hs).1
      obtain ⟨pid', hread⟩ := reach_observed hk hr hn
      exact later ⟨row, hr, hl, n, pid', hn, hread⟩
    · exact later (ih before e mid txBlob hold hop)

/-- **First-submission baseline.** In a run in which every baseline update finds its row in
`SIGNED` without another baseline, or out of `SIGNED` with one: a baseline never changes; where a
submit request is sent, its intent has one; and for every request sent so far, it is a validated
index that was read before. -/
theorem baseline_first (P : Platform) (k : Sys) (hk : Reach (system P) baselineOnce k) :
    (∀ id row n, k.state.db.find id = some row → row.submissionValidatedLedger = some n →
      ∀ k', Runs (system P) baselineOnce k k' → ∃ row', k'.state.db.find id = some row' ∧
        row'.submissionValidatedLedger = some n) ∧
    (∀ pid l txBlob r k', Step (system P) k (.op pid l (.send (.submit txBlob)) r) k' →
      ∃ row ∈ k.state.db.rows, l = .submit row.id ∧
        ∃ n, row.submissionValidatedLedger = some n) ∧
    ∀ before e after txBlob, k.log = before ++ e :: after → e.op = .send (.submit txBlob) →
      ∃ row ∈ k.state.db.rows, e.label = .submit row.id ∧
        ∃ n pid, row.submissionValidatedLedger = some n ∧ LedgerRead before pid n := by
  refine ⟨fun id row n hf hn k' hruns => runs_baseline hk hruns hf hn, ?_, ?_⟩
  · intro pid l txBlob r k' hs
    exact MaySubmit.baseline hk (reach_permit hk hs).1
  · intro before e after txBlob hlog hop
    exact reach_before hk hlog hop

/-- Two calls submit, one after the other: the first stores the baseline, the second keeps it. -/
theorem baseline_first_resubmitted : ∃ (k : Sys) (row : IntentRow) (n : ℕ),
    row ∈ k.state.db.rows ∧ row.submissionAttemptCount = 2 ∧
      row.submissionValidatedLedger = some n ∧ ∀ k', Runs (system Sample.platform) baselineOnce k k' →
        ∃ row', k'.state.db.find row.id = some row' ∧ row'.submissionValidatedLedger = some n := by
  obtain ⟨k, -, hk, hφ⟩ := exists_of_play Sample.platform baselineOnce []
    (Sample.signedIntent 3 ++ Sample.submitted 4 3 3 "tesSUCCESS" ++
      Sample.submitted 5 3 2 "tesSUCCESS")
    (fun k => k.state.db.rows.any fun r => k.state.db.find r.id = some r &&
      r.submissionAttemptCount = 2 && r.submissionValidatedLedger = some 3) (by decide +kernel)
  obtain ⟨row, hr, hrow⟩ := List.any_eq_true.mp hφ
  simp only [Bool.and_eq_true, decide_eq_true_eq] at hrow
  obtain ⟨⟨hf, hcount⟩, hn⟩ := hrow
  exact ⟨k, row, 3, hr, hcount, hn, (baseline_first Sample.platform k hk).1 row.id row 3 hf hn⟩

/-- Two calls have loaded the row without a baseline: the second overwrites that of the first. -/
theorem baseline_overwritten : ¬ ∀ (k k' : Sys) (a : Act Op Op.Ret Failure Reply Call) (id : String)
    (row row' : IntentRow) (n : ℕ), Reach (system Sample.platform) anyStep k →
    Step (system Sample.platform) k a k' → k.state.db.find id = some row →
    k'.state.db.find id = some row' → row.submissionValidatedLedger = some n →
    row'.submissionValidatedLedger = some n := by
  intro hevery
  obtain ⟨k, a, k', hk, hs, hφ⟩ := exists_step_of_play Sample.platform anyStep []
    (Sample.signedIntent 3 ++ [.start (.submit "i5")] ++ Sample.tick 4 2 ++
      [.start (.submit "i5")] ++ Sample.tick 5 2 ++ Sample.told 4 (Sample.ledgerAnswer 3) ++
      Sample.tick 4 1 ++ Sample.told 5 (Sample.ledgerAnswer 4)) (.op 5 (.time 1))
    (fun k _ k' => (k.state.db.find "i5").any (fun row => row.submissionValidatedLedger = some 3) &&
      (k'.state.db.find "i5").any fun row => row.submissionValidatedLedger = some 4)
    (by decide +kernel)
  obtain ⟨h, h'⟩ := Bool.and_eq_true_iff.mp hφ
  obtain ⟨row, hf, hn⟩ := (Option.any_eq_true _ _).mp h
  obtain ⟨row', hf', hn'⟩ := (Option.any_eq_true _ _).mp h'
  have hsame := hevery k k' a "i5" row row' 3 hk hs hf hf' (of_decide_eq_true hn)
  cases hsame.symm.trans (of_decide_eq_true hn')

end Orchestrator
