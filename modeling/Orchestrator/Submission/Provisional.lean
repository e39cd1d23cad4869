import Orchestrator.Submission.Answers

/-!
# Provisional answers and rejection

An answer outside `tem*` is provisional, and an intent that has one should not become `REJECTED`.
Recording it moves the intent out of `SIGNED` for good; until then, or if it is never recorded, a
call with a `tem*` answer can still reject.

* `holds`: a call was given a provisional answer that it has not recorded;
* `rejectsUncontested`: the runs in which none is held when a call records a `tem*` answer;
* **`reach_provisional`**: in every run, a provisional answer is held, or the intent is out of
  `SIGNED`;
* **`provisional_not_rejected`**.
-/

namespace Orchestrator

open Interleave

/-- Reads the operations of one call: it holds a provisional answer from when it is given one until
a recording statement of it succeeds. -/
def provisional : Monitor Op Op.Ret Bool where
  allow _ _ := True
  next held op r :=
    if op.records && op.succeeds r then false
    else match engineResult op r with
      | some result => held || !isMalformed result
      | none => held

/-- Call `pid` was given a provisional answer and has not recorded it, be it still in flight or
not. -/
def holds (h : History) (pid : ℕ) : Bool := provisional.after false (own pid h)

/-- The entry is a provisional answer to a submission of intent `id`. -/
def IsProvisional (e : Entry Op Op.Ret Call) (id : String) : Prop :=
  e.label = .submit id ∧ ∃ result, engineResult e.op e.ret = some result ∧
    isMalformed result = false

/-- The intent that a call asks to move to `REJECTED`. -/
def asksRejection : Act Op Op.Ret Failure Reply Call → Option String
  | .op _ _ (.transition id request) _ =>
    if request.toStatus = .rejected then some id else none
  | _ => none

/-- When a call asks to reject an intent that is in `SIGNED`, no call for it holds a provisional
answer. -/
def rejectsUncontested : StepCond Op Op.Ret Failure Reply Call State := fun k a _ =>
  ∀ id ∈ asksRejection a, ∀ row ∈ k.state.db.find id, row.status = .signed →
    ∀ e ∈ k.log, e.label = .submit id → holds k.log e.pid = false

instance (k : Sys) (a : Act Op Op.Ret Failure Reply Call) (k' : Sys) :
    Decidable (rejectsUncontested k a k') :=
  inferInstanceAs (Decidable (∀ id ∈ asksRejection a, _))

variable {P : Platform} {ok : StepCond Op Op.Ret Failure Reply Call State} {k k' : Sys}
  {a : Act Op Op.Ret Failure Reply Call} {id : String} {row row' : IntentRow}

/-- A version in `SIGNED` with an earlier one that had a blob: that was in `SIGNED` too. -/
theorem IntentRow.Le.signed_before (hle : row.Le row') (hok : row.Ok P)
    (hb : row.signedTxBlob.isSome) (hs : row'.status = .signed) : row.status = .signed := by
  have hall : ∀ s t : Status, s.Leads t → s ≠ .created → s ∉ unsignedActiveStatuses →
      t = .signed → s = .signed := by decide
  obtain ⟨blob, hblob⟩ := Option.isSome_iff_exists.mp hb
  obtain ⟨h1, h2⟩ := hok.not_unsigned hblob
  exact hall _ _ hle.leads h1 h2 hs

theorem IntentRow.Le.blob_after (hle : row.Le row') (hok : row.Ok P)
    (hb : row.signedTxBlob.isSome) : row'.signedTxBlob.isSome := by
  obtain ⟨blob, hblob⟩ := Option.isSome_iff_exists.mp hb
  rw [hle.signedTxBlob hok hblob]
  rfl

/-- Only a recording lets go of a provisional answer. -/
theorem provisional_keeps {op : Op} {r : op.Ret} (h : ¬ (op.records && op.succeeds r) = true) :
    provisional.next true op r = true := by
  simp only [provisional, if_neg h]
  split <;> rfl

/-- The state of a provisional answer: it is held as long as its intent is in `SIGNED`. -/
def Held (k : Sys) (e : Entry Op Op.Ret Call) (id : String) : Prop :=
  ∃ row, k.state.db.find id = some row ∧ row.signedTxBlob.isSome ∧
    (row.status = .signed → holds k.log e.pid = true)

/-- A provisional answer that is held stays so, or the intent leaves `SIGNED`. -/
theorem Held.step {e : Entry Op Op.Ret Call} (hh : Held k e id) (hk : Reach (system P) ok k)
    (hs : Step (system P) k a k') (he : e ∈ k.log) (hl : e.label = .submit id) : Held k' e id := by
  obtain ⟨row, hf, hb, hheld⟩ := hh
  obtain ⟨row', hf', hle⟩ := step_le hk hs hf
  have hok := reach_row hk hf
  refine ⟨row', hf', hle.blob_after hok hb, fun hs' => ?_⟩
  have hbefore := hheld (hle.signed_before hok hb hs')
  rcases step_log hs with hlog | ⟨pid, l, op, r, rfl, hlog⟩
  · rwa [hlog]
  · rw [hlog]
    by_cases hp : pid = e.pid
    · subst hp
      rw [holds, Monitor.after_self]
      change provisional.next (holds k.log e.pid) op r = true
      rw [hbefore]
      by_cases hrec : (op.records && op.succeeds r) = true
      · obtain ⟨hrec, hsucc⟩ := Bool.and_eq_true_iff.mp hrec
        obtain ⟨id', cur, cur', hl', -, hput, hcur⟩ := records_step hk hs hrec
        -- the recording is of this intent, and leaves it out of `SIGNED`
        have hlabel := (hk.step_label hs he rfl).symm.trans hl
        obtain rfl : id' = id := Call.submit.inj (hl'.symm.trans hlabel)
        obtain rfl := Option.some.inj (hf'.symm.trans ((hput _).trans (if_pos rfl)))
        rcases hcur with ⟨rfl, hmiss⟩ | ⟨-, hne⟩
        · exact absurd hs' (hmiss hsucc).2
        · exact absurd hs' hne
      · exact provisional_keeps hrec
    · rwa [holds, Monitor.after_other hp]

/-- **In every run**, a provisional answer is held, or its intent is out of `SIGNED`. -/
theorem reach_provisional (hk : Reach (system P) ok k) :
    ∀ e ∈ k.log, ∀ id, IsProvisional e id → Held k e id := by
  refine hk.inv (P := fun k => ∀ e ∈ k.log, ∀ id, IsProvisional e id → Held k e id) (by simp) ?_
  intro k a k' hk ih hs _ e he id hprov
  rcases step_log hs with hlog | ⟨pid, l, op, r, rfl, hlog⟩
  · have he' : e ∈ k.log := hlog ▸ he
    exact (ih e he' id hprov).step hk hs he' hprov.1
  · rcases List.mem_append.mp (hlog ▸ he) with he' | he'
    · exact (ih e he' id hprov).step hk hs he' hprov.1
    · obtain rfl := List.mem_singleton.mp he'
      obtain ⟨hl, result, hres, hmal⟩ := hprov
      obtain ⟨row, hr, hl', hb⟩ := answered_row hk hs hres
      obtain rfl : row.id = id := Call.submit.inj (hl'.symm.trans hl)
      obtain ⟨row', hf', hle⟩ := step_le hk hs ((reach_ok hk).ids row hr)
      refine ⟨row', hf', hle.blob_after ((reach_ok hk).rows row hr) hb, fun _ => ?_⟩
      rw [hlog, holds, Monitor.after_self]
      simp [provisional, records_of_engineResult hres, hres, hmal]

/-- The step that rejects an intent with a blob is asked for in `SIGNED`. -/
theorem step_rejects (hk : Reach (system P) ok k) (hs : Step (system P) k a k')
    (hf : k.state.db.find id = some row) (hb : row.signedTxBlob.isSome)
    (hf' : k'.state.db.find id = some row') (hne : row.status ≠ .rejected)
    (hrej : row'.status = .rejected) : id ∈ asksRejection a ∧ row.status = .signed := by
  cases step_change hk hs id with
  | kept he =>
    obtain rfl := Option.some.inj ((hf'.symm.trans he).trans hf)
    exact absurd hrej hne
  | created hn => cases hn.symm.trans hf
  | touched _ hc _ _ _ _ _ _ _ hn =>
    obtain rfl := Option.some.inj (hf.symm.trans hc)
    obtain rfl := Option.some.inj (hn.symm.trans hf')
    exact absurd hrej hne
  | moved ha hc _ _ _ hm hfrom _ _ hn =>
    obtain rfl := Option.some.inj (hf.symm.trans hc)
    obtain rfl := Option.some.inj (hn.symm.trans hf')
    subst ha
    refine ⟨?_, ?_⟩
    · exact if_pos hrej
    · cases hm with
      | malformed => exact List.mem_singleton.mp hfrom
      | simulationRejected =>
        obtain ⟨blob, hblob⟩ := Option.isSome_iff_exists.mp hb
        have hst : row.status = .simulated := List.mem_singleton.mp hfrom
        exact absurd (hst ▸ by decide) ((reach_row hk hf).not_unsigned hblob).2
      | _ => cases hrej

/-- **A provisionally answered blob is not rejected.** In a run in which no call holds a
provisional answer for an intent in `SIGNED` when another one asks to reject it: once a submission
was answered outside `tem*`, the intent does not become `REJECTED`. -/
theorem provisional_not_rejected (P : Platform) (k k' : Sys)
    (hk : Reach (system P) rejectsUncontested k) (hruns : Runs (system P) rejectsUncontested k k')
    (id : String) (e : Entry Op Op.Ret Call) (he : e ∈ k.log) (hprov : IsProvisional e id) :
    ∃ row row', k.state.db.find id = some row ∧ k'.state.db.find id = some row' ∧
      (row.status ≠ .rejected → row'.status ≠ .rejected) := by
  obtain ⟨row, hf, -⟩ := reach_provisional hk e he id hprov
  induction hruns with
  | refl => exact ⟨row, row, hf, hf, fun h => h⟩
  | step hr hs hok ih =>
    obtain ⟨row, row', hf, hf', hne⟩ := ih
    have hk' := hk.runs hr
    have he' := (runs_rely hk hr).2.subset he
    obtain ⟨row'', hf'', -⟩ := step_le hk' hs hf'
    refine ⟨row, row'', hf, hf'', fun h hrej => ?_⟩
    obtain ⟨cur, hcur, hb, hheld⟩ := reach_provisional hk' e he' id hprov
    obtain rfl := Option.some.inj (hf'.symm.trans hcur)
    obtain ⟨hask, hst⟩ := step_rejects hk' hs hf' hb hf'' (hne h) hrej
    have hfree := hok id hask row' hf' hst e he' hprov.1
    exact absurd ((hheld hst).symm.trans hfree) (by decide)

/-- A provisional answer that was recorded: the `tem*` answer of a later submission changes
nothing. -/
theorem provisional_not_rejected_recorded : ∃ (k k' : Sys) (row row' : IntentRow),
    Runs (system Sample.platform) rejectsUncontested k k' ∧
      k.state.db.find "i5" = some row ∧ row.status = .submitted ∧
      (∃ e ∈ k'.log, ∃ result, engineResult e.op e.ret = some result ∧ isMalformed result = true) ∧
      k'.state.db.find "i5" = some row' ∧ row'.status ≠ .rejected := by
  obtain ⟨k, k', hk, hruns, hφ⟩ := exists_runs_of_play Sample.platform rejectsUncontested []
    (Sample.signedIntent 3 ++ Sample.submitted 4 3 3 "tesSUCCESS")
    (Sample.submitted 5 3 2 "temMALFORMED")
    (fun k k' => (k.log.any fun e => e.label = .submit "i5" &&
        (engineResult e.op e.ret).any fun result => !isMalformed result) &&
      (k'.log.any fun e => (engineResult e.op e.ret).any isMalformed) &&
      (k.state.db.find "i5").any fun row => row.status = .submitted) (by decide +kernel)
  simp only [Bool.and_eq_true, List.any_eq_true, decide_eq_true_eq, Bool.not_eq_true',
    Option.any_eq_true] at hφ
  obtain ⟨⟨⟨e, he, hl, result, hres, hmal⟩, e', he', result', hres', hmal'⟩, row, hf, hst⟩ := hφ
  obtain ⟨row, row', hf₁, hf', hne⟩ := provisional_not_rejected Sample.platform k k' hk hruns "i5" e
    he ⟨hl, result, hres, hmal⟩
  obtain rfl := Option.some.inj (hf.symm.trans hf₁)
  exact ⟨k, k', row, row', hruns, hf, hst, ⟨e', he', result', hres', hmal'⟩, hf',
    hne (by rw [hst]; decide)⟩

/-- Two calls were answered, one provisionally; the other one records its answer first. -/
theorem provisional_rejected : ¬ ∀ (k k' : Sys) (id : String) (e : Entry Op Op.Ret Call)
    (row row' : IntentRow), Reach (system Sample.platform) anyStep k →
    Runs (system Sample.platform) anyStep k k' → e ∈ k.log → IsProvisional e id →
    k.state.db.find id = some row → row.status ≠ .rejected → k'.state.db.find id = some row' →
    row'.status ≠ .rejected := by
  intro hevery
  obtain ⟨k, a, k', hk, hs, hφ⟩ := exists_step_of_play Sample.platform anyStep []
    (Sample.signedIntent 3 ++ Sample.submitting 4 3 3 "tesSUCCESS" ++
      Sample.submitting 5 3 2 "temMALFORMED") (.op 5 (.time 1))
    (fun k _ k' => (k.log.any fun e => e.label = .submit "i5" &&
        (engineResult e.op e.ret).any fun result => !isMalformed result) &&
      ((k.state.db.find "i5").any fun row => row.status = .signed) &&
      (k'.state.db.find "i5").any fun row => row.status = .rejected) (by decide +kernel)
  simp only [Bool.and_eq_true, List.any_eq_true, decide_eq_true_eq, Bool.not_eq_true',
    Option.any_eq_true] at hφ
  obtain ⟨⟨⟨e, he, hl, result, hres, hmal⟩, row, hf, hst⟩, row', hf', hrej⟩ := hφ
  exact hevery k k' "i5" e row row' hk (.step .refl hs trivial) he ⟨hl, result, hres, hmal⟩ hf
    (by rw [hst]; decide) hf' hrej

end Orchestrator
