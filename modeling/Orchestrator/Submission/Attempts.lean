import Orchestrator.Finality.Operations
import Orchestrator.Submission.Answers

/-!
# The attempt counter

Every answered submission should be counted once. The counter is incremented by the statement that
records the answer, which applies only if the row is still in the status its call has loaded, and
runs only if the call gets that far.

* `attempts`: a call of `submit` records each answer before it asks again or ends;
* **`follows_submit`**: it does;
* `pending`, `answered`: an answer on its way to being recorded, and the answers of an intent;
* `countsEach`: the runs in which every recording applies and no pending answer is cut off;
* **`reach_counted`**: there, the answers of an intent are those counted and those pending;
* **`attempts_counted`**.
-/

namespace Orchestrator

open Interleave

/-- Reads the operations of one call: an answer is recorded before the next request is answered. -/
def attempts : Monitor Op Op.Ret Bool where
  allow pending op := (op.records = true → pending = true) ∧
    ∀ txBlob, op = .receive (.submit txBlob) → pending = false
  next pending op r := if op.records then false else pending || (engineResult op r).isSome

/-! ## What a call of `submit` does -/

section Program

variable {P : Platform} {α : Type}

/-- An operation that neither brings an answer nor records one. -/
def Silent (op : Op) : Prop := op.records = false ∧ ∀ txBlob, op ≠ .receive (.submit txBlob)

theorem Silent.engineResult {op : Op} (h : Silent op) (r : op.Ret) : engineResult op r = none := by
  cases he : Orchestrator.engineResult op r with
  | none => rfl
  | some result =>
    obtain ⟨txBlob, hop⟩ := engineResult_some he
    exact absurd hop (h.2 txBlob)

theorem Silent.idle {op : Op} (h : Silent op) (pending : Bool) :
    attempts.allow pending op ∧ ∀ r, attempts.next pending op r = pending := by
  refine ⟨⟨fun hr => ?_, fun txBlob hop => absurd hop (h.2 txBlob)⟩, fun r => ?_⟩
  · rw [h.1] at hr
    cases hr
  · simp [attempts, h.1, h.engineResult r]

/-- The program ends without a pending answer. -/
def Settled (_ : Except Failure α) (pending : Bool) : Prop := pending = false

theorem follows_silent {p : Service α} (h : p.Performs Silent) :
    attempts.Follows Settled p false :=
  (Monitor.Follows.idle (fun _ hop => hop.idle false) h).mono fun _ _ he => he

theorem follows_bind {β : Type} {p : Service α} {f : α → Service β}
    (hp : attempts.Follows Settled p false) (hf : ∀ a, attempts.Follows Settled (f a) false) :
    attempts.Follows Settled (p >>= f) false :=
  hp.bind (fun a _ he => he ▸ hf a) fun _ _ he => he

theorem silent_resolving (row : IntentRow) : Resolving Silent row where
  send _ _ := ⟨rfl, by simp⟩
  receive q hq := ⟨rfl, fun txBlob he => hq txBlob (Op.receive.inj he)⟩
  switchEndpoint _ := ⟨rfl, by simp⟩
  now := ⟨rfl, by simp⟩
  transition _ hcon := ⟨hcon.uncounted, by simp⟩

/-- After the request, an answer is pending exactly if there is a result. -/
theorem follows_submitRequest (txBlob : String) :
    attempts.Follows (fun out pending => out.isOk = pending) (submitRequest txBlob) false := by
  have hsend : Silent (.send (.submit txBlob)) := ⟨rfl, by simp⟩
  refine ⟨(hsend.idle false).1, fun r => ?_⟩
  rw [(hsend.idle false).2 r]
  refine ⟨⟨by simp [Op.records], fun _ _ => rfl⟩, fun answer => ?_⟩
  cases answer with
  | error e => rfl
  | ok r =>
    cases h : readSubmit txBlob r with
    | ok out =>
      change attempts.Follows _ (ofExcept (readSubmit txBlob r)) _
      rw [h]
      simp [attempts, Monitor.Follows, ofExcept, orThrow, Op.records, Orchestrator.engineResult, h,
        Except.isOk, Except.toBool]
    | error e =>
      change attempts.Follows _ (ofExcept (readSubmit txBlob r)) _
      rw [h]
      simp [attempts, Monitor.Follows, ofExcept, orThrow, Op.records, Orchestrator.engineResult, h,
        Except.isOk, Except.toBool]

/-- Recording a pending answer is one statement, after which nothing is pending. -/
theorem follows_recordSubmit (row : IntentRow) (result : SubmitResult) (raw : Record) (t : ℕ) :
    attempts.Follows Settled (recordSubmit row result raw t) true := by
  have hdone : ∀ x : Except DbError (Option IntentRow),
      attempts.Follows Settled (orThrow DbError.failure x) false := fun x => by cases x <;> rfl
  have hmove : ∀ request : TransitionRequest, request.patch.submissionAttemptCount = true →
      attempts.Follows Settled (transition row.id request) true := by
    intro request hpatch
    refine ⟨⟨fun _ => rfl, by simp⟩, fun r => ?_⟩
    have hnext : attempts.next true (.transition row.id request) r = false := if_pos hpatch
    rw [hnext]
    exact hdone r
  unfold recordSubmit
  split_ifs
  · exact hmove _ rfl
  · exact hmove _ rfl
  · exact ⟨⟨fun _ => rfl, by simp⟩, fun r => hdone r⟩

theorem recordBaseline_silent (row : IntentRow) (n : ℕ) :
    (recordBaseline row n).Performs Silent := by
  unfold recordBaseline
  split_ifs
  · exact (performs_updateInStatus _ _ _ ⟨rfl, by simp⟩).bind fun _ => trivial
  · trivial

theorem follows_submitSigned (row : IntentRow) :
    attempts.Follows Settled (submitSigned P row) false := by
  refine follows_bind (follows_silent (performs_assertRecovered ⟨rfl, by simp⟩)) fun _ => ?_
  refine follows_bind (follows_silent (performs_required _ _)) fun signedTxBlob => ?_
  refine follows_bind (follows_silent (performs_required _ _)) fun last => ?_
  refine follows_bind (follows_silent ((silent_resolving row).ask _ _ (by simp))) fun validated => ?_
  split_ifs
  · refine follows_bind (follows_silent ((silent_resolving row).resolveSigned _ _)) fun out => ?_
    dsimp only
    split_ifs <;> rfl
  · refine follows_bind (follows_silent (recordBaseline_silent row validated)) fun _ => ?_
    refine follows_bind (follows_silent (Prog.performs_perform ⟨rfl, by simp⟩)) fun t => ?_
    have hask := Monitor.Follows.toExcept
      (R := fun out pending => ∃ answer, out = .ok answer ∧ answer.isOk = pending)
      ((follows_submitRequest signedTxBlob).mono fun out pending he => ⟨out, rfl, he⟩)
    refine hask.bind ?_ fun e pending he => ?_
    · rintro answer pending ⟨_, ⟨⟩, rfl⟩
      cases answer with
      | ok out => exact follows_recordSubmit row out.1 out.2 t
      | error e =>
        refine follows_bind (follows_silent (performs_updateInStatus _ _ _ ⟨rfl, by simp⟩)) fun _ => ?_
        rfl
    · obtain ⟨_, he, -⟩ := he
      cases he

theorem follows_submitLoop (id : String) (steps : ℕ) (row : IntentRow) :
    attempts.Follows Settled (submitLoop P id steps row) false := by
  induction steps generalizing row with
  | zero => rfl
  | succ steps ih =>
    rw [submitLoop_succ]
    split_ifs
    · rfl
    · refine follows_bind (follows_submitSigned row) fun next => ?_
      cases next with
      | some next => rfl
      | none => exact follows_bind (follows_silent (performs_load _ ⟨rfl, by simp⟩)) ih
    · rfl

/-- **A call of `submit` records every answer before it asks again or ends.** -/
theorem follows_submit (id : String) :
    attempts.Follows Settled (handle P (.submit id)) false := by
  have hload : attempts.Follows Settled (load id) false :=
    follows_silent (performs_load id ⟨rfl, by simp⟩)
  exact follows_bind (follows_bind hload (follows_submitLoop id submitMaxSteps)) fun _ => rfl

end Program

/-! ## What a run does -/

/-- Call `pid` was answered and has not come to recording it. -/
def pending (h : History) (pid : ℕ) : Bool := attempts.after false (own pid h)

/-- The entry is an answer to a submission of intent `id`. -/
def isAnswer (id : String) (e : Entry Op Op.Ret Call) : Bool :=
  e.label = .submit id && (engineResult e.op e.ret).isSome

/-- How many submissions of intent `id` a server has answered. -/
def answered (h : History) (id : String) : ℕ := h.countP (isAnswer id)

theorem answered_append (h : History) (e : Entry Op Op.Ret Call) (id : String) :
    answered (h ++ [e]) id = answered h id + (isAnswer id e).toNat := by
  rw [answered, List.countP_append, List.countP_singleton]
  cases isAnswer id e <;> rfl

/-- The call submits intent `id` and has an answer to record. -/
def isPending (h : History) (id : String) (t : Thread Op Op.Ret Failure Reply Call) : Bool :=
  t.label = .submit id && pending h t.pid

/-- Every recording statement finds its row in a status that it names and does not fail, and no
call is cut off between an answer and its recording. -/
def countsEach : StepCond Op Op.Ret Failure Reply Call State := fun k a _ =>
  match a with
  | .op _ _ op r => op.records = true → op.finds k.state.db = true ∧ op.succeeds r = true
  | .kill t => pending k.log t.pid = false
  | .restart => ∀ t ∈ k.pool, pending k.log t.pid = false
  | _ => True

instance (k : Sys) (a : Act Op Op.Ret Failure Reply Call) (k' : Sys) :
    Decidable (countsEach k a k') :=
  match a with
  | .op _ _ _ _ => inferInstanceAs (Decidable (_ = true → _ = true ∧ _ = true))
  | .kill _ => inferInstanceAs (Decidable (_ = false))
  | .restart => inferInstanceAs (Decidable (∀ t ∈ k.pool, _ = false))
  | .start _ _ | .finish _ _ _ | .env => isTrue trivial

section Run

variable {P : Platform} {ok : StepCond Op Op.Ret Failure Reply Call State} {k k' : Sys}
  {a : Act Op Op.Ret Failure Reply Call} {id : String}

/-- The counter of intent `id`. -/
def Db.attempts (db : Db) (id : String) : ℕ := (db.find id).elim 0 (·.submissionAttemptCount)

/-- A step that records nothing keeps every counter. -/
theorem step_attempts (hk : Reach (system P) ok k) (hs : Step (system P) k a k')
    (ha : ∀ pid l op r, a = .op pid l op r → op.records = false) (id : String) :
    k'.state.db.attempts id = k.state.db.attempts id := by
  unfold Db.attempts
  cases step_change hk hs id with
  | kept he => rw [he]
  | created hf hf' hst hok =>
    have hnone : _ = 0 := congrArg (·.1) (hok.unsigned (.inl hst)).2
    rw [hf, hf']
    exact hnone
  | @moved _ _ request _ _ _ hact hf _ _ _ _ _ _ _ hf' =>
    have hno : request.patch.submissionAttemptCount = false := ha _ _ _ _ hact
    rw [hf, hf']
    change _ + request.patch.submissionAttemptCount.toNat = _
    rw [hno]
    rfl
  | @touched _ _ _ patch _ _ _ hact hf _ _ _ _ _ _ _ hf' =>
    have hno : patch.submissionAttemptCount = false := ha _ _ _ _ hact
    rw [hf, hf']
    change _ + patch.submissionAttemptCount.toNat = _
    rw [hno]
    rfl

theorem reach_follows (hk : Reach (system P) ok k) {t : Thread Op Op.Ret Failure Reply Call}
    (ht : t ∈ k.pool) (hl : t.label = .submit id) :
    attempts.Follows Settled t.prog (pending k.log t.pid) :=
  Monitor.sound (D := fun l => l = .submit id) (fun _ hl => hl ▸ follows_submit id) hk t ht hl

/-- The calls with an answer to record, if one of them is in the middle. -/
theorem countP_middle {α : Type} (p : α → Bool) (as bs : List α) (t : α) :
    (as ++ t :: bs).countP p = (as ++ bs).countP p + (p t).toNat := by
  rw [List.countP_append, List.countP_append, List.countP_cons]
  cases p t <;> simp [Nat.add_assoc]

/-- What an operation adds to the counter and to what is pending, it adds to the answers. -/
theorem step_balance {pid : ℕ} {l : Call} {op : Op} {r : op.Ret} (hk : Reach (system P) ok k)
    (hs : Step (system P) k (.op pid l op r) k')
    (hcond : op.records = true → op.finds k.state.db = true ∧ op.succeeds r = true)
    (hallow : ∀ id, l = .submit id → attempts.allow (pending k.log pid) op) (id : String) :
    k'.state.db.attempts id +
        (decide (l = .submit id) && attempts.next (pending k.log pid) op r).toNat =
      k.state.db.attempts id + (decide (l = .submit id) && pending k.log pid).toNat +
        (isAnswer id ⟨pid, l, op, r⟩).toNat := by
  by_cases hrec : op.records = true
  · have hsilent : engineResult op r = none := by
      by_contra hne
      obtain ⟨result, hres⟩ := Option.ne_none_iff_exists'.mp hne
      cases hrec.symm.trans (records_of_engineResult hres)
    obtain ⟨id', cur, cur', rfl, hf, hput, hcur⟩ := records_step hk hs hrec
    have hpending : pending k.log pid = true := (hallow id' rfl).1 hrec
    have hnext : attempts.next (pending k.log pid) op r = false := if_pos hrec
    obtain ⟨hfinds, hsucc⟩ := hcond hrec
    have hcount : cur'.submissionAttemptCount = cur.submissionAttemptCount + 1 := by
      rcases hcur with ⟨-, hmiss⟩ | ⟨hcount, -⟩
      · cases hfinds.symm.trans (hmiss hsucc).1
      · exact hcount
    rw [hnext, hpending, isAnswer, hsilent]
    by_cases he : id = id'
    · subst he
      simp [Db.attempts, hput, hf, hcount]
    · have hne : ¬ (Call.submit id' = .submit id) := fun h => he (Call.submit.inj h).symm
      simp [Db.attempts, hput, he, hne]
  · have hkeep := step_attempts hk hs (fun _ _ _ _ he => by cases he; simpa using hrec) id
    have hnext : attempts.next (pending k.log pid) op r =
        (pending k.log pid || (engineResult op r).isSome) := if_neg hrec
    rw [hkeep, hnext, isAnswer]
    cases hres : engineResult op r with
    | none => simp
    | some result =>
      obtain ⟨row, -, rfl, -⟩ := answered_row hk hs hres
      obtain ⟨txBlob, hop⟩ := engineResult_some hres
      have hfree : pending k.log pid = false := (hallow row.id rfl).2 txBlob hop
      rw [hfree]
      simp

/-- The answers of intent `id` are those that were counted and those still to be recorded. -/
def Counted (k : Sys) (id : String) : Prop :=
  answered k.log id = k.state.db.attempts id + k.pool.countP (isPending k.log id)

/-- Without an operation, and without losing a pending answer, the balance stays. -/
theorem Counted.keep (hc : Counted k id) (hdb : k'.state.db = k.state.db) (hlog : k'.log = k.log)
    (hpool : k'.pool.countP (isPending k.log id) = k.pool.countP (isPending k.log id)) :
    Counted k' id := by
  rw [Counted, hlog, hdb, hpool]
  exact hc

/-- **In a run in which every recording applies and no pending answer is cut off**, no answer is
lost. -/
theorem reach_counted (hk : Reach (system P) countsEach k) (id : String) : Counted k id := by
  refine hk.inv (P := fun k => Counted k id) (fun s hs => ?_) fun k a k' hk ih hs hcond => ?_
  · rw [Counted, Db.attempts, hs.1]
    rfl
  have hfree : ∀ t : Thread Op Op.Ret Failure Reply Call, pending k.log t.pid = false →
      isPending k.log id t = false := fun t ht => by rw [isPending, ht, Bool.and_false]
  cases hs with
  | start l =>
    refine ih.keep rfl rfl ?_
    have hnew : own k.next k.log = [] :=
      List.filter_eq_nil_iff.mpr fun e he => by simpa using Nat.ne_of_lt (hk.calls.log_lt e he)
    have hp : isPending k.log id ⟨k.next, l, (system P).body l⟩ = false :=
      hfree _ (by rw [pending, hnew]; rfl)
    rw [countP_middle, List.append_nil, hp]
    rfl
  | @finish as bs pid l p out hp ho =>
    refine ih.keep rfl rfl ?_
    have hend : isPending k.log id ⟨pid, l, p⟩ = false := by
      by_cases hl : l = .submit id
      · have hrest := reach_follows hk (t := ⟨pid, l, p⟩) (by rw [hp]; simp) hl
        refine hfree _ ?_
        cases p with
        | ret => exact hrest
        | fail => exact hrest
        | call => cases ho
      · simp [isPending, hl]
    rw [hp, countP_middle, hend]
    rfl
  | @kill as bs t hp =>
    refine ih.keep rfl rfl ?_
    rw [hp, countP_middle, hfree t hcond]
    rfl
  | env hx =>
    obtain ⟨ledger, rfl⟩ := hx
    exact ih.keep rfl rfl rfl
  | restart hx =>
    obtain ⟨networkId, rfl⟩ := hx
    refine ih.keep rfl rfl ?_
    exact (List.countP_eq_zero.mpr fun t ht => by simp [hfree t (hcond t ht)]).symm
  | @op as bs pid l op cont r s hp hx =>
    have hstep := (Step.op hp hx : Step (system P) k _ _)
    have hnodup := hk.calls.nodup
    rw [hp] at hnodup
    have hothers : (as ++ bs).countP (isPending (k.log ++ [⟨pid, l, op, r⟩]) id) =
        (as ++ bs).countP (isPending k.log id) := by
      refine List.countP_congr fun t ht => ?_
      rw [isPending, pending, Monitor.after_other (ne_of_nodup hnodup t ht).symm]
      rfl
    have hbalance := step_balance hk hstep hcond (fun id' hl =>
      (reach_follows hk (t := ⟨pid, l, .call op cont⟩) (by rw [hp]; simp) hl).1) id
    have hsplit : answered k.log id = k.state.db.attempts id + ((as ++ bs).countP
        (isPending k.log id) + (decide (l = .submit id) && pending k.log pid).toNat) := by
      have hcounted : answered k.log id = _ := ih
      rwa [hp, countP_middle] at hcounted
    have hself : isPending (k.log ++ [⟨pid, l, op, r⟩]) id ⟨pid, l, cont r⟩ =
        (decide (l = .submit id) && attempts.next (pending k.log pid) op r) := by
      rw [isPending, pending, Monitor.after_self]
      rfl
    change answered (k.log ++ [⟨pid, l, op, r⟩]) id = s.db.attempts id +
      (as ++ ⟨pid, l, cont r⟩ :: bs).countP (isPending (k.log ++ [⟨pid, l, op, r⟩]) id)
    change s.db.attempts id + _ = _ at hbalance
    rw [answered_append, countP_middle, hothers, hself, hsplit]
    omega

/-- **Attempt counter.** In a run in which every recording statement finds its row in a status
that it names and does not fail, and no call is cut off between an answer and its recording: while
no submission of an intent is in flight, its counter is the number of submissions that a server
has answered. -/
theorem attempts_counted (P : Platform) (k : Sys) (hk : Reach (system P) countsEach k)
    (id : String) (row : IntentRow) (hf : k.state.db.find id = some row)
    (hidle : ∀ t ∈ k.pool, t.label ≠ .submit id) :
    row.submissionAttemptCount = answered k.log id := by
  have hcounted : answered k.log id = _ := reach_counted hk id
  have hnone : k.pool.countP (isPending k.log id) = 0 :=
    List.countP_eq_zero.mpr fun t ht => by simp [isPending, hidle t ht]
  rw [hnone, Db.attempts, hf] at hcounted
  exact hcounted.symm

end Run

/-- Two submissions that are recorded one after the other. -/
theorem attempts_counted_twice : ∃ (k : Sys) (row : IntentRow),
    k.state.db.find "i5" = some row ∧ row.submissionAttemptCount = 2 ∧
      row.submissionAttemptCount = answered k.log "i5" := by
  obtain ⟨k, -, hk, hφ⟩ := exists_of_play Sample.platform countsEach []
    (Sample.signedIntent 3 ++ Sample.submitted 4 3 3 "tesSUCCESS" ++
      Sample.submitted 5 3 2 "tesSUCCESS")
    (fun k => k.pool.isEmpty && (k.state.db.find "i5").any fun r => r.submissionAttemptCount = 2)
    (by decide +kernel)
  obtain ⟨hidle, hrow⟩ := Bool.and_eq_true_iff.mp hφ
  obtain ⟨row, hf, hcount⟩ := (Option.any_eq_true _ _).mp hrow
  have hpool : k.pool = [] := List.isEmpty_iff.mp hidle
  exact ⟨k, row, hf, of_decide_eq_true hcount,
    attempts_counted Sample.platform k hk "i5" row hf (by rw [hpool]; simp)⟩

/-- The transaction is validated between its submission's answer and the recording of it, which
then does not apply. -/
theorem attempts_lost : ¬ ∀ (k : Sys) (id : String) (row : IntentRow),
    Reach (system Sample.platform) anyStep k → k.state.db.find id = some row →
    (∀ t ∈ k.pool, t.label ≠ .submit id) → row.submissionAttemptCount = answered k.log id := by
  intro hevery
  obtain ⟨k, -, hk, hφ⟩ := exists_of_play Sample.platform anyStep []
    (Sample.signedIntent 3 ++ Sample.submitting 4 3 3 "tesSUCCESS" ++
      Sample.searched 5 4 (Sample.foundAnswer 5 4) ++ Sample.tick 5 3 ++ [.finish 5] ++
      Sample.tick 4 2 ++ [.finish 4])
    (fun k => k.pool.isEmpty && answered k.log "i5" = 1 &&
      (k.state.db.find "i5").any fun r => r.submissionAttemptCount = 0) (by decide +kernel)
  simp only [Bool.and_eq_true, decide_eq_true_eq, Option.any_eq_true] at hφ
  obtain ⟨⟨hidle, hone⟩, row, hf, hzero⟩ := hφ
  have hpool : k.pool = [] := List.isEmpty_iff.mp hidle
  have hcount := hevery k "i5" row hk hf (by rw [hpool]; simp)
  rw [hone, hzero] at hcount
  cases hcount

end Orchestrator
