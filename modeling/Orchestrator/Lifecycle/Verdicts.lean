import Orchestrator.Lifecycle.Failures
import Orchestrator.Lifecycle.Replies

/-!
# What an answer tells about an intent

Some answers of `prepare` and `attachSignature` tell how the intent has ended: that it expired, or
that it failed, and why. The code gives them after a transition to that end, whether or not the
transition has applied.

* `Verdict`, `Failure.Tells`: what an answer tells; `Db.Ended`: what is the case;
* `Shows`, `benign_shows`: what a reply shows, if every such transition settles the intent;
* `given_attachSignature_tells`, `given_prepare_tells`: the calls tell what they were shown;
* **`verdicts_true`** and **`verdict_false`**: with the condition, and without it.
-/

namespace Orchestrator

open Interleave

/-- How an intent has ended. -/
inductive Verdict where
  | expired
  | failed (code : FailureCode)
  deriving DecidableEq

def IntentRow.Ended (row : IntentRow) : Verdict → Prop
  | .expired => row.status = .expired
  | .failed code => row.status = .failed ∧ row.failureCode = some code

/-- The row of intent `id` has ended so. -/
def Db.Ended (db : Db) (id : String) (v : Verdict) : Prop :=
  ∃ row, db.find id = some row ∧ row.Ended v

/-- `s.endsWith(p)`. -/
def endsWith (s p : String) : Bool := p.toList.isSuffixOf s.toList

/-- How a message ends that tells of a failure. -/
def failedWith (code : FailureCode) : String := "the intent failed with " ++ code.name ++ "."

/-- The answer tells that the intent has ended so. -/
def Failure.Tells : Failure → Verdict → Prop
  | .api .intentExpired _ _, .expired => True
  | .api .invalidIntentState message _, .failed code => endsWith message (failedWith code) = true
  | _, _ => False

/-- The transition is to that end. -/
def TransitionRequest.Ends (request : TransitionRequest) : Verdict → Prop
  | .expired => request.toStatus = .expired
  | .failed code => request.toStatus = .failed ∧ request.patch.failureCode = some code

/-- The intent that a `prepare` or an `attachSignature` is about. -/
def Call.asks : Call → Option String
  | .prepare id => some id
  | .attachSignature id _ => some id
  | _ => none

/-- The answer tells what is not the case. -/
def Lies (db : Db) (id : String) (e : Failure) : Prop := ∃ v, e.Tells v ∧ ¬ db.Ended id v

/-! ## Messages -/

theorem endsWith_status (status : Status) (code : FailureCode) :
    endsWith ("The intent is " ++ status.name ++ ".") (failedWith code) = false := by
  cases code <;> revert status <;> decide

theorem endsWith_mismatch {code : FailureCode} (h : endsWith
    "Simulation returned a different transaction; the intent failed with SIMULATION_ARTIFACT_MISMATCH."
    (failedWith code) = true) : code = .simulationArtifactMismatch := by
  cases code with
  | simulationArtifactMismatch => rfl
  | _ => exact absurd h (by decide)

theorem endsWith_sequence {code code' : FailureCode} (h : endsWith
    ("The source account Sequence changed; the intent failed with " ++ code.name ++ ".")
    (failedWith code') = true) : code' = code := by
  cases code <;> cases code' <;> first | rfl | exact absurd h (by decide)

/-! ## What replies show -/

/-- The row is one of intent `id`, and has not ended otherwise than the intent has. -/
def Known (db : Db) (id : String) (row : IntentRow) : Prop :=
  row.id = id ∧ ∀ v, row.Ended v → db.Ended id v

/-- The ends that a reply shows are those of the table. -/
def Shows (db : Db) : (op : Op) → op.Ret → Prop
  | .findById id, r => ∀ row, r = .ok (some row) → Known db id row
  | .transition id request, r => (∀ row, r = .ok (some row) → Known db id row) ∧
    ∀ out v, r = .ok out → request.Ends v → db.Ended id v
  | _, _ => True

section Shows

variable {P : Platform} {db db' : Db} {id : String} {row : IntentRow} {v : Verdict}

theorem tolerant_lies (db : Db) (id : String) : Tolerant (Lies db id) := by
  rintro code message details hc ⟨v, ht, -⟩
  unfold Failure.Tells at ht
  split at ht
  · next he => cases he; exact hc (by decide)
  · next he => cases he; exact hc (by decide)
  · exact ht

theorem not_lies_internal (message : String) : ¬ Lies db id (.internal message) :=
  fun ⟨_, ht, _⟩ => ht

theorem not_lies_failure (e : DbError) : ¬ Lies db id e.failure := by
  cases e <;> exact not_lies_internal _

theorem benign_shows (db : Db) (id : String) : Benign (Shows db) (Lies db id) where
  api := tolerant_lies db id
  receive _ _ _ := not_lies_internal _
  switchEndpoint _ _ _ := not_lies_internal _
  findById _ e _ := not_lies_failure e
  findByStatuses _ e _ := not_lies_failure e
  transition _ _ e _ _ := not_lies_failure e
  updateInStatus _ _ _ e _ := not_lies_failure e
  createIdempotent _ e _ := not_lies_failure e

/-- An answer that an intent expired is true of one that did. -/
theorem not_lies_expired (h : db.Ended id .expired) (message : String) (details : Option Record) :
    ¬ Lies db id (.api .intentExpired message details) := by
  rintro ⟨v, ht, hn⟩
  cases v with
  | expired => exact hn h
  | failed code => exact ht

/-- The answer that names the status tells no end. -/
theorem not_lies_status (status : Status) :
    ¬ Lies db id (ApiError .invalidIntentState ("The intent is " ++ status.name ++ ".")) := by
  rintro ⟨v, ht, -⟩
  cases v with
  | expired => exact ht
  | failed code => exact Bool.false_ne_true ((endsWith_status status code).symm.trans ht)

/-- An answer that an intent failed is true of one that did, for the reason it gives. -/
theorem not_lies_failed {message : String} {code : FailureCode} (h : db.Ended id (.failed code))
    (hm : ∀ code', endsWith message (failedWith code') = true → code' = code) :
    ¬ Lies db id (ApiError .invalidIntentState message) := by
  rintro ⟨v, ht, hn⟩
  cases v with
  | expired => exact ht
  | failed code' => exact hn (hm code' ht ▸ h)

theorem IntentRow.Ended.isTerminal (h : row.Ended v) : isTerminal row.status = true := by
  cases v with
  | expired => rw [show row.status = .expired from h]; rfl
  | failed code => rw [h.1]; rfl

theorem Db.Ended.mono (h : db.Ended id v) (hle : db.Le db') : db'.Ended id v := by
  obtain ⟨row, hf, hv⟩ := h
  obtain ⟨row', hf', hrow⟩ := hle id row hf
  exact ⟨row', hf', hrow.eq_of_isTerminal hv.isTerminal ▸ hv⟩

theorem Known.mono (h : Known db id row) (hle : db.Le db') : Known db' id row :=
  ⟨h.1, fun v hv => (h.2 v hv).mono hle⟩

theorem Shows.mono {op : Op} {r : op.Ret} (h : Shows db op r) (hle : db.Le db') :
    Shows db' op r := by
  cases op with
  | findById id => exact fun row hr => (h row hr).mono hle
  | transition id request =>
    exact ⟨fun row hr => (h.1 row hr).mono hle, fun out v hr hv => (h.2 out v hr hv).mono hle⟩
  | _ => trivial

end Shows

/-! ## The calls -/

section Calls

variable (P : Platform) (db : Db) {id : String} {row : IntentRow}

theorem given_required_tells {α : Type} (id : String) (value : Option α) (column : String) :
    (required value column).Given (Shows db) (Clean (Lies db id) fun _ => True) := by
  cases value with
  | none => exact not_lies_internal _
  | some v => exact trivial

theorem spares_settledAnswer_lies (hrow : Known db id row) (txBlob : String) :
    Spares (Lies db id) (settledAnswer P row txBlob) := by
  unfold settledAnswer
  split
  · exact spares_ok _
  · split_ifs
    · exact spares_ok _
    · exact spares_api (tolerant_lies db id) (by decide)
  · split_ifs
    · exact spares_ok _
    · exact spares_api (tolerant_lies db id) (by decide)
  · split_ifs
    · exact spares_ok _
    · exact spares_api (tolerant_lies db id) (by decide)
  · next hs =>
    rintro e ⟨⟩
    exact not_lies_expired (hrow.2 .expired hs) _ _
  · rintro e ⟨⟩
    exact not_lies_status _

theorem given_settleSignature_tells (id : String) (row : IntentRow) (verified : VerifiedSignedBlob)
    (account : AccountInfo) (sequence last : ℕ) :
    (settleSignature P id row verified account sequence last).Given (Shows db)
      (Clean (Lies db id) fun _ => True) := by
  have hb := benign_shows db id
  have hauthorized := given_ofExcept (A := Shows db) (spares_assertAuthorized hb.api
    (P := P) verified.signingPubKey row.sourceAccount account)
  refine (given_ledgerIndexOf hb account).seq fun n _ => ?_
  split_ifs
  · refine (given_transition hb id _ (by rfl)).seq fun out hout => ?_
    exact not_lies_expired (hout.2 out .expired rfl rfl) _ _
  · refine hauthorized.seq fun _ _ => (given_transition hb id _ (by rfl)).seq fun out hout => ?_
    exact not_lies_failed (hout.2 out (.failed _) rfl ⟨rfl, rfl⟩) fun code' => endsWith_sequence
  · refine hauthorized.seq fun _ _ => given_now.seq fun t _ => ?_
    exact (given_transition hb id _ (by rfl)).clean fun _ _ => trivial

/-- **`attachSignature` tells what it was shown.** -/
theorem given_attachSignature_tells (id txBlob : String) :
    (attachSignature P id txBlob).Given (Shows db) (Clean (Lies db id) fun _ => True) := by
  have hb := benign_shows db id
  refine (given_load hb id).seq fun row hrow => ?_
  refine (given_ofExcept (spares_settledAnswer_lies P db (hrow row rfl) txBlob)).seq
    fun answer _ => ?_
  cases answer with
  | some answer => exact trivial
  | none =>
    refine (given_assertRecovered hb).seq fun _ _ => ?_
    refine (given_required_tells db id _ _).seq fun preparedTxBlob _ => ?_
    refine (given_required_tells db id _ _).seq fun sequence _ => ?_
    refine (given_required_tells db id _ _).seq fun last _ => ?_
    refine (given_ofExcept (spares_verify hb.api (fun _ _ => not_lies_internal _) _ _)).seq
      fun verified _ => ?_
    refine (given_validatedAccountInfo hb _).seq fun account _ => ?_
    cases account with
    | none => exact hb.api _ _ _ (by decide)
    | some account =>
      refine (given_settleSignature_tells P db id row verified account sequence last).seq
        fun out _ => ?_
      cases out with
      | some signed => exact trivial
      | none =>
        refine (given_load hb id).seq fun current hcurrent => ?_
        refine (given_ofExcept (spares_settledAnswer_lies P db (hcurrent current rfl) txBlob)).seq
          fun answer _ => ?_
        cases answer with
        | some answer => exact trivial
        | none => exact not_lies_status _

/-- The row that a step of `prepare` goes on with. -/
def Continues (out : Option IntentRow) : Prop := ∀ next, out = some next → Known db id next

theorem given_transition_tells (id : String) (request : TransitionRequest)
    (hfrom : request.fromStatuses.contains .created = false) :
    (transition id request).Given (Shows db) (Clean (Lies db id) (@Continues db id)) :=
  (given_transition (benign_shows db id) id request hfrom).clean fun _ hout next hn =>
    hout.1 next (congrArg _ hn)

theorem given_prepareCreated_tells (hid : row.id = id) :
    (prepareCreated P row).Given (Shows db) (Clean (Lies db id) (@Continues db id)) := by
  have hb := benign_shows db id
  have hread : Spares (Lies db id) (asIntentPayload row.intentPayload) := by
    intro e he
    unfold asIntentPayload at he
    dsimp only at he
    split at he
    · cases he
      exact not_lies_internal _
    · split at he
      · cases he
      · cases he
        exact not_lies_internal _
  subst hid
  refine (given_assertRecovered hb).seq fun _ _ => (given_ofExcept hread).seq fun payload _ => ?_
  refine (given_validatedAccountInfo hb _).seq fun account _ => ?_
  cases account with
  | none => exact hb.api _ _ _ (by decide)
  | some validated =>
    refine (given_currentAccountInfo hb _).seq fun current _ => ?_
    refine (given_ofExcept (spares_assertQuiescent hb.api _ _)).seq fun _ _ => ?_
    refine (given_validatedLedgerIndex hb).seq fun index _ => ?_
    refine (given_cappedOpenLedgerFee hb).seq fun fee _ => ?_
    refine (given_perform _).seq fun networkId _ => ?_
    refine (given_ofExcept (spares_buildBlob hb.api _)).seq fun txBlob _ => ?_
    refine given_now.seq fun t _ => (given_perform _).seq fun out hout => ?_
    cases out with
    | ok found => exact fun next hn => hout.1 next (congrArg _ hn)
    | error e =>
      cases e with
      | accountBusy => exact hb.api _ _ _ (by decide)
      | illegalTransition src dst => exact not_lies_internal _
      | failed => exact not_lies_internal _

theorem given_simulatePrepared_tells (hid : row.id = id) :
    (simulatePrepared P row).Given (Shows db) (Clean (Lies db id) (@Continues db id)) := by
  have hb := benign_shows db id
  have hstored : Spares (Lies db id) (storedTransaction row) := by
    intro e he
    unfold storedTransaction at he
    split at he
    · cases he
    · cases he
      exact not_lies_internal _
  subst hid
  refine (given_assertRecovered hb).seq fun _ _ => (given_ofExcept hstored).seq fun t _ => ?_
  refine (given_required_tells db row.id _ _).seq fun last _ => ?_
  refine (given_validatedLedgerIndex hb).seq fun n _ => ?_
  split_ifs
  · refine (given_transition hb row.id _ (by rfl)).seq fun out hout => ?_
    exact not_lies_expired (hout.2 out .expired rfl rfl) _ _
  have hsimulate : (simulate t).Given (Shows db) (Clean (Lies db row.id) fun _ => True) :=
    (given_orThrow fun _ _ => not_lies_internal _).seq fun canonical _ =>
      given_ask hb _ (spares_readSimulation hb.api canonical)
  refine hsimulate.seq fun out _ => ?_
  dsimp only
  split_ifs
  · refine (given_transition hb row.id _ (by rfl)).seq fun out hout => ?_
    exact not_lies_failed (hout.2 out (.failed .simulationArtifactMismatch) rfl ⟨rfl, rfl⟩)
      fun code' => endsWith_mismatch
  · exact given_now.seq fun t _ => given_transition_tells db row.id _ (by rfl)

theorem given_completeSimulation_tells (hid : row.id = id) :
    (completeSimulation row).Given (Shows db) (Clean (Lies db id) (@Continues db id)) := by
  subst hid
  refine (given_required_tells db row.id _ _).seq fun engineResult _ => ?_
  split_ifs
  · exact given_transition_tells db row.id _ (by rfl)
  · refine (given_transition_tells db row.id _ (by rfl)).seq fun out _ => ?_
    cases out with
    | none => exact fun next hn => nomatch hn
    | some next => exact (benign_shows db row.id).api _ _ _ (by decide)

theorem given_prepareStep_tells (hrow : Known db id row) :
    (prepareStep P row).Given (Shows db)
      (Clean (Lies db id) fun out => ∀ next, out = .row next → Known db id next) := by
  have step {p : Service (Option IntentRow)}
      (hp : p.Given (Shows db) (Clean (Lies db id) (@Continues db id))) :
      (StepResult.ofRow? <$> p).Given (Shows db)
        (Clean (Lies db id) fun out => ∀ next, out = .row next → Known db id next) := by
    refine hp.seq fun out hout => ?_
    cases out with
    | none => exact fun next h => nomatch h
    | some next => exact fun next' h => hout next' (congrArg _ (StepResult.row.inj h))
  unfold prepareStep
  cases hs : row.status with
  | created => exact step (given_prepareCreated_tells P db hrow.1)
  | prepared => exact step (given_simulatePrepared_tells P db hrow.1)
  | simulated => exact step (given_completeSimulation_tells db hrow.1)
  | awaitingSignature | signed | submitted | validated => exact fun next h => nomatch h
  | expired => exact not_lies_expired (hrow.2 .expired hs) _ _
  | rejected | failed => exact not_lies_status _

/-- The loop of `prepare`, by induction on the steps that are left. -/
theorem given_prepareLoop_tells (id : String) (steps : ℕ) (hrow : Known db id row) :
    (prepareLoop P id steps row).Given (Shows db) (Clean (Lies db id) fun _ => True) := by
  induction steps generalizing row with
  | zero => exact not_lies_internal _
  | succ steps ih =>
    refine (given_prepareStep_tells P db hrow).seq fun out hout => ?_
    cases out with
    | done => exact trivial
    | row next => exact ih (hout next rfl)
    | reread => exact (given_load (benign_shows db id) id).seq fun row' hrow => ih (hrow row' rfl)

/-- **`prepare` tells what it was shown.** -/
theorem given_prepare_tells (id : String) :
    (prepare P id).Given (Shows db) (Clean (Lies db id) fun _ => True) :=
  (given_load (benign_shows db id) id).seq fun row hrow =>
    given_prepareLoop_tells P db id _ (hrow row rfl)

end Calls

/-! ## Every run -/

/-- A transition of `prepare` or `attachSignature` to an end finds the row in a status it names,
or settled in the same way, unless the statement fails. -/
def settles : StepCond Op Op.Ret Failure Reply Call State
  | k, .op _ l (.transition id request) (.ok _), _ =>
    l.asks = none ∨ request.toStatus ∉ [Status.expired, .failed] ∨
      ((k.state.db.find id).all fun row => row.status ∈ request.fromStatuses ||
        (row.status = request.toStatus && row.failureCode = request.patch.failureCode)) = true
  | _, _, _ => True

instance (k : Sys) (a : Act Op Op.Ret Failure Reply Call) (k' : Sys) :
    Decidable (settles k a k') :=
  match a with
  | .op _ _ (.transition _ _) (.ok _) => inferInstanceAs (Decidable (_ ∨ _ ∨ _ = true))
  | .op _ _ (.transition _ _) (.error _) => isTrue trivial
  | .op _ _ .now _ | .op _ _ .randomUUID _ | .op _ _ .networkId _ | .op _ _ .recovered _ |
    .op _ _ (.completeCycle _) _ | .op _ _ (.send _) _ | .op _ _ (.receive _) _ |
    .op _ _ (.switchEndpoint _) _ | .op _ _ (.findById _) _ | .op _ _ (.findByStatuses _) _ |
    .op _ _ (.updateInStatus _ _ _) _ | .op _ _ (.createIdempotent _) _ => isTrue trivial
  | .start _ _ | .finish _ _ _ | .kill _ | .env | .restart => isTrue trivial

section Runs

variable {P : Platform} {k k' : Sys} {pid : ℕ} {l : Call} {op : Op} {r : op.Ret} {id : String}

/-- An applied transition to an end settles the intent. -/
theorem ended_of_ends {request : TransitionRequest} {v : Verdict} (h : request.Ends v) (t : ℕ)
    (cur : IntentRow) : (request.updated P t cur).Ended v := by
  cases v with
  | expired => exact h
  | failed code =>
    refine ⟨h.1, ?_⟩
    change request.patch.failureCode.or cur.failureCode = some code
    rw [h.2, Option.some_or]

theorem known_of_find (h : k.state.db.find id = some row) : Known k.state.db id row :=
  ⟨Db.find_id h, fun _ hv => ⟨row, h, hv⟩⟩

/-- A transition to an end that does not apply finds the intent settled. -/
theorem ended_of_settles {request : TransitionRequest} {out : Option IntentRow}
    (hl : l.asks.isSome) (hok : settles k (.op pid l (.transition id request) (.ok out)) k')
    {cur : IntentRow} (hf : k.state.db.find id = some cur)
    (hfrom : cur.status ∉ request.fromStatuses) {v : Verdict} (hv : request.Ends v) :
    cur.Ended v := by
  have hto : request.toStatus ∈ [Status.expired, .failed] := by
    cases v with
    | expired => rw [show request.toStatus = .expired from hv]; decide
    | failed code => rw [hv.1]; decide
  rcases hok with hnone | hto' | hall
  · rw [hnone] at hl
    cases hl
  · exact absurd hto hto'
  · rw [hf, Option.all_some, Bool.or_eq_true, Bool.and_eq_true] at hall
    obtain ⟨hst, hcode⟩ := hall.resolve_left (by simpa using hfrom)
    cases v with
    | expired => exact (of_decide_eq_true hst).trans hv
    | failed code =>
      exact ⟨(of_decide_eq_true hst).trans hv.1, (of_decide_eq_true hcode).trans hv.2⟩

/-- **A step whose transitions settle** shows only what is the case. -/
theorem step_shows (hk : Reach (system P) settles k) (hl : l.asks.isSome)
    (hs : Step (system P) k (.op pid l op r) k')
    (hok : settles k (.op pid l op r) k') : Shows k'.state.db op r := by
  obtain ⟨hp, hx, -⟩ := reach_permit hk hs
  cases op with
  | findById id =>
    obtain ⟨hsame, rfl | rfl⟩ := exec_findById hx
    · exact fun row hrow => nomatch hrow
    · intro row hrow
      rw [hsame]
      exact known_of_find (Except.ok.inj hrow)
  | transition id request =>
    obtain ⟨c, hc, rfl, hm⟩ := hp
    rcases transition_step (reach_ok hk) hc hm hx with
      ⟨hsame, hnone, hfrom⟩ | ⟨cur, t, hf, -, -, -, -, -, hle, rfl, hst⟩
    · refine ⟨fun row hrow => absurd hrow (hnone row), fun out v hout hv => ?_⟩
      obtain ⟨-, cur, hf, -⟩ := hc
      cases out with
      | some row => exact absurd hout (hnone row)
      | none =>
        subst hout
        rw [hsame]
        exact ⟨cur, hf, ended_of_settles hl hok hf (hfrom rfl cur hf) hv⟩
    · have hf' : k'.state.db.find c.id = some (request.updated P t cur) := by
        rw [hst]
        exact (Db.find_written hf hle c.id).trans (if_pos rfl)
      refine ⟨fun row hrow => ?_, fun out v _ hv => ⟨_, hf', ended_of_ends hv t cur⟩⟩
      cases hrow
      exact known_of_find hf'
  | _ => trivial

/-- **In every run whose transitions settle**, the replies to these calls show what is the case. -/
theorem reach_shows (hk : Reach (system P) settles k) :
    ∀ e ∈ k.log, e.label.asks.isSome → Shows k.state.db e.op e.ret := by
  refine hk.inv (P := fun k => ∀ e ∈ k.log, e.label.asks.isSome → Shows k.state.db e.op e.ret)
    (by simp) ?_
  intro k a k' hk ih hs hok e he hl
  have hle := (lifecycle P).step_rely (reach_holds hk) hs
  rcases step_log hs with hlog | ⟨pid, l, op, r, rfl, hlog⟩
  · exact (ih e (hlog ▸ he) hl).mono hle.1
  · rcases List.mem_append.mp (hlog ▸ he) with he | he
    · exact (ih e he hl).mono hle.1
    · obtain rfl := List.mem_singleton.mp he
      exact step_shows hk hl hs hok

end Runs

/-- **Truthful answers.** In every run in which each transition of `prepare` or `attachSignature`
to an end finds the row in a status it names, or settled in the same way: whenever one of these
calls answers that the intent expired, it is `EXPIRED`, and whenever one answers that it failed
with a code, it is `FAILED` with that code. -/
theorem verdicts_true (P : Platform) (k k' : Sys) (hk : Reach (system P) settles k) (pid : ℕ)
    (l : Call) (id : String) (hl : l.asks = some id) (e : Failure) (v : Verdict)
    (ht : e.Tells v) (hs : Step (system P) k (.finish pid l (.error e)) k') :
    k.state.db.Ended id v := by
  by_contra hn
  have hbody (l : Call) : ((system P).body l).Given (Shows k.state.db)
      fun out => ∀ id, l.asks = some id → Clean (Lies k.state.db id) (fun _ => True) out := by
    cases l with
    | prepare id =>
      have htells : ((system P).body (.prepare id)).Given (Shows k.state.db)
          (Clean (Lies k.state.db id) fun _ => True) :=
        (given_prepare_tells P k.state.db id).seq fun _ _ => trivial
      refine htells.mono ?_
      rintro out hout _ ⟨⟩
      exact hout
    | attachSignature id txBlob =>
      have htells : ((system P).body (.attachSignature id txBlob)).Given (Shows k.state.db)
          (Clean (Lies k.state.db id) fun _ => True) :=
        (given_attachSignature_tells P k.state.db id txBlob).seq fun _ _ => trivial
      refine htells.mono ?_
      rintro out hout _ ⟨⟩
      exact hout
    | _ => exact Prog.Given.any _ fun out id h => nomatch h
  have hshown : ∀ e ∈ own pid k.log, Shows k.state.db e.op e.ret := by
    intro e he
    obtain ⟨hmem, hpid⟩ := List.mem_filter.mp he
    refine reach_shows hk e hmem ?_
    rw [hk.finish_label hs hmem (by simpa using hpid), hl]
    rfl
  exact hk.outcome hbody hs hshown id hl ⟨v, ht, hn⟩

namespace Sample

/-- A call that attaches the blob to `i5` tells that the intent has expired. -/
def saysExpired (call : ℕ) : Act Op Op.Ret Failure Reply Call → Bool
  | .finish pid l (.error (.api .intentExpired _ _)) =>
    pid = call && l = .attachSignature "i5" "05AB"
  | _ => false

end Sample

/-- A signature comes when the window has passed: the intent is `EXPIRED`, and the caller is told
so. -/
theorem verdicts_true_expired : ∃ (k k' : Sys) (e : Failure), e.Tells .expired ∧
    Step (system Sample.platform) k
      (.finish 3 (.attachSignature "i5" "05AB") (.error e)) k' ∧ k.state.db.Ended "i5" .expired := by
  obtain ⟨k, a, k', hk, hs, hφ⟩ := exists_step_of_play Sample.platform settles []
    (Sample.recovered 0 3 ++ Sample.created 1 "i5" ++ Sample.prepared 2 "i5" 5 3 ++
      [.start (.attachSignature "i5" "05AB")] ++ Sample.tick 3 2 ++
      Sample.told 3 (Sample.accountAnswer 5 24) ++ Sample.tick 3 1) (.finish 3)
    (fun _ a _ => Sample.saysExpired 3 a) (by decide +kernel)
  unfold Sample.saysExpired at hφ
  split at hφ
  · next pid l message details =>
    obtain ⟨hpid, hl⟩ := Bool.and_eq_true_iff.mp hφ
    obtain rfl := of_decide_eq_true hpid
    obtain rfl := of_decide_eq_true hl
    have ht : Failure.Tells (.api .intentExpired message details) .expired := trivial
    exact ⟨k, k', _, ht, hs, verdicts_true Sample.platform k k' hk 3 _ "i5" rfl _ .expired ht hs⟩
  · cases hφ

/-- Two calls attach the same blob. One stores it; the other reads the account from a ledger past
the window, its transition finds the row in `SIGNED`, and it answers that the intent expired. -/
theorem verdict_false : ¬ ∀ (k k' : Sys) (pid : ℕ) (l : Call) (id : String) (e : Failure)
    (v : Verdict), Reach (system Sample.platform) anyStep k → l.asks = some id → e.Tells v →
    Step (system Sample.platform) k (.finish pid l (.error e)) k' → k.state.db.Ended id v := by
  intro hevery
  obtain ⟨k, a, k', hk, hs, hφ⟩ := exists_step_of_play Sample.platform anyStep []
    (Sample.recovered 0 3 ++ Sample.created 1 "i5" ++ Sample.prepared 2 "i5" 5 3 ++
      [.start (.attachSignature "i5" "05AB"), .start (.attachSignature "i5" "05AB")] ++
      Sample.tick 4 2 ++ Sample.tick 3 2 ++ Sample.told 3 (Sample.accountAnswer 5 3) ++
      Sample.tick 3 2 ++ Sample.told 4 (Sample.accountAnswer 5 24) ++ Sample.tick 4 1) (.finish 4)
    (fun k a _ => Sample.saysExpired 4 a &&
      (k.state.db.find "i5").any fun row => row.status = .signed) (by decide +kernel)
  rw [Bool.and_eq_true_iff] at hφ
  obtain ⟨hφ, hrow⟩ := hφ
  unfold Sample.saysExpired at hφ
  split at hφ
  · next pid l message details =>
    obtain ⟨-, hl⟩ := Bool.and_eq_true_iff.mp hφ
    obtain rfl := of_decide_eq_true hl
    obtain ⟨row, hf, hst⟩ := (Option.any_eq_true _ _).mp hrow
    have ht : Failure.Tells (.api .intentExpired message details) .expired := trivial
    obtain ⟨row', hf', hended⟩ := hevery k k' pid _ "i5" _ .expired hk rfl ht hs
    obtain rfl := Option.some.inj (hf.symm.trans hf')
    cases (of_decide_eq_true hst).symm.trans hended
  · cases hφ

end Orchestrator
