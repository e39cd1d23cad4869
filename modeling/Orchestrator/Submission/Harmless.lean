import Orchestrator.Interleave.Path
import Orchestrator.Lifecycle.Watch

/-!
# What a call of `submit` does

Every round of `submit` ends the call or finds the intent further on, and a round that has moved the
intent finds it at its end. So the rounds do not run out, and a call that ends in `XRPL_UNAVAILABLE`
has written notes of attempts only.

* `roundsLeft`: the rounds that a status leaves;
* `watches_resolveSigned`, `watches_submitSigned`, **`watches_submit`**: what a call ends with;
* `Db.Noted`, **`unavailable_harmless`**: what a failed call has written.
-/

namespace Orchestrator

open Interleave

/-! ## One round -/

section Round

variable {P : Platform} {A : (op : Op) → op.Ret → Bool} {id : String} {w : Watch} {row : IntentRow}

/-- The rounds of `submit` that end at the latest from a status on. -/
def roundsLeft : Status → ℕ
  | .signed => 3
  | .submitted => 2
  | _ => 1

theorem roundsLeft_terminal : ∀ s : Status, isTerminal s = true → roundsLeft s = 1 := by decide

/-- A status from which the intent is not to be moved again. -/
def Settles (known : Knowledge) : Prop :=
  ∃ statuses, known = .among statuses ∧ ∀ s ∈ statuses, isTerminal s = true

theorem later_terminal : ∀ s : Status, isTerminal s = true → ∀ t ∈ s.later, isTerminal t = true := by
  decide

theorem later_missed : ∀ s ∈ signedActiveStatuses, ∀ t ∈ later (s.later.filter fun s =>
    !signedActiveStatuses.contains s), isTerminal t = true := by
  decide

/-- A transition to an end settles the intent, whether it applies or not. -/
theorem watches_settle (hs : row.status ∈ signedActiveStatuses)
    (hknown : w.known = .among row.status.later) {request : TransitionRequest}
    (hfrom : request.fromStatuses = signedActiveStatuses) (hto : isTerminal request.toStatus = true)
    (hchanged : w.changed = false) :
    Watches A id w (fun out w' => w'.loads = w.loads ∧
      match out with
      | .ok _ => Settles w'.known
      | .error _ => w'.changed = false) (transition id request) := by
  refine watches_transition (fun row' _ hstatus => ⟨rfl, row'.status.later, ?_, ?_⟩)
    ⟨rfl, _, ?_, later_missed row.status hs⟩ fun e => ⟨rfl, hchanged⟩
  · simp only [hknown, Knowledge.moved]
  · exact later_terminal _ (hstatus ▸ hto)
  · simp only [hknown, Knowledge.missed, hfrom]

/-- What an outcome of `resolveSigned` has left. -/
def Resolved (w : Watch) (out : Except Failure SignedOutcome) (w' : Watch) : Prop :=
  w'.loads = w.loads ∧
    match out with
    | .ok outcome =>
      if outcome = .pending ∨ outcome = .unprovable then w' = w else Settles w'.known
    | .error _ => w'.changed = false

theorem resolved_open {outcome : SignedOutcome} (h : outcome = .pending ∨ outcome = .unprovable) :
    Resolved w (.ok outcome) w :=
  ⟨rfl, by simp only [if_pos h]⟩

theorem watches_settled {outcome : SignedOutcome} {request : TransitionRequest}
    (hs : row.status ∈ signedActiveStatuses) (hknown : w.known = .among row.status.later)
    (hfrom : request.fromStatuses = signedActiveStatuses) (hto : isTerminal request.toStatus = true)
    (hchanged : w.changed = false) (hout : ¬ (outcome = .pending ∨ outcome = .unprovable)) :
    Watches A id w (Resolved w) (transition id request >>= fun _ => pure outcome) := by
  refine (watches_settle hs hknown hfrom hto hchanged).bind
    (fun _ w' h => watches_ret outcome ⟨h.1, ?_⟩) fun _ _ h => h
  simp only
  rw [if_neg hout]
  exact h.2

theorem watches_applyProvenAbsent (hid : row.id = id) (hs : row.status ∈ signedActiveStatuses)
    (hknown : w.known = .among row.status.later) (hchanged : w.changed = false) (last : ℕ) :
    Watches A id w (Resolved w) (applyProvenAbsent row last) := by
  subst hid
  refine watches_after (performs_required _ _) (fun _ => ⟨rfl, hchanged⟩) fun sequence => ?_
  refine watches_after (performs_ask _ _ trivial trivial) (fun _ => ⟨rfl, hchanged⟩) fun account => ?_
  dsimp only
  split_ifs
  · exact watches_ret _ (resolved_open (.inl rfl))
  · exact watches_settled hs hknown rfl rfl hchanged (by decide)
  · exact watches_settled hs hknown rfl rfl hchanged (by decide)
  · exact watches_settled hs hknown rfl rfl hchanged (by decide)

theorem watches_applyFound (hid : row.id = id) (hs : row.status ∈ signedActiveStatuses)
    (hknown : w.known = .among row.status.later) (hchanged : w.changed = false)
    (lookup : TxLookup) (raw : Record) :
    Watches A id w (Resolved w) (applyFound P row lookup raw) := by
  subst hid
  unfold applyFound
  split_ifs
  · exact watches_ret _ (resolved_open (.inl rfl))
  refine watches_after (performs_required _ _) (fun _ => ⟨rfl, hchanged⟩) fun hash => ?_
  refine watches_after (performs_required _ _) (fun _ => ⟨rfl, hchanged⟩) fun prepared => ?_
  refine watches_after (performs_required _ _) (fun _ => ⟨rfl, hchanged⟩) fun last => ?_
  split
  · exact watches_settled hs hknown rfl rfl hchanged (by decide)
  split_ifs
  · exact watches_settled hs hknown rfl rfl hchanged (by decide)
  split
  · exact watches_settled hs hknown rfl rfl hchanged (by decide)
  split_ifs
  · exact watches_settled hs hknown rfl rfl hchanged (by decide)
  · refine watches_after (Prog.performs_perform trivial) (fun _ => ⟨rfl, hchanged⟩) fun t => ?_
    exact watches_settled hs hknown rfl rfl hchanged (by decide)

theorem watches_applySearch (hid : row.id = id) (hs : row.status ∈ signedActiveStatuses)
    (hknown : w.known = .among row.status.later) (hchanged : w.changed = false)
    (search : TxSearch) (n : ℕ) :
    Watches A id w (Resolved w) (applySearch P row search n) := by
  cases search with
  | found lookup raw => exact watches_applyFound hid hs hknown hchanged lookup raw
  | absent searchedAll =>
    refine watches_after (performs_required _ _) (fun _ => ⟨rfl, hchanged⟩) fun last => ?_
    split_ifs
    · exact watches_ret _ (resolved_open (.inl rfl))
    · exact watches_ret _ (resolved_open (.inr rfl))
    · exact watches_applyProvenAbsent hid hs hknown hchanged last

/-- Resolving an intent leaves everything as it was, or settles it. -/
theorem watches_resolveSigned (hid : row.id = id) (hs : row.status ∈ signedActiveStatuses)
    (hknown : w.known = .among row.status.later) (hchanged : w.changed = false)
    (n switchBudget : ℕ) :
    Watches A id w (fun out w' => Resolved w (out.map (·.1)) w')
      (resolveSigned P row n switchBudget) := by
  have happly (search : TxSearch) (budget : ℕ) :
      Watches A id w (fun out w' => Resolved w (out.map (·.1)) w')
        (applySearch P row search n >>= fun outcome => pure (outcome, budget)) :=
    (watches_applySearch hid hs hknown hchanged search n).bind
      (fun outcome _ h => watches_ret (outcome, budget) h) fun _ _ h => h
  refine watches_after (performs_required _ _) (fun _ => ⟨rfl, hchanged⟩) fun hash => ?_
  refine watches_after (performs_required _ _) (fun _ => ⟨rfl, hchanged⟩) fun prepared => ?_
  refine watches_after (performs_required _ _) (fun _ => ⟨rfl, hchanged⟩) fun last => ?_
  refine watches_after (performs_ask _ _ trivial trivial) (fun _ => ⟨rfl, hchanged⟩) fun search => ?_
  split_ifs
  · refine watches_after ⟨trivial, fun _ => performs_orThrow _ _⟩ (fun _ => ⟨rfl, hchanged⟩)
      fun _ => ?_
    refine watches_after (performs_ask _ _ trivial trivial) (fun _ => ⟨rfl, hchanged⟩)
      fun search' => ?_
    exact happly search' _
  · exact happly search _

/-- What one round has left: the row that it has recorded its answer on, or an intent that is
further on and is not moved again if the round has moved it. -/
def RoundEnds (row : IntentRow) (w : Watch) (out : Except Failure (Option IntentRow))
    (w' : Watch) : Prop :=
  w'.loads = w.loads ∧
    match out with
    | .ok (some next) => w'.recorded = some next
    | .ok none => ∃ statuses, w'.known = .among statuses ∧
      (∀ s ∈ statuses, roundsLeft s < roundsLeft row.status) ∧
      (w'.changed = true → ∀ s ∈ statuses, isTerminal s = true)
    | .error _ => w'.changed = false

theorem watches_recordSubmit (hid : row.id = id) (hs : row.status ∈ signedActiveStatuses)
    (hknown : Knowledge.Within row.status w.known) (hchanged : w.changed = false)
    (result : SubmitResult) (raw : Record) (t : ℕ) :
    Watches A id w (RoundEnds row w) (recordSubmit row result raw t) := by
  subst hid
  have hmove (request : TransitionRequest) (hrow : row.status = .signed)
      (hfrom : request.fromStatuses = [.signed])
      (hpatch : request.patch.submissionAttemptCount = true) :
      Watches A row.id w (RoundEnds row w) (transition row.id request) := by
    refine watches_transition (fun next _ _ => ⟨rfl, ?_⟩) ⟨rfl, ?_⟩ fun _ => ⟨rfl, hchanged⟩
    · simp [hpatch]
    · obtain ⟨statuses, hst, hall⟩ := hknown.missed [.signed]
      have hlt : ∀ s t : Status, Status.Leads .signed s → s ∉ [Status.signed] → s.Leads t →
          roundsLeft t < roundsLeft .signed := by decide
      refine ⟨statuses, by rw [hfrom]; exact hst, fun u hu => ?_, fun hc => ?_⟩
      · obtain ⟨s, hs, hn, hsu⟩ := hall u hu
        rw [hrow] at hs ⊢
        exact hlt s u hs hn hsu
      · cases hchanged.symm.trans hc
  unfold recordSubmit
  split_ifs with hrow
  · exact hmove _ hrow rfl rfl
  · exact hmove _ hrow rfl rfl
  · have hsub : row.status = .submitted := by
      revert hs hrow
      cases row.status <;> decide
    refine watches_updateInStatus (fun next _ => ⟨rfl, rfl⟩) ⟨rfl, ?_⟩ fun _ => ⟨rfl, hchanged⟩
    obtain ⟨statuses, hst, hall⟩ := hknown.missed [.submitted]
    have hlt : ∀ s t : Status, Status.Leads .submitted s → s ∉ [Status.submitted] → s.Leads t →
        roundsLeft t < roundsLeft .submitted := by decide
    refine ⟨statuses, hst, fun u hu => ?_, fun hc => ?_⟩
    · obtain ⟨s, hs, hn, hsu⟩ := hall u hu
      rw [hsub] at hs ⊢
      exact hlt s u hs hn hsu
    · cases hchanged.symm.trans hc

/-- Storing the baseline notes an attempt, and tells at most that the intent is further on. -/
theorem watches_recordBaseline (hid : row.id = id) (hknown : Knowledge.Within row.status w.known)
    (n : ℕ) :
    Watches A id w (fun out w' => w'.loads = w.loads ∧ w'.changed = w.changed ∧
      (out.isOk = true → Knowledge.Within row.status w'.known)) (recordBaseline row n) := by
  subst hid
  unfold recordBaseline
  split_ifs
  · refine Watches.bind (R := fun out w' => w'.loads = w.loads ∧ w'.changed = w.changed ∧
        (out.isOk = true → Knowledge.Within row.status w'.known))
      (watches_updateInStatus (fun next hc => ⟨rfl, Bool.or_false _, fun _ => ?_⟩)
        ⟨rfl, rfl, fun _ => ?_⟩ fun e => ⟨rfl, rfl, fun h => nomatch h⟩)
      (fun _ w' h => watches_ret () ⟨h.1, h.2.1, fun _ => h.2.2 rfl⟩)
      fun e w' h => ⟨h.1, h.2.1, fun h => nomatch h⟩
    · exact (hknown.seen hc).1
    · obtain ⟨statuses, hst, hall⟩ := hknown.missed [.signed]
      exact ⟨statuses, hst, fun u hu => let ⟨_, hs, _, hsu⟩ := hall u hu; hs.trans hsu⟩
  · exact watches_ret () ⟨rfl, rfl, fun _ => hknown⟩

/-- **One round.** -/
theorem watches_submitSigned (hid : row.id = id) (hs : row.status ∈ signedActiveStatuses)
    (hknown : w.known = .among row.status.later) (hchanged : w.changed = false) :
    Watches A id w (RoundEnds row w) (submitSigned P row) := by
  refine watches_after (performs_assertRecovered trivial) (fun _ => ⟨rfl, hchanged⟩) fun _ => ?_
  refine watches_after (performs_required _ _) (fun _ => ⟨rfl, hchanged⟩) fun signedTxBlob => ?_
  refine watches_after (performs_required _ _) (fun _ => ⟨rfl, hchanged⟩) fun last => ?_
  refine watches_after (performs_ask _ _ trivial trivial) (fun _ => ⟨rfl, hchanged⟩)
    fun validated => ?_
  split_ifs
  · refine (watches_resolveSigned hid hs hknown hchanged validated 1).bind (fun out w' h => ?_)
      fun e w' h => h
    obtain ⟨outcome, budget⟩ := out
    obtain ⟨hloads, h⟩ := h
    simp only [Except.map] at h
    dsimp only
    split_ifs at h ⊢
    · exact watches_fail _ ⟨hloads, h ▸ hchanged⟩
    · obtain ⟨statuses, hst, hend⟩ := h
      refine watches_ret _ ⟨hloads, statuses, hst, fun s hs' => ?_, fun _ => hend⟩
      rw [roundsLeft_terminal s (hend s hs')]
      revert hs
      cases row.status <;> decide
  · have hwithin : Knowledge.Within row.status w.known :=
      hknown ▸ Knowledge.within_later row.status
    refine (watches_recordBaseline hid hwithin validated).bind (fun _ w₁ h => ?_)
      fun e w₁ h => ⟨h.1, h.2.1.trans hchanged⟩
    obtain ⟨hloads, hkeep, hknown₁⟩ := h
    have hchanged₁ := hkeep.trans hchanged
    refine watches_after (Prog.performs_perform trivial) (fun _ => ⟨hloads, hchanged₁⟩) fun t => ?_
    refine watches_after (performs_ask _ _ trivial trivial).toExcept
      (fun _ => ⟨hloads, hchanged₁⟩) fun answer => ?_
    cases answer with
    | ok out =>
      refine (watches_recordSubmit hid hs (hknown₁ rfl) hchanged₁ out.1 out.2 t).mono
        fun out w' h => ⟨h.1.trans hloads, h.2⟩
    | error failure =>
      subst hid
      refine Watches.bind (R := fun _ w' => w'.loads = w.loads ∧ w'.changed = false)
        (watches_updateInStatus (fun _ _ => ⟨hloads, (Bool.or_false _).trans hchanged₁⟩)
          ⟨hloads, hchanged₁⟩ fun _ => ⟨hloads, hchanged₁⟩)
        (fun _ w' h => watches_fail failure h) fun _ _ h => h

/-! ## The call -/

/-- The failure of a request that no endpoint has answered well. -/
def Failure.isUnavailable : Failure → Bool
  | .api .xrplUnavailable _ _ => true
  | _ => false

/-- What reading the intent again for the next round leaves. -/
def ReadsAgain (id : String) (steps : ℕ) (out : Except Failure IntentRow) (w : Watch) : Prop :=
  match out with
  | .ok row => row.id = id ∧ w.known = .among row.status.later ∧ w.loaded = some row ∧
    w.loads + steps = submitMaxSteps + 1 ∧ roundsLeft row.status ≤ steps ∧
    (w.changed = true → isTerminal row.status = true)
  | .error e => w.loads ≤ submitMaxSteps ∧ e.isUnavailable = false

/-- What a call of `submit` ends with: an intent that it has read as validated, or the row that
recording its answer has returned; after `XRPL_UNAVAILABLE` it has changed nothing. It has loaded the
intent at most once for each round. -/
def SubmitEnds (out : Except Failure IntentRow) (w : Watch) : Prop :=
  w.loads ≤ submitMaxSteps ∧
    match out with
    | .ok row => (row.status = .validated ∧ w.loaded = some row) ∨ w.recorded = some row
    | .error e => e.isUnavailable = true → w.changed = false

theorem DbError.not_unavailable (e : DbError) : e.failure.isUnavailable = false := by
  cases e <;> rfl

theorem watches_submitLoop (steps : ℕ) (hid : row.id = id)
    (hknown : w.known = .among row.status.later) (hloaded : w.loaded = some row)
    (hloads : w.loads + steps = submitMaxSteps + 1) (hsteps : roundsLeft row.status ≤ steps)
    (hchanged : w.changed = true → isTerminal row.status = true) :
    Watches A id w SubmitEnds (submitLoop P id steps row) := by
  induction steps generalizing row w with
  | zero =>
    have hpos : ∀ s : Status, ¬ roundsLeft s ≤ 0 := by decide
    exact absurd hsteps (hpos _)
  | succ steps ih =>
    have hle : w.loads ≤ submitMaxSteps := by omega
    have hround (hs : row.status ∈ signedActiveStatuses) : Watches A id w SubmitEnds
        (submitSigned P row >>= submitNext P id steps) := by
      have htwo : ∀ s ∈ signedActiveStatuses, 2 ≤ roundsLeft s := by decide
      have hfree : w.changed = false := by
        have hopen : ∀ s ∈ signedActiveStatuses, isTerminal s = false := by decide
        by_contra hc
        have ht := hchanged (by simpa using hc)
        rw [hopen _ hs] at ht
        cases ht
      refine (watches_submitSigned hid hs hknown hfree).bind (fun next w₁ h => ?_)
        fun e w₁ h => ⟨h.1 ▸ hle, fun _ => h.2⟩
      obtain ⟨hloads₁, h⟩ := h
      cases next with
      | some next => exact watches_ret next ⟨hloads₁ ▸ hle, .inr h⟩
      | none =>
        obtain ⟨statuses, hst, hless, hend⟩ := h
        refine Watches.bind (R := ReadsAgain id steps)
          (watches_load (fun row₂ hid₂ hc => ?_) (fun e => ?_) ?_) (fun row₂ w₂ h => ?_)
          fun e w₂ h => ⟨h.1, fun he => ?_⟩
        · have hmem : row₂.status ∈ statuses := by
            by_contra hn
            rw [hst] at hc
            exact hc (if_neg hn)
          refine ⟨hid₂, ?_, rfl, ?_, ?_, fun hc => hend hc _ hmem⟩
          · simp only [hst, Knowledge.seen, if_pos hmem]
          · simp only
            omega
          · have := hless _ hmem
            omega
        · have := htwo _ hs
          refine ⟨?_, DbError.not_unavailable e⟩
          simp only
          omega
        · have := htwo _ hs
          refine ⟨?_, rfl⟩
          simp only
          omega
        · exact ih h.1 h.2.1 h.2.2.1 h.2.2.2.1 h.2.2.2.2.1 h.2.2.2.2.2
        · exact absurd (he.symm.trans h.2) (by simp)
    rw [submitLoop_succ]
    split_ifs with hv hs
    · exact watches_ret row ⟨hle, .inl ⟨hv, hloaded⟩⟩
    · exact hround hs
    · exact watches_fail _ ⟨hle, fun h => by cases h⟩

/-- **What a call of `submit` ends with.** -/
theorem watches_submit (id : String) :
    Watches A id .start (fun out w =>
      w.loads ≤ submitMaxSteps ∧
        (∀ row, out = .ok (.intent row) →
          (row.status = .validated ∧ w.loaded = some row) ∨ w.recorded = some row) ∧
        ∀ e, out = .error e → e.isUnavailable = true → w.changed = false)
      (handle P (.submit id)) := by
  have hload : Watches A id .start (fun out w => w.loads = 1 ∧ match out with
      | .ok row => row.id = id ∧ w.known = .among row.status.later ∧ w.loaded = some row ∧
        w.changed = false
      | .error e => e.isUnavailable = false) (load id) :=
    watches_load (fun row hid _ => ⟨rfl, hid, rfl, rfl, rfl⟩) (fun e => ⟨rfl, e.not_unavailable⟩)
      ⟨rfl, rfl⟩
  have hsubmit : Watches A id .start SubmitEnds (submit P id) := by
    unfold submit
    refine hload.bind (fun row w h => ?_) fun e w h => ?_
    · obtain ⟨hloads, hid, hknown, hloaded, hchanged⟩ := h
      have hthree : ∀ s : Status, roundsLeft s ≤ submitMaxSteps := by decide
      refine watches_submitLoop _ hid hknown hloaded ?_ (hthree _) fun hc => ?_
      · rw [hloads, Nat.add_comm]
      · cases hchanged.symm.trans hc
    · refine ⟨?_, fun he => absurd he (by rw [h.2]; simp)⟩
      rw [h.1]
      decide
  change Watches A id .start _ (submit P id >>= fun row => .ret (Reply.intent row))
  refine hsubmit.bind (fun row w h => watches_ret _ ⟨h.1, fun row' he => ?_, fun _ he => ?_⟩)
    fun e w h => ⟨h.1, fun _ he => ?_, fun e' he => ?_⟩
  · cases he
    exact h.2
  · cases he
  · cases he
  · cases he
    exact h.2

end Round

/-! ## What a failed call has written -/

/-- At most the notes of an attempt differ, on intents that are signed or submitted. -/
def Db.Noted (db db' : Db) : Prop :=
  db'.audit = db.audit ∧ ∀ id, db'.find id = db.find id ∨
    ∃ row row', db.find id = some row ∧ db'.find id = some row' ∧
      row.status ∈ signedActiveStatuses ∧
      row' = { row with
        submissionValidatedLedger := row'.submissionValidatedLedger
        lastSubmitAttemptAt := row'.lastSubmitAttemptAt
        updatedAt := row'.updatedAt }

theorem Db.Noted.refl (db : Db) : db.Noted db := ⟨rfl, fun _ => .inl rfl⟩

section Run

variable {P : Platform} {ok : StepCond Op Op.Ret Failure Reply Call State} {k k' : Sys}

/-- An update that records no answer writes notes of an attempt. -/
theorem Touch.noted {h : History} {pid : ℕ} {l : Call} {c : IntentRow} {statuses : List Status}
    {patch : IntentPatch} (ht : Touch h pid l c statuses patch)
    (hpatch : patch.submissionAttemptCount = false) (t : ℕ) (cur : IntentRow) :
    patch.updated P t cur = { cur with
      submissionValidatedLedger := (patch.updated P t cur).submissionValidatedLedger
      lastSubmitAttemptAt := (patch.updated P t cur).lastSubmitAttemptAt
      updatedAt := (patch.updated P t cur).updatedAt } := by
  cases ht with
  | baseline => rfl
  | attempted => rfl
  | resubmitted => cases hpatch

/-- **A step that alters nothing** writes at most notes of an attempt. -/
theorem step_noted (hk : Reach (system P) ok k) {pid : ℕ} {l : Call} {op : Op} {r : op.Ret}
    (hs : Step (system P) k (.op pid l op r) k') (ha : alters op r = false) :
    k.state.db.Noted k'.state.db := by
  obtain ⟨hpermit, hx, -⟩ := reach_permit hk hs
  by_cases hw : op.writes = true
  · cases op with
    | transition id request =>
      rcases exec_transition hx with ⟨-, hsame⟩ | ⟨t, rfl, hsame⟩
      · rw [hsame]
        exact .refl _
      rcases k.state.db.transition_cases P t id request with
        ⟨out, ho, -, -⟩ | ⟨cur, -, -, -, -, ho⟩
      · rw [hsame, ho]
        exact .refl _
      · rw [ho] at ha
        cases ha
    | updateInStatus id statuses patch =>
      obtain ⟨c, hc, rfl, ht⟩ := hpermit
      rcases updateInStatus_step (reach_ok hk) hc ht hx with
        ⟨hsame, -⟩ | ⟨cur, t, hf, -, -, hact, -, -, hle, rfl, hsame⟩
      · rw [hsame]
        exact .refl _
      · rw [hsame]
        refine ⟨rfl, fun id => ?_⟩
        change (Db.put _ _).find id = _ ∨ _
        rw [Db.find_written hf hle]
        split_ifs with hid
        · subst hid
          exact .inr ⟨cur, _, hf, rfl, hact, ht.noted ha t cur⟩
        · exact .inl rfl
    | createIdempotent row =>
      rcases exec_createIdempotent hx with ⟨-, hsame⟩ | ⟨rfl, hsame⟩
      · rw [hsame]
        exact .refl _
      rcases k.state.db.createIdempotent_cases P row with ⟨out, ho, -⟩ | ⟨-, -, -, ho⟩
      · rw [hsame, ho]
        exact .refl _
      · rw [ho] at ha
        cases ha
    | _ => cases hw
  · obtain ⟨choice, hx⟩ := hx
    rw [perform_db (by simpa using hw) hx]
    exact .refl _

end Run

/-- **A failed submit is harmless.** In every run, each operation of a call of `submit` that ends in
`XRPL_UNAVAILABLE` leaves the audit trail as it is, and of every intent all columns but the baseline
and the time of the last attempt, which it may write while the intent is signed or submitted. -/
theorem unavailable_harmless (P : Platform) (k₁ k₂ k k' : Sys)
    (hk : Reach (system P) anyStep k₁) (pid : ℕ) (id : String) (op : Op) (r : op.Ret)
    (hs : Step (system P) k₁ (.op pid (.submit id) op r) k₂)
    (hruns : Runs (system P) anyStep k₂ k) (e : Failure) (he : e.isUnavailable = true)
    (hfin : Step (system P) k (.finish pid (.submit id) (.error e)) k') :
    k₁.state.db.Noted k₂.state.db := by
  have hk' : Reach (system P) anyStep k := (hk.step hs trivial).runs hruns
  obtain ⟨acts, hpath⟩ := hruns.path
  have hmem : ⟨pid, .submit id, op, r⟩ ∈ own pid k.log :=
    mem_own.mpr ⟨hpath.log_prefix.subset hs.mem_log, rfl⟩
  have hend := Reach.watched (watches_submit (A := fun _ _ => true) id) hk' hfin fun _ _ => rfl
  have hchanged := (after_changed (fun _ _ => true) id .start (own pid k.log)).symm.trans
    (hend.2.2 e rfl he)
  rw [Watch.start, Bool.false_or, List.any_eq_false] at hchanged
  exact step_noted hk hs (by simpa using hchanged _ hmem)

namespace Sample

/-- An operation of call 4, which submits `i5`. -/
def isSubmitting : Act Op Op.Ret Failure Reply Call → Bool
  | .op pid l _ _ => pid = 4 && l = .submit "i5"
  | _ => false

/-- The call ends in `XRPL_UNAVAILABLE`. -/
def isRefused : Act Op Op.Ret Failure Reply Call → Bool
  | .finish pid l (.error e) => (pid = 4 && l = .submit "i5") && e.isUnavailable
  | _ => false

end Sample

/-- No endpoint answers the submission: the time of the attempt is written, then the call fails. -/
theorem unavailable_harmless_attempted : ∃ k₁ k₂ : Sys,
    (k₁.state.db.find "i5").any (fun row => row.lastSubmitAttemptAt = none) = true ∧
      (k₂.state.db.find "i5").any (fun row => row.lastSubmitAttemptAt = some 1) = true ∧
      k₁.state.db.Noted k₂.state.db := by
  obtain ⟨k₁, a, k₂, hk, hs, hφ⟩ := exists_step_of_play Sample.platform anyStep []
    (Sample.signedIntent 3 ++ [.start (.submit "i5")] ++ Sample.tick 4 2 ++
      Sample.told 4 (Sample.ledgerAnswer 3) ++ Sample.tick 4 3 ++
      [.op 4 (.answer (.error .unavailable))]) (.op 4 (.time 1))
    (fun k a k' => Sample.isSubmitting a &&
      (k.state.db.find "i5").any (fun row => row.lastSubmitAttemptAt = none) &&
      (k'.state.db.find "i5").any (fun row => row.lastSubmitAttemptAt = some 1) &&
      ((runner Sample.platform).turn k' (.finish 4)).any fun step => Sample.isRefused step.1)
    (by decide +kernel)
  simp only [Bool.and_eq_true] at hφ
  obtain ⟨⟨⟨hop, hbefore⟩, hafter⟩, hfin⟩ := hφ
  obtain ⟨⟨b, k'⟩, hturn, hb⟩ := (Option.any_eq_true _ _).mp hfin
  have hend := (runner Sample.platform).turn_step hturn
  refine ⟨k₁, k₂, hbefore, hafter, ?_⟩
  cases a with
  | op pid l op r =>
    simp only [Sample.isSubmitting, Bool.and_eq_true, decide_eq_true_eq] at hop
    obtain ⟨rfl, rfl⟩ := hop
    cases b with
    | finish pid l out =>
      cases out with
      | ok reply => cases hb
      | error e =>
        simp only [Sample.isRefused, Bool.and_eq_true, decide_eq_true_eq] at hb
        obtain ⟨⟨rfl, rfl⟩, he⟩ := hb
        exact unavailable_harmless Sample.platform k₁ k₂ k₂ k' hk 4 "i5" op r hs .refl e he hend
    | _ => cases hb
  | _ => cases hop

end Orchestrator
