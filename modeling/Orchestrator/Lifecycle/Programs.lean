import Orchestrator.Lifecycle.Discipline

/-!
# Every call obeys

Each service program is read on its own, with arbitrary moves of the others between any two of
its operations: every write it comes to is permitted.

* `obeys_ask`, `obeys_load`, `obeys_transition`, …: the building blocks;
* `obeys_resolveSigned`, `obeys_cycle`, `obeys_submit`, `obeys_attachSignature`, `obeys_prepare`,
  `obeys_create`: the calls;
* **`obeys_handle`**: every call obeys the discipline.
-/

namespace Orchestrator

open Interleave

variable {P : Platform} {pid : ℕ} {l : Call} {w : World Op Op.Ret Call State}
  {qs : List (LedgerRequest × LedgerResponse)} {c row : IntentRow}

/-! ## Building blocks -/

theorem obeys_ofExcept {α : Type} (x : Except Failure α) :
    Obeys (lifecycle P) pid l (Ends fun v _ => x = .ok v) (ofExcept x) w := by
  cases x with
  | ok v => exact rfl
  | error e => exact trivial

theorem obeys_required {α : Type} (value : Option α) (column : String) :
    Obeys (lifecycle P) pid l (Ends fun v _ => value = some v) (required value column) w := by
  cases value with
  | none => exact trivial
  | some v => exact rfl

theorem obeys_now : Obeys (lifecycle P) pid l (Ends fun _ _ => True) now w :=
  obeys_perform (fun _ _ _ => trivial) fun _ _ _ _ _ _ => trivial

theorem obeys_assertRecovered :
    Obeys (lifecycle P) pid l (Ends fun _ _ => True) assertRecovered w := by
  intro w₁ _ _
  refine ⟨trivial, fun r s _ => ?_⟩
  cases r <;> exact trivial

/-- One command: its answer is heard after those before. -/
theorem obeys_ask {α : Type} (q : LedgerRequest) (read : LedgerResponse → Except Failure α)
    (hq : Heard w.log pid qs)
    (hsend : ∀ w₁, (lifecycle P).Rely w w₁ →
      Permit P w₁ pid l (.send q) ∧ Permit P w₁ pid l (.receive q)) :
    Obeys (lifecycle P) pid l
      (Ends fun v w' => ∃ r, read r = .ok v ∧ Heard w'.log pid (qs ++ [(q, r)])) (ask q read) w := by
  intro w₁ hr hi
  refine ⟨(hsend w₁ hr).1, fun _ s hx => ?_⟩
  intro w₂ hr₂ hi₂
  have hsent := ((lifecycle P).exec hi (hsend w₁ hr).1 hx).2
  refine ⟨(hsend w₂ ((lifecycle P).trans hr ((lifecycle P).trans hsent hr₂))).2,
    fun answer s' _ => ?_⟩
  cases answer with
  | error e => exact trivial
  | ok response =>
    have hq₂ : Heard w₂.log pid qs := hq.mono
      ((hr.2.trans (List.prefix_append _ _)).trans hr₂.2)
    change Obeys _ _ _ _ (ofExcept (read response)) _
    cases hread : read response with
    | error e => exact trivial
    | ok v => exact ⟨response, hread, hq₂.snoc l q response⟩

theorem Copy.rely {w' : World Op Op.Ret Call State} (h : Copy P w.state.db c)
    (hr : (lifecycle P).Rely w w') : Copy P w'.state.db c :=
  h.mono hr.1

/-- A row found by its id. -/
theorem obeys_findById (id : String) :
    Obeys (lifecycle P) pid l (Ends fun found w' => ∀ row, found = some row →
      Copy P w'.state.db row ∧ row.id = id) (findById id) w := by
  intro w₁ _ hi
  refine ⟨trivial, fun r s hx => ?_⟩
  obtain ⟨rfl, rfl | rfl⟩ := exec_findById hx
  · exact trivial
  · exact fun row hrow => Copy.of_find hi hrow

theorem obeys_load (id : String) (hi : w.state.db.Ok P) :
    Obeys (lifecycle P) pid l (Ends fun row w' => Copy P w'.state.db row ∧ row.id = id)
      (load id) w := by
  refine (obeys_findById id).seq hi fun found w₁ hf _ _ => ?_
  cases found with
  | none => exact trivial
  | some row => exact hf row rfl

theorem obeys_findByStatuses (statuses : List Status) :
    Obeys (lifecycle P) pid l (Ends fun rows w' => ∀ row ∈ rows, Copy P w'.state.db row)
      (findByStatuses statuses) w := by
  intro w₁ _ hi
  refine ⟨trivial, fun r s hx => ?_⟩
  obtain ⟨rfl, rfl | rfl⟩ := exec_findByStatuses hx
  · exact trivial
  · exact fun row hrow => Copy.of_mem hi (Db.mem_findByStatuses hrow).1

/-- A transition on its grounds; the row it returns is in the table. -/
theorem obeys_performTransition (hc : Copy P w.state.db c) {request : TransitionRequest}
    (hm : ∀ h, w.log <+: h → Move P h pid l c request) :
    Obeys (lifecycle P) pid l (Ends fun out w' => ∀ row, out = .ok (some row) →
      Copy P w'.state.db row ∧ row.id = c.id)
      (Prog.perform (Op.transition c.id request)) w := by
  refine obeys_perform (fun w₁ hr _ => ⟨c, hc.rely hr, rfl, hm _ hr.2⟩) fun w₁ hr hi r s hx => ?_
  intro row hrow
  rcases transition_step hi (hc.rely hr) (hm _ hr.2) hx with
    ⟨-, hn, -⟩ | ⟨cur, t, hf, -, -, -, hv, hok, hle, rfl, rfl⟩
  · exact absurd hrow (hn row)
  · cases hrow
    have hid := hle.id.symm.trans (Db.find_id hf)
    refine ⟨⟨hok, _, ?_, .refl _⟩, hid⟩
    change (w₁.state.db.put (request.updated P t cur)).find _ = _
    rw [Db.find_put (hid.symm ▸ hf), if_pos rfl]

theorem obeys_transition (hc : Copy P w.state.db c) {request : TransitionRequest}
    (hm : ∀ h, w.log <+: h → Move P h pid l c request) (hi : w.state.db.Ok P) :
    Obeys (lifecycle P) pid l (Ends fun out w' => ∀ row, out = some row →
      Copy P w'.state.db row ∧ row.id = c.id) (transition c.id request) w := by
  refine (obeys_performTransition hc hm).seq hi fun out w₁ ho _ _ => ?_
  cases out with
  | error e => exact trivial
  | ok found => exact fun row hrow => ho row (hrow ▸ rfl)

theorem obeys_updateInStatus (hc : Copy P w.state.db c) {statuses : List Status}
    {patch : IntentPatch} (ht : ∀ h, w.log <+: h → Touch h pid l c statuses patch) :
    Obeys (lifecycle P) pid l (Ends fun out w' => (∀ row, out = some row →
      Copy P w'.state.db row ∧ row.id = c.id) ∧
        ∃ out, ⟨pid, l, .updateInStatus c.id statuses patch, .ok out⟩ ∈ w'.log)
      (updateInStatus c.id statuses patch) w := by
  intro w₁ hr hi
  refine ⟨⟨c, hc.rely hr, rfl, ht _ hr.2⟩, fun r s hx => ?_⟩
  rcases updateInStatus_step hi (hc.rely hr) (ht _ hr.2) hx with
    ⟨-, hn, -⟩ | ⟨cur, t, hf, -, -, -, hv, hok, hle, rfl, rfl⟩
  · cases r with
    | error e => exact trivial
    | ok found => exact ⟨fun row hrow => absurd (congrArg _ hrow) (hn row), found, by simp⟩
  · refine ⟨fun row hrow => ?_, some (patch.updated P t cur), by simp⟩
    cases hrow
    have hid := hle.id.symm.trans (Db.find_id hf)
    refine ⟨⟨hok, _, ?_, .refl _⟩, hid⟩
    change (w₁.state.db.put (patch.updated P t cur)).find _ = _
    rw [Db.find_put (hid.symm ▸ hf), if_pos rfl]

/-! ## Finality -/

section Finality

variable {hash : String} {prepared last : ℕ}

theorem obeys_failIntent (hc : Copy P w.state.db row) (failureCode : FailureCode)
    (details : Record)
    (hm : ∀ h, w.log <+: h → Move P h pid l row (failRequest failureCode details))
    (hi : w.state.db.Ok P) :
    Obeys (lifecycle P) pid l (Ends fun _ _ => True) (failIntent row failureCode details) w :=
  (obeys_transition hc hm hi).seq hi fun _ _ _ _ _ => trivial

theorem obeys_applyProvenAbsent (hc : Copy P w.state.db row) (hi : w.state.db.Ok P)
    (hs : row.status ∈ signedActiveStatuses) (hhash : row.transactionHash = some hash)
    (hprep : row.preparedLedgerIndex = some prepared) (hlast : row.lastLedgerSequence = some last)
    {r₁ r₂ : LedgerResponse} {n : ℕ}
    (hq : Heard w.log pid [(.ledger, r₁), (.tx hash (prepared + 1) last, r₂)])
    (h1 : readLedgerIndex r₁ = .ok n) (hn : last < n) (h2 : readTx r₂ = .ok (.absent true)) :
    Obeys (lifecycle P) pid l (Ends fun _ _ => True) (applyProvenAbsent row last) w := by
  refine (obeys_required _ _).seq hi fun sequence w₁ hseq hi₁ hr₁ => ?_
  refine Obeys.seq (obeys_ask _ _ (hq.mono hr₁.2) fun _ _ => ⟨trivial, trivial⟩) hi₁
    fun account w₂ ⟨r₃, h3, hq₂⟩ hi₂ hr₂ => ?_
  have hc₂ := (hc.rely hr₁).rely hr₂
  by_cases hstale : isStale account last = true
  · rw [if_pos hstale]
    trivial
  rw [if_neg hstale]
  have grounds : ∀ h, w₂.log <+: h → AbsentBy h pid row hash prepared last sequence account :=
    fun h hh => ⟨hhash, hprep, hlast, hseq, isStale_eq_false.mp (by simpa using hstale), r₁, r₂, r₃,
      n, hq₂.mono hh, h1, hn, h2, h3⟩
  dsimp only
  split_ifs with heq hgt
  · refine (obeys_transition hc₂ (fun h hh => .absent hs (grounds h hh) heq) hi₂).seq hi₂
      fun _ _ _ _ _ => trivial
  · refine obeys_failIntent hc₂ _ _ (fun h hh => .sequenceConflict hs (grounds h hh) ?_) hi₂
    rintro a rfl
    simpa using hgt
  · cases account with
    | none => simp at hgt
    | some a =>
      refine obeys_failIntent hc₂ _ _ (fun h hh => .sequenceRegression hs (grounds h hh) ?_) hi₂
      simp only [Option.map_some, Option.some.injEq] at heq
      simp only [gt_iff_lt, Option.map_some, Option.all_some, decide_eq_true_eq, not_lt] at hgt
      omega

theorem obeys_applyFound (hc : Copy P w.state.db row) (hi : w.state.db.Ok P)
    (hs : row.status ∈ signedActiveStatuses) (hhash : row.transactionHash = some hash)
    (hprep : row.preparedLedgerIndex = some prepared) (hlast : row.lastLedgerSequence = some last)
    {r : LedgerResponse} {lookup : TxLookup} {raw : Record}
    (hq : Heard w.log pid [(.tx hash (prepared + 1) last, r)])
    (hr : readTx r = .ok (.found lookup raw)) :
    Obeys (lifecycle P) pid l (Ends fun _ _ => True) (applyFound P row lookup raw) w := by
  unfold applyFound
  cases hv : lookup.validated with
  | false => trivial
  | true =>
    have grounds : ∀ h, w.log <+: h → FoundBy h pid row hash prepared last lookup raw :=
      fun h hh => ⟨hhash, hprep, hlast, hv, r, hq.mono hh, hr⟩
    simp only [hhash, hprep, hlast, required, Bool.not_true, Bool.false_eq_true, if_false,
      Prog.ret_bind]
    cases hidx : lookup.ledgerIndex with
    | none =>
      exact obeys_failIntent hc _ _ (fun h hh => .inconsistent hs (grounds h hh) (by simp [hidx])) hi
    | some index =>
      cases hcon : isConsistent P lookup hash prepared index last with
      | false =>
        simp only [hcon, Bool.not_false, if_true]
        refine obeys_failIntent hc _ _ (fun h hh => .inconsistent hs (grounds h hh) ?_) hi
        rintro index' hidx'
        rw [hidx] at hidx'
        cases hidx'
        exact hcon
      | true =>
        simp only [hcon, Bool.not_true, Bool.false_eq_true, if_false]
        cases hres : lookup.transactionResult with
        | none =>
          refine obeys_failIntent hc _ _ (fun h hh => ?_) hi
          have hm := Move.unexpected (l := l) hs (grounds h hh) hidx hcon (by simp [hres])
          rwa [hres] at hm
        | some result =>
          cases hfin : isFinalResult result with
          | false =>
            simp only [hfin, Bool.not_false, if_true]
            refine obeys_failIntent hc _ _ (fun h hh => ?_) hi
            have hm := Move.unexpected (l := l) hs (grounds h hh) hidx hcon
              (by simpa [hres] using hfin)
            rwa [hres] at hm
          | true =>
            simp only [hfin, Bool.not_true, Bool.false_eq_true, if_false]
            refine obeys_now.seq hi fun t w₁ _ hi₁ hr₁ => ?_
            exact (obeys_transition (hc.rely hr₁) (fun h hh =>
              .validated t hs (grounds h (hr₁.2.trans hh)) hidx hcon hres hfin) hi₁).seq hi₁
              fun _ _ _ _ _ => trivial

theorem obeys_applySearch (hc : Copy P w.state.db row) (hi : w.state.db.Ok P)
    (hs : row.status ∈ signedActiveStatuses) (hhash : row.transactionHash = some hash)
    (hprep : row.preparedLedgerIndex = some prepared) (hlast : row.lastLedgerSequence = some last)
    {r₁ r₂ : LedgerResponse} {n : ℕ} {search : TxSearch}
    (hq : Heard w.log pid [(.ledger, r₁), (.tx hash (prepared + 1) last, r₂)])
    (h1 : readLedgerIndex r₁ = .ok n) (h2 : readTx r₂ = .ok search) :
    Obeys (lifecycle P) pid l (Ends fun _ _ => True) (applySearch P row search n) w := by
  cases search with
  | found lookup raw =>
    exact obeys_applyFound hc hi hs hhash hprep hlast
      (hq.of_sublist (List.sublist_cons_self _ _)) h2
  | absent searchedAll =>
    unfold applySearch
    simp only [hlast, required, Prog.ret_bind]
    split_ifs with hn hall
    · trivial
    · trivial
    · simp only [Bool.not_eq_true, Bool.not_eq_false'] at hall
      subst hall
      exact obeys_applyProvenAbsent hc hi hs hhash hprep hlast hq h1 (by omega) h2

/-- **Resolving a signed intent**, with the ledger index the caller has read. -/
theorem obeys_resolveSigned (hc : Copy P w.state.db row) (hi : w.state.db.Ok P)
    (hs : row.status ∈ signedActiveStatuses) {r₁ : LedgerResponse} {n : ℕ} (switchBudget : ℕ)
    (hq : Heard w.log pid [(.ledger, r₁)]) (h1 : readLedgerIndex r₁ = .ok n) :
    Obeys (lifecycle P) pid l (Ends fun _ _ => True) (resolveSigned P row n switchBudget) w := by
  refine (obeys_required _ _).seq hi fun hash w₁ hhash hi₁ hr₁ => ?_
  refine (obeys_required _ _).seq hi₁ fun prepared w₂ hprep hi₂ hr₂ => ?_
  refine (obeys_required _ _).seq hi₂ fun last w₃ hlast hi₃ hr₃ => ?_
  have hr := (lifecycle P).trans ((lifecycle P).trans hr₁ hr₂) hr₃
  have hq₃ : Heard w₃.log pid [(.ledger, r₁)] := hq.mono hr.2
  refine Obeys.seq (obeys_ask _ _ hq₃ fun _ _ => ⟨trivial, trivial⟩) hi₃
    fun search w₄ ⟨r₂, h2, hq₄⟩ hi₄ hr₄ => ?_
  have hc₄ := (hc.rely hr).rely hr₄
  simp only [Prog.pure_def]
  split_ifs with hgap
  · refine Obeys.seq (p := switchEndpoint _) (R := fun _ _ => True) ?_ hi₄ fun _ w₅ _ hi₅ hr₅ => ?_
    · intro w' _ _
      refine ⟨trivial, fun r s _ => ?_⟩
      cases r <;> trivial
    · refine Obeys.seq (obeys_ask _ _ (hq₃.mono (hr₄.2.trans hr₅.2)) fun _ _ => ⟨trivial, trivial⟩) hi₅
        fun search' w₆ ⟨r₃, h3, hq₆⟩ hi₆ hr₆ => ?_
      exact (obeys_applySearch ((hc₄.rely hr₅).rely hr₆) hi₆ hs hhash hprep hlast hq₆ h1 h3).seq hi₆
        fun _ _ _ _ _ => trivial
  · exact (obeys_applySearch hc₄ hi₄ hs hhash hprep hlast hq₄ h1 h2).seq hi₄
      fun _ _ _ _ _ => trivial

theorem obeys_expireUnsigned (hc : Copy P w.state.db row) (hi : w.state.db.Ok P)
    (hs : row.status ∈ unsignedActiveStatuses) {n : ℕ} (hn : LedgerRead w.log pid n) :
    Obeys (lifecycle P) pid l (Ends fun _ _ => True) (expireUnsigned row n) w := by
  refine (obeys_required _ _).seq hi fun last w₁ hlast hi₁ hr₁ => ?_
  split_ifs with hle
  · trivial
  · exact (obeys_transition (hc.rely hr₁) (fun h hh => .unsignedExpired hs hlast
      (hn.mono (hr₁.2.trans hh)) (by omega)) hi₁).seq hi₁ fun _ _ _ _ _ => trivial

/-- The loop of a cycle, by induction on the rows that are left. -/
theorem obeys_walk (rows : List IntentRow) (switchBudget : ℕ) (degraded : Bool)
    (hrows : ∀ row ∈ rows, Copy P w.state.db row) (hi : w.state.db.Ok P) {r₁ : LedgerResponse}
    {n : ℕ} (hq : Heard w.log pid [(.ledger, r₁)]) (h1 : readLedgerIndex r₁ = .ok n) :
    Obeys (lifecycle P) pid l (Ends fun _ _ => True) (walk P n rows switchBudget degraded) w := by
  induction rows generalizing w switchBudget degraded with
  | nil => trivial
  | cons row rows ih =>
    have hc := hrows row List.mem_cons_self
    have rest : ∀ w' switchBudget degraded, (lifecycle P).Inv w' → (lifecycle P).Rely w w' →
        Obeys (lifecycle P) pid l (Ends fun _ _ => True)
          (walk P n rows switchBudget degraded) w' := fun w' budget deg hi' hr' =>
      ih budget deg (fun r hr => (hrows r (List.mem_cons_of_mem _ hr)).rely hr') hi'
        (hq.mono hr'.2)
    unfold walk
    split_ifs with hu hs
    · exact (obeys_expireUnsigned hc hi (by simpa using hu) ⟨r₁, hq, h1⟩).seq hi
        fun _ w' _ hi' hr' => rest w' _ _ hi' hr'
    · exact (obeys_resolveSigned hc hi (by simpa using hs) switchBudget hq h1).seq hi
        fun out w' _ hi' hr' => rest w' _ _ hi' hr'
    · exact rest w _ _ hi ((lifecycle P).refl w)

theorem obeys_cycle (hi : w.state.db.Ok P) :
    Obeys (lifecycle P) pid l (fun _ _ => True) (cycle P) w := by
  unfold cycle
  rw [obeys_bind, obeys_toExcept]
  refine Obeys.mono (Q := Ends fun _ _ => True) ?_ fun _ _ _ => trivial
  refine Obeys.seq (obeys_ask _ _ Heard.nil fun _ _ => ⟨trivial, trivial⟩) hi
    fun n w₁ ⟨r₁, h1, hq⟩ hi₁ _ => ?_
  refine (obeys_findByStatuses _).seq hi₁ fun rows w₂ hrows hi₂ hr₂ => ?_
  refine (obeys_walk rows 1 false hrows hi₂ (hq.mono hr₂.2) h1).seq hi₂ fun _ w₃ _ hi₃ _ => ?_
  exact obeys_perform (fun _ _ _ => trivial) fun _ _ _ _ _ _ => trivial

end Finality

/-- What a step returns: the row it wrote, or nothing. -/
abbrev Returned (P : Platform) (id : String) (out : Option IntentRow)
    (w : World Op Op.Ret Call State) : Prop :=
  ∀ row, out = some row → Copy P w.state.db row ∧ row.id = id

/-! ## Submission -/

section Submission

theorem obeys_recordSubmit (hc : Copy P w.state.db row) (hi : w.state.db.Ok P)
    (hs : row.status ∈ signedActiveStatuses) {result : SubmitResult} {raw : Record}
    (ha : AnsweredBy w.log pid l row result raw) (t : ℕ) :
    Obeys (lifecycle P) pid l (Ends (Returned P row.id)) (recordSubmit row result raw t) w := by
  unfold recordSubmit
  split_ifs with hsig htem
  · exact obeys_transition hc (fun h hh => .malformed t hsig (ha.mono hh) htem) hi
  · exact obeys_transition hc (fun h hh => .submitted t hsig (ha.mono hh) (by simpa using htem)) hi
  · have hsub : row.status = .submitted := by
      simpa [signedActiveStatuses, hsig] using hs
    exact (obeys_updateInStatus hc fun h hh => .resubmitted t hsub (ha.mono hh)).ends
      fun out w' h => h.1

/-- The baseline is there, or this call has asked for it. -/
theorem obeys_recordBaseline (hc : Copy P w.state.db row) (hi : w.state.db.Ok P)
    (hs : row.status ∈ signedActiveStatuses) (hl : l = .submit row.id) {n : ℕ}
    (hn : LedgerRead w.log pid n) :
    Obeys (lifecycle P) pid l (Ends fun _ w' => row.submissionValidatedLedger.isSome ∨
      ∃ n out, ⟨pid, l, .updateInStatus row.id [.signed] (baseline n), .ok out⟩ ∈ w'.log)
      (recordBaseline row n) w := by
  unfold recordBaseline
  split_ifs with hnone
  · exact (obeys_updateInStatus hc fun h hh => .baseline hl hs hnone (hn.mono hh)).seq hi
      fun _ w' h _ _ => .inr ⟨n, h.2⟩
  · exact .inl (Option.isSome_iff_ne_none.mpr hnone)

/-- **Submitting a signed intent**: the stored blob, after the baseline. -/
theorem obeys_submitSigned (hc : Copy P w.state.db row) (hi : w.state.db.Ok P)
    (hs : row.status ∈ signedActiveStatuses) (hl : l = .submit row.id) :
    Obeys (lifecycle P) pid l (Ends (Returned P row.id)) (submitSigned P row) w := by
  refine obeys_assertRecovered.seq hi fun _ w₁ _ hi₁ hr₁ => ?_
  refine (obeys_required _ _).seq hi₁ fun txBlob w₂ hblob hi₂ hr₂ => ?_
  refine (obeys_required _ _).seq hi₂ fun last w₃ hlast hi₃ hr₃ => ?_
  refine Obeys.seq (obeys_ask _ _ Heard.nil fun _ _ => ⟨trivial, trivial⟩) hi₃
    fun n w₄ ⟨r₁, h1, hq⟩ hi₄ hr₄ => ?_
  have hc₄ := (((hc.rely hr₁).rely hr₂).rely hr₃).rely hr₄
  split_ifs with hpassed
  · refine (obeys_resolveSigned hc₄ hi₄ hs 1 hq h1).seq hi₄ fun out w₅ _ _ _ => ?_
    dsimp only
    split_ifs
    · trivial
    · exact fun _ h => nomatch h
  · refine (obeys_recordBaseline hc₄ hi₄ hs hl ⟨r₁, hq, h1⟩).seq hi₄ fun _ w₅ hb hi₅ hr₅ => ?_
    refine obeys_now.seq hi₅ fun t w₆ _ hi₆ hr₆ => ?_
    have hc₆ := (hc₄.rely hr₅).rely hr₆
    rw [obeys_bind, obeys_toExcept]
    have hmay : ∀ w₇, (lifecycle P).Rely w₆ w₇ → MaySubmit P w₇ pid l txBlob := by
      intro w₇ hr₇
      refine ⟨row, hc₆.rely hr₇, hl, hs, hblob, ?_⟩
      rcases hb with hb | ⟨m, out, hm⟩
      · exact .inl hb
      · exact .inr ⟨m, out, (hr₆.2.trans hr₇.2).subset hm⟩
    refine ((obeys_ask (.submit txBlob) (readSubmit txBlob) Heard.nil fun w₇ hr₇ =>
      ⟨hmay w₇ hr₇, hmay w₇ hr₇⟩).frame hi₆).mono fun out w₇ ⟨ha, hi₇, hr₇⟩ => ?_
    · have hc₇ := hc₆.rely hr₇
      cases out with
      | error failure =>
        exact (obeys_updateInStatus hc₇ fun h _ => .attempted t hl hs).seq hi₇
          fun _ _ _ _ _ => trivial
      | ok answer =>
        obtain ⟨r, hread, hq₇⟩ := ha
        exact obeys_recordSubmit hc₇ hi₇ hs ⟨hl, txBlob, r, hblob, hq₇, hread⟩ t

/-- The loop of `submit`, by induction on the steps that are left. -/
theorem obeys_submitLoop (id : String) (steps : ℕ) (hc : Copy P w.state.db row)
    (hid : row.id = id) (hi : w.state.db.Ok P) (hl : l = .submit id) :
    Obeys (lifecycle P) pid l (Ends fun _ _ => True) (submitLoop P id steps row) w := by
  induction steps generalizing w row with
  | zero => trivial
  | succ steps ih =>
    rw [submitLoop_succ]
    split_ifs with hv hs
    · trivial
    · refine (obeys_submitSigned hc hi hs (hid ▸ hl)).seq hi fun found w₁ _ hi₁ _ => ?_
      cases found with
      | some next => trivial
      | none =>
        refine (obeys_load id hi₁).seq hi₁ fun row' w₂ hrow hi₂ _ => ?_
        exact ih hrow.1 hrow.2 hi₂
    · trivial

theorem obeys_submit (id : String) (hi : w.state.db.Ok P) (hl : l = .submit id) :
    Obeys (lifecycle P) pid l (Ends fun _ _ => True) (submit P id) w :=
  (obeys_load id hi).seq hi fun _ _ ⟨hc, hid⟩ hi' _ => obeys_submitLoop id _ hc hid hi' hl

end Submission

/-! ## Signing -/

section Signing

theorem obeys_ledgerIndexOf {account : AccountInfo} {r : LedgerResponse}
    (hread : readAccountInfo r = .ok (some account))
    (hq : Heard w.log pid [(.accountInfo row.sourceAccount false, r)]) :
    Obeys (lifecycle P) pid l (Ends fun n w' => AccountRead w'.log pid row account n)
      (ledgerIndexOf account) w := by
  unfold ledgerIndexOf
  cases hidx : account.ledgerIndex with
  | some n => exact ⟨r, hread, .inl ⟨hidx, hq⟩⟩
  | none =>
    exact Obeys.ends (obeys_ask _ _ hq fun _ _ => ⟨trivial, trivial⟩) fun n w' ⟨r', h', hq'⟩ =>
      ⟨r, hread, .inr ⟨r', hidx, h', hq'⟩⟩

theorem obeys_settleSignature {txBlob preparedTxBlob : String} {verified : VerifiedSignedBlob}
    {account : AccountInfo} {sequence last : ℕ} {r : LedgerResponse} (hc : Copy P w.state.db row)
    (hi : w.state.db.Ok P) (hs : row.status = .awaitingSignature)
    (hl : l = .attachSignature row.id txBlob) (hprep : row.preparedTxBlob = some preparedTxBlob)
    (hseq : row.sequence = some sequence) (hlast : row.lastLedgerSequence = some last)
    (hver : verify P txBlob preparedTxBlob = .ok verified)
    (hread : readAccountInfo r = .ok (some account))
    (hq : Heard w.log pid [(.accountInfo row.sourceAccount false, r)]) :
    Obeys (lifecycle P) pid l (Ends (Returned P row.id))
      (settleSignature P row.id row verified account sequence last) w := by
  refine (obeys_ledgerIndexOf hread hq).seq hi fun n w₁ hn hi₁ hr₁ => ?_
  have hc₁ := hc.rely hr₁
  have hchecked : BlobChecked P l row verified := ⟨txBlob, preparedTxBlob, hl, hprep, hver⟩
  by_cases hpassed : n > last
  · rw [if_pos hpassed]
    refine (obeys_transition hc₁ (fun h hh => ?_) hi₁).seq hi₁ fun _ _ _ _ _ => trivial
    exact .signatureExpired hs hlast (hn.mono hh) hpassed hchecked
  rw [if_neg hpassed]
  refine (obeys_ofExcept _).seq hi₁ fun _ w₂ hauth hi₂ hr₂ => ?_
  have hc₂ := hc₁.rely hr₂
  split_ifs with hchanged
  · refine (obeys_transition hc₂ (fun h hh => ?_) hi₂).seq hi₂ fun _ _ _ _ _ => trivial
    have hn' := hn.mono (hr₂.2.trans hh)
    exact .sequenceChanged hs hlast hseq hn' (by omega) hchecked hauth hchanged
  · refine obeys_now.seq hi₂ fun t w₃ _ hi₃ hr₃ => ?_
    refine obeys_transition (hc₂.rely hr₃) (fun h hh => ?_) hi₃
    have hn' := hn.mono (hr₂.2.trans (hr₃.2.trans hh))
    simp only [ne_eq, not_not] at hchanged
    exact .signed t hs hlast (hchanged ▸ hseq) hn' (by omega) hl hprep hver hauth

/-- **Attaching a signature.** -/
theorem obeys_attachSignature (id txBlob : String) (hi : w.state.db.Ok P)
    (hl : l = .attachSignature id txBlob) :
    Obeys (lifecycle P) pid l (Ends fun _ _ => True) (attachSignature P id txBlob) w := by
  refine (obeys_load id hi).seq hi fun row w₁ ⟨hc₁, hid⟩ hi₁ _ => ?_
  refine (obeys_ofExcept _).seq hi₁ fun answer w₂ hans hi₂ hr₂ => ?_
  cases answer with
  | some answer => trivial
  | none =>
    have hs := settledAnswer_none hans
    refine obeys_assertRecovered.seq hi₂ fun _ w₃ _ hi₃ hr₃ => ?_
    refine (obeys_required _ _).seq hi₃ fun preparedTxBlob w₄ hprep hi₄ hr₄ => ?_
    refine (obeys_required _ _).seq hi₄ fun sequence w₅ hseq hi₅ hr₅ => ?_
    refine (obeys_required _ _).seq hi₅ fun last w₆ hlast hi₆ hr₆ => ?_
    refine (obeys_ofExcept _).seq hi₆ fun verified w₇ hver hi₇ hr₇ => ?_
    refine Obeys.seq (obeys_ask _ _ Heard.nil fun _ _ => ⟨trivial, trivial⟩) hi₇
      fun account w₈ ⟨r, hread, hq⟩ hi₈ hr₈ => ?_
    have hc₈ := ((((((hc₁.rely hr₂).rely hr₃).rely hr₄).rely hr₅).rely hr₆).rely hr₇).rely hr₈
    cases account with
    | none => trivial
    | some account =>
      subst hid
      refine (obeys_settleSignature hc₈ hi₈ hs hl hprep hseq hlast hver hread hq).seq hi₈
        fun found w₉ _ hi₉ _ => ?_
      cases found with
      | some signed => trivial
      | none =>
        refine (obeys_load _ hi₉).seq hi₉ fun current w₁₀ _ hi₁₀ _ => ?_
        refine (obeys_ofExcept _).seq hi₁₀ fun answer _ _ _ _ => ?_
        cases answer <;> trivial

end Signing

/-! ## Preparation -/

section Preparation

/-- **Preparing a created intent**: five answers, one transition. -/
theorem obeys_prepareCreated (hc : Copy P w.state.db row) (hi : w.state.db.Ok P)
    (hs : row.status = .created) :
    Obeys (lifecycle P) pid l (Ends (Returned P row.id)) (prepareCreated P row) w := by
  refine obeys_assertRecovered.seq hi fun _ w₁ _ hi₁ hr₁ => ?_
  refine (obeys_ofExcept _).seq hi₁ fun payload w₂ hpay hi₂ hr₂ => ?_
  refine Obeys.seq (obeys_ask _ _ Heard.nil fun _ _ => ⟨trivial, trivial⟩) hi₂
    fun account w₃ ⟨r₁, h1, hq₃⟩ hi₃ hr₃ => ?_
  have hc₃ := ((hc.rely hr₁).rely hr₂).rely hr₃
  cases account with
  | none => trivial
  | some validated =>
    refine Obeys.seq (obeys_ask _ _ hq₃ fun _ _ => ⟨trivial, trivial⟩) hi₃
      fun current w₄ ⟨r₂, h2, hq₄⟩ hi₄ hr₄ => ?_
    refine (obeys_ofExcept _).seq hi₄ fun _ w₅ hquiet hi₅ hr₅ => ?_
    refine Obeys.seq (obeys_ask _ _ (hq₄.mono hr₅.2) fun _ _ => ⟨trivial, trivial⟩) hi₅
      fun index w₆ ⟨r₃, h3, hq₆⟩ hi₆ hr₆ => ?_
    have hfee : Obeys (lifecycle P) pid l (Ends fun fee w' => ∃ openFee r₄,
        readOpenLedgerFee r₄ = .ok openFee ∧ checkFee openFee = .ok fee ∧
        Heard w'.log pid [(.accountInfo payload.account false, r₁),
          (.accountInfo payload.account true, r₂), (.ledger, r₃), (.fee, r₄)])
        cappedOpenLedgerFee w₆ := by
      refine Obeys.seq (obeys_ask _ _ hq₆ fun _ _ => ⟨trivial, trivial⟩) hi₆
        fun openFee w₇ ⟨r₄, h4, hq₇⟩ _ _ => ?_
      cases hcheck : checkFee openFee with
      | error e => exact trivial
      | ok fee => exact ⟨openFee, r₄, h4, hcheck, hq₇⟩
    refine hfee.seq hi₆ fun fee w₇ ⟨openFee, r₄, h4, hcheck, hq₇⟩ hi₇ hr₇ => ?_
    refine Obeys.seq (R := fun _ _ => True) (obeys_perform (fun _ _ _ => trivial)
      fun _ _ _ _ _ _ => trivial) hi₇ fun networkId w₈ _ hi₈ hr₈ => ?_
    refine (obeys_ofExcept _).seq hi₈ fun txBlob w₉ hblob hi₉ hr₉ => ?_
    refine obeys_now.seq hi₉ fun t w₁₀ _ hi₁₀ hr₁₀ => ?_
    have hc₁₀ := (((((((hc₃.rely hr₄).rely hr₅).rely hr₆).rely hr₇).rely hr₈).rely hr₉).rely hr₁₀)
    refine (obeys_performTransition hc₁₀ fun h hh => ?_).seq hi₁₀ fun out w₁₁ hout _ _ => ?_
    · have hq : Heard h pid _ := hq₇.mono (hr₈.2.trans (hr₉.2.trans (hr₁₀.2.trans hh)))
      exact .prepared t hs ⟨validated, current, openFee, r₁, r₂, r₃, r₄, hpay, hq, h1, h2, hquiet, h3,
        h4, hcheck, rfl, rfl, hblob⟩
    · cases out with
      | ok found => exact fun r hr => hout r (hr ▸ rfl)
      | error e => cases e <;> trivial

theorem obeys_simulate {t : Record} (ht : storedTransaction row = .ok t) :
    Obeys (lifecycle P) pid l (Ends fun out w' => SimulatedBy w'.log pid row t out.1 out.2)
      (simulate t) w := by
  unfold simulate
  cases hcan : toCanonicalForm t with
  | error e => trivial
  | ok canonical =>
    exact Obeys.ends (obeys_ask (.simulate canonical) _ Heard.nil fun _ _ => ⟨trivial, trivial⟩)
      fun out w' ⟨r, hread, hq⟩ => ⟨ht, canonical, r, hcan, hq, hread⟩

/-- **Simulating a prepared intent.** -/
theorem obeys_simulatePrepared (hc : Copy P w.state.db row) (hi : w.state.db.Ok P)
    (hs : row.status = .prepared) :
    Obeys (lifecycle P) pid l (Ends (Returned P row.id)) (simulatePrepared P row) w := by
  refine obeys_assertRecovered.seq hi fun _ w₁ _ hi₁ hr₁ => ?_
  refine (obeys_ofExcept _).seq hi₁ fun t w₂ ht hi₂ hr₂ => ?_
  refine (obeys_required _ _).seq hi₂ fun last w₃ hlast hi₃ hr₃ => ?_
  refine Obeys.seq (obeys_ask _ _ Heard.nil fun _ _ => ⟨trivial, trivial⟩) hi₃
    fun n w₄ ⟨r₁, h1, hq⟩ hi₄ hr₄ => ?_
  have hc₄ := (((hc.rely hr₁).rely hr₂).rely hr₃).rely hr₄
  by_cases hpassed : n > last
  · rw [if_pos hpassed]
    exact (obeys_transition hc₄ (fun h hh => .windowExpired hs hlast ⟨r₁, hq.mono hh, h1⟩ hpassed)
      hi₄).seq hi₄ fun _ _ _ _ _ => trivial
  rw [if_neg hpassed]
  refine (obeys_simulate ht).seq hi₄ fun out w₅ hsim hi₅ hr₅ => ?_
  have hc₅ := hc₄.rely hr₅
  dsimp only
  cases hmatch : simulationMatchesPrepared P t out.1.txJson with
  | false =>
    exact (obeys_transition hc₅ (fun h hh => .mismatch hs (hsim.mono hh) hmatch) hi₅).seq hi₅
      fun _ _ _ _ _ => trivial
  | true =>
    refine obeys_now.seq hi₅ fun t' w₆ _ hi₆ hr₆ => ?_
    exact obeys_transition (hc₅.rely hr₆)
      (fun h hh => .simulated t' hs (hsim.mono (hr₆.2.trans hh)) hmatch) hi₆

theorem obeys_completeSimulation (hc : Copy P w.state.db row) (hi : w.state.db.Ok P)
    (hs : row.status = .simulated) :
    Obeys (lifecycle P) pid l (Ends (Returned P row.id)) (completeSimulation row) w := by
  refine (obeys_required _ _).seq hi fun engineResult w₁ he hi₁ hr₁ => ?_
  have hc₁ := hc.rely hr₁
  split_ifs with htes
  · exact obeys_transition hc₁ (fun h _ => .simulationPassed hs (htes ▸ he)) hi₁
  · refine (obeys_transition hc₁ (fun h _ => .simulationRejected hs he htes) hi₁).seq hi₁
      fun out w₂ _ _ _ => ?_
    cases out with
    | none => exact fun _ h => nomatch h
    | some r => trivial

theorem obeys_prepareStep (hc : Copy P w.state.db row) (hi : w.state.db.Ok P) :
    Obeys (lifecycle P) pid l (Ends fun out w' => ∀ next, out = .row next →
      Copy P w'.state.db next ∧ next.id = row.id) (prepareStep P row) w := by
  have step : ∀ p : Service (Option IntentRow),
      Obeys (lifecycle P) pid l (Ends (Returned P row.id)) p w →
      Obeys (lifecycle P) pid l (Ends fun out w' => ∀ next, out = .row next →
        Copy P w'.state.db next ∧ next.id = row.id) (StepResult.ofRow? <$> p) w := by
    intro p hp
    refine hp.seq hi fun out w' hout _ _ => ?_
    cases out with
    | none => exact fun _ h => nomatch h
    | some next => exact fun next' h => by cases h; exact hout next rfl
  unfold prepareStep
  cases hs : row.status with
  | created => exact step _ (obeys_prepareCreated hc hi hs)
  | prepared => exact step _ (obeys_simulatePrepared hc hi hs)
  | simulated => exact step _ (obeys_completeSimulation hc hi hs)
  | awaitingSignature | signed | submitted | validated => exact fun _ h => nomatch h
  | expired | rejected | failed => trivial

/-- The loop of `prepare`, by induction on the steps that are left. -/
theorem obeys_prepareLoop (id : String) (steps : ℕ) (hc : Copy P w.state.db row)
    (hid : row.id = id) (hi : w.state.db.Ok P) :
    Obeys (lifecycle P) pid l (Ends fun _ _ => True) (prepareLoop P id steps row) w := by
  induction steps generalizing w row with
  | zero => trivial
  | succ steps ih =>
    refine (obeys_prepareStep hc hi).seq hi fun out w₁ hout hi₁ _ => ?_
    cases out with
    | done => trivial
    | row next =>
      obtain ⟨hc₁, hid₁⟩ := hout next rfl
      exact ih hc₁ (hid₁.trans hid) hi₁
    | reread =>
      exact (obeys_load id hi₁).seq hi₁ fun row' w₂ ⟨hc₂, hid₂⟩ hi₂ _ => ih hc₂ hid₂ hi₂

theorem obeys_prepare (id : String) (hi : w.state.db.Ok P) :
    Obeys (lifecycle P) pid l (Ends fun _ _ => True) (prepare P id) w :=
  (obeys_load id hi).seq hi fun _ _ ⟨hc, hid⟩ hi' _ => obeys_prepareLoop id _ hc hid hi'

end Preparation

/-! ## Creation and the whole -/

theorem obeys_create (idempotencyKey : String) (dto : CreateIntentDto) (hi : w.state.db.Ok P)
    (hl : l = .create idempotencyKey dto) :
    Obeys (lifecycle P) pid l (Ends fun _ _ => True) (create P idempotencyKey dto) w := by
  refine obeys_now.seq hi fun t w₁ _ hi₁ _ => ?_
  refine Obeys.seq (R := fun _ _ => True) (obeys_perform (fun _ _ _ => trivial)
    fun _ _ _ _ _ _ => trivial) hi₁ fun id w₂ _ hi₂ _ => ?_
  refine Obeys.seq (R := fun _ _ => True) (obeys_perform (fun _ _ _ => trivial)
    fun _ _ _ _ _ _ => trivial) hi₂ fun networkId w₃ _ hi₃ _ => ?_
  refine Obeys.seq (R := fun _ _ => True) ?_ hi₃ fun result w₄ _ _ _ => ?_
  · refine Obeys.seq (R := fun _ _ => True) (obeys_perform
      (fun _ _ _ => ⟨idempotencyKey, dto, id, networkId, t, hl, rfl⟩)
      fun _ _ _ _ _ _ => trivial) hi₃ fun out _ _ _ _ => ?_
    cases out <;> trivial
  · split_ifs <;> trivial

/-- **Every call obeys**, wherever it starts. -/
theorem obeys_handle (pid : ℕ) (l : Call) (w : World Op Op.Ret Call State)
    (hi : (lifecycle P).Inv w) : Obeys (lifecycle P) pid l (fun _ _ => True) (handle P l) w := by
  have done {α : Type} {p : Service α} {f : α → Reply}
      (h : Obeys (lifecycle P) pid l (Ends fun _ _ => True) p w) :
      Obeys (lifecycle P) pid l (fun _ _ => True) (f <$> p) w :=
    h.bind hi (fun _ _ _ _ _ => trivial) fun _ _ _ _ _ => trivial
  cases l with
  | create idempotencyKey dto => exact done (obeys_create idempotencyKey dto hi rfl)
  | prepare id => exact done (obeys_prepare id hi)
  | attachSignature id txBlob => exact done (obeys_attachSignature id txBlob hi rfl)
  | submit id => exact done (obeys_submit id hi rfl)
  | cycle =>
    exact (obeys_cycle hi).bind hi (fun _ _ _ _ _ => trivial) fun _ _ _ _ _ => trivial

/-! ## Every run -/

section Runs

variable {ok : StepCond Op Op.Ret Failure Reply Call State}
  {k k' : Config Op Op.Ret Failure Reply Call State}

/-- **In every run** the tables satisfy their invariant and every call in flight obeys. -/
theorem reach_holds (h : Reach (system P) ok k) : (lifecycle P).Holds k := by
  refine Discipline.sound (fun s hs => ?_) obeys_handle h
  change s.db.Ok P
  rw [hs.1]
  exact ⟨by simp, by simp, by simp, by simp⟩

theorem reach_ok (h : Reach (system P) ok k) : k.state.db.Ok P := (reach_holds h).1

/-- **Every operation of every run is permitted**, and does what it is permitted to do. -/
theorem reach_permit (h : Reach (system P) ok k) {op : Op} {r : op.Ret}
    (hs : Step (system P) k (.op pid l op r) k') :
    Permit P k.toWorld pid l op ∧ (system P).exec k.state op r k'.state ∧
      k'.log = k.log ++ [⟨pid, l, op, r⟩] := by
  cases hs with
  | op hp hx => exact ⟨(reach_holds h).permit hp, hx, rfl⟩

/-- **Along every run** rows only move on, and the history only grows. -/
theorem runs_rely (h : Reach (system P) ok k) (hr : Runs (system P) ok k k') :
    k.state.db.Le k'.state.db ∧ k.log <+: k'.log := by
  induction hr with
  | refl => exact ⟨.refl _, List.prefix_rfl⟩
  | step hr' hs _ ih =>
    have hstep := (lifecycle P).step_rely (reach_holds (h.runs hr')) hs
    exact ⟨ih.1.trans hstep.1, ih.2.trans hstep.2⟩

/-- A row found in a run satisfies `IntentRow.Ok`. -/
theorem reach_row (h : Reach (system P) ok k) {id : String} (hf : k.state.db.find id = some row) :
    row.Ok P := (reach_ok h).rows row (Db.mem_of_find hf)

end Runs

end Orchestrator
