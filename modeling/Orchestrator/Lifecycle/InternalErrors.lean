import Orchestrator.Interleave.Outcomes
import Orchestrator.Lifecycle.Artifact
import Orchestrator.Lifecycle.Failures
import Orchestrator.Lifecycle.Replies

/-!
# Internal errors

On rows that satisfy `IntentRow.Ok`, no service ends with an internal error of its own. Each program
is read on its own, with the replies it can get in a run.

* `Inconsistent`: the texts of the errors kept for data that is not what its status stands for;
* `raises`, `refusal`: the texts that the connection raises, and the errors of the database;
* `Avoids`, `benign_clears`: a program, so answered, does not end with a given error;
* `avoids_cyclePass`, `avoids_submitLoop`, `avoids_attachSignature`, `avoids_prepareLoop`: the calls;
* **`avoids_handle`**.
-/

namespace Orchestrator

open Interleave

/-- The errors raised where stored data is not what a status stands for. -/
inductive Inconsistent : String → Prop
  | nullColumn (column : String) :
    Inconsistent ("intent column " ++ column ++ " is unexpectedly null")
  | noTransaction (id : String) : Inconsistent ("intent " ++ id ++ " has no prepared transaction")
  | illegalTransition (src dst : Status) :
    Inconsistent ("illegal transition " ++ src.name ++ " -> " ++ dst.name)
  | unknownShape : Inconsistent "stored intent payload has an unknown shape"

theorem getLast?_append_of {s t : String} {c : Char} (h : t.toList.getLast? = some c) :
    (s ++ t).toList.getLast? = some c := by
  rw [String.toList_append, List.getLast?_append, h, Option.some_or]

/-- How their texts end. -/
theorem Inconsistent.last {m : String} (h : Inconsistent m) :
    m.toList.getLast? ∈ ['l', 'n', 'D', 'E', 'e'].map some := by
  cases h with
  | nullColumn column =>
    rw [getLast?_append_of (c := 'l') (by decide)]
    decide
  | noTransaction id =>
    rw [getLast?_append_of (c := 'n') (by decide)]
    decide
  | illegalTransition src dst =>
    have hname : dst.name.toList.getLast? = some 'D' ∨ dst.name.toList.getLast? = some 'E' := by
      revert dst
      decide
    rcases hname with hlast | hlast
    · rw [getLast?_append_of hlast]
      decide
    · rw [getLast?_append_of hlast]
      decide
  | unknownShape => decide

theorem Inconsistent.ne {m t : String} (h : Inconsistent m)
    (ht : t.toList.getLast? ∉ ['l', 'n', 'D', 'E', 'e'].map some) : m ≠ t := by
  rintro rfl
  exact ht h.last

/-- What `prepare` throws when its steps run out. -/
def didNotSettle (id : String) : String :=
  "intent " ++ id ++ " did not settle within 8 preparation steps"

theorem didNotSettle_last (id : String) : (didNotSettle id).toList.getLast? = some 's' :=
  getLast?_append_of (by decide)

theorem Inconsistent.ne_didNotSettle {t : String} (h : Inconsistent t) (id : String) :
    t ≠ didNotSettle id :=
  h.ne (by rw [didNotSettle_last]; decide)

/-! ## Replies -/

/-- The text of an error that the client of the connection has raised. -/
def raises : (op : Op) → op.Ret → Option String
  | .receive _, .error (.other m) => some m
  | .switchEndpoint _, .error (.other m) => some m
  | _, _ => none

def errorOf {α : Type} : Except DbError α → Option DbError
  | .error e => some e
  | .ok _ => none

theorem errorOf_eq_some {α : Type} {x : Except DbError α} {e : DbError} :
    errorOf x = some e ↔ x = .error e := by
  cases x <;> simp [errorOf]

/-- The error with which the database has refused a statement. -/
def refusal : (op : Op) → op.Ret → Option DbError
  | .findById _, r => errorOf r
  | .findByStatuses _, r => errorOf r
  | .transition _ _, r => errorOf r
  | .updateInStatus _ _ _, r => errorOf r
  | .createIdempotent _, r => errorOf r
  | _, _ => none

/-- A transition that an intent leaves `CREATED` by. -/
def Op.takesSlot : Op → Bool
  | .transition _ request => request.fromStatuses.contains .created
  | _ => false

/-- No sound reply refuses a transition as illegal. -/
theorem Sound.refusal_ne {P : Platform} {op : Op} {r : op.Ret} (h : Sound P op r)
    (src dst : Status) : refusal op r ≠ some (.illegalTransition src dst) := by
  intro hr
  cases op with
  | findById | findByStatuses | transition | updateInStatus =>
    exact h.1 src dst (errorOf_eq_some.mp hr)
  | createIdempotent => exact h src dst (errorOf_eq_some.mp hr)
  | _ => cases hr

/-- A sound reply that does not bring the error `m`, unless it refuses the move out of `CREATED`,
which is answered with an error of the API. -/
def Clears (P : Platform) (m : String) (op : Op) (r : op.Ret) : Prop :=
  Sound P op r ∧ raises op r ≠ some m ∧ ∀ e, refusal op r = some e → e.failure = .internal m →
    e = .accountBusy ∧ op.takesSlot = true

/-- The database refuses nothing with an error of inconsistent data, but illegal transitions. -/
theorem Inconsistent.clears {P : Platform} {m : String} (hm : Inconsistent m) {op : Op} {r : op.Ret}
    (hs : Sound P op r) (hr : raises op r ≠ some m) : Clears P m op r := by
  refine ⟨hs, hr, fun e he hf => ?_⟩
  cases e with
  | accountBusy => exact absurd (Failure.internal.inj hf).symm (hm.ne (by decide))
  | illegalTransition src dst => exact absurd he (hs.refusal_ne src dst)
  | failed => exact absurd (Failure.internal.inj hf).symm (hm.ne (by decide))

/-- So answered, the program ends with a value that satisfies `R`, or with an error other than
`m`. -/
abbrev Avoids {α : Type} (P : Platform) (m : String) (R : α → Prop) (p : Service α) : Prop :=
  p.Given (Clears P m) (Clean (· = .internal m) R)

theorem tolerant_internal (m : String) : Tolerant (· = .internal m) := fun _ _ _ _ h => nomatch h

theorem benign_clears (P : Platform) (m : String) : Benign (Clears P m) (· = .internal m) where
  api := tolerant_internal m
  receive _ _ ha h := ha.2.1 (congrArg _ (Failure.internal.inj h))
  switchEndpoint _ _ ha h := ha.2.1 (congrArg _ (Failure.internal.inj h))
  findById _ e ha h := Bool.false_ne_true (ha.2.2 e rfl h).2
  findByStatuses _ e ha h := Bool.false_ne_true (ha.2.2 e rfl h).2
  transition _ _ e hfrom ha h := Bool.false_ne_true (hfrom.symm.trans (ha.2.2 e rfl h).2)
  updateInStatus _ _ _ e ha h := Bool.false_ne_true (ha.2.2 e rfl h).2
  createIdempotent _ e ha h := Bool.false_ne_true (ha.2.2 e rfl h).2

theorem avoids_api {P : Platform} {m : String} {α : Type} {R : α → Prop} (code : ErrorCode)
    (message : String) (details : Option Record) :
    Avoids P m R (throwFailure (.api code message details)) := fun h => nomatch h

section Statements

variable {P : Platform} {m : String}

theorem avoids_load (id : String) : Avoids P m (fun row => row.Ok P) (load id) :=
  (given_load (benign_clears P m) id).clean fun row ha => (ha.1.2 row rfl).1

theorem avoids_transition (id : String) (request : TransitionRequest)
    (hfrom : request.fromStatuses.contains .created = false) :
    Avoids P m (fun out => ∀ row, out = some row → row.Ok P) (transition id request) :=
  (given_transition (benign_clears P m) id request hfrom).clean fun _ ha row hrow =>
    (ha.1.2 row (congrArg _ hrow)).1

end Statements

/-! ## What the columns hold -/

/-- The columns that are set from `PREPARED` on. -/
theorem IntentRow.Ok.isSome_prepared {P : Platform} {row : IntentRow} (hok : row.Ok P)
    (hs : row.status ≠ .created) : row.preparedTxJson.isSome ∧ row.preparedTxBlob.isSome ∧
      row.preparedLedgerIndex.isSome ∧ row.sequence.isSome ∧ row.feeDrops.isSome ∧
      row.lastLedgerSequence.isSome ∧ row.preparedAt.isSome := by
  obtain ⟨payload, params, blob, index, -, hjson, -, hblob, hindex, hseq, hfee, hlast, -, -, -, hat⟩ :=
    hok.prepared hs
  rw [hjson, hblob, hindex, hseq, hfee, hlast]
  exact ⟨rfl, rfl, rfl, rfl, rfl, rfl, hat⟩

/-- The columns that are set while a signed blob may be on the network. -/
theorem IntentRow.Ok.isSome_signed {P : Platform} {row : IntentRow} (hok : row.Ok P)
    (hs : row.status ∈ signedActiveStatuses ∨ row.status = .validated) :
    row.signedTxBlob.isSome ∧ row.transactionHash.isSome ∧ row.signingPubKey.isSome ∧
      row.signedAt.isSome := by
  obtain ⟨txBlob, preparedTxBlob, v, -, -, hblob, hhash, hkey, hat⟩ :=
    hok.signed (hs.elim .inl fun h => .inr (.inl h))
  rw [hblob, hhash, hkey]
  exact ⟨rfl, rfl, rfl, hat⟩

theorem Status.ne_created_of_unsignedActive :
    ∀ {s : Status}, s ∈ unsignedActiveStatuses → s ≠ .created := by decide

theorem Status.ne_created_of_signedActive :
    ∀ {s : Status}, s ∈ signedActiveStatuses → s ≠ .created := by decide

/-! ## Finality -/

section Calls

variable {P : Platform} {m : String} {row : IntentRow}

theorem avoids_failIntent (failureCode : FailureCode) (details : Record) :
    Avoids P m (fun _ => True) (failIntent row failureCode details) :=
  (avoids_transition _ _ (by rfl)).seq fun _ _ => trivial

theorem avoids_applyProvenAbsent (hok : row.Ok P) (hs : row.status ≠ .created) (last : ℕ) :
    Avoids P m (fun _ => True) (applyProvenAbsent row last) := by
  obtain ⟨-, -, -, hseq, -⟩ := hok.isSome_prepared hs
  refine (given_required hseq _).seq fun sequence _ => ?_
  refine (given_validatedAccountInfo (benign_clears P m) _).seq fun account _ => ?_
  dsimp only
  split_ifs
  · exact trivial
  · exact (avoids_transition _ _ (by rfl)).seq fun _ _ => trivial
  · exact avoids_failIntent _ _
  · exact avoids_failIntent _ _

theorem avoids_applyFound (hok : row.Ok P) (hs : row.status ∈ signedActiveStatuses)
    (lookup : TxLookup) (raw : Record) :
    Avoids P m (fun _ => True) (applyFound P row lookup raw) := by
  obtain ⟨-, -, hindex, -, -, hlast, -⟩ :=
    hok.isSome_prepared (Status.ne_created_of_signedActive hs)
  obtain ⟨-, hhash, -⟩ := hok.isSome_signed (.inl hs)
  unfold applyFound
  split_ifs
  · exact trivial
  refine (given_required hhash _).seq fun hash _ => ?_
  refine (given_required hindex _).seq fun index _ => ?_
  refine (given_required hlast _).seq fun last _ => ?_
  split
  · exact avoids_failIntent _ _
  split_ifs
  · exact avoids_failIntent _ _
  split
  · exact avoids_failIntent _ _
  split_ifs
  · exact avoids_failIntent _ _
  · refine given_now.seq fun t _ => ?_
    exact (avoids_transition _ _ (by rfl)).seq fun _ _ => trivial

theorem avoids_applySearch (hok : row.Ok P) (hs : row.status ∈ signedActiveStatuses)
    (search : TxSearch) (n : ℕ) : Avoids P m (fun _ => True) (applySearch P row search n) := by
  have hcreated := Status.ne_created_of_signedActive hs
  cases search with
  | found lookup raw => exact avoids_applyFound hok hs lookup raw
  | absent searchedAll =>
    refine (given_required (hok.isSome_prepared hcreated).2.2.2.2.2.1 _).seq fun last _ => ?_
    split_ifs
    · exact trivial
    · exact trivial
    · exact avoids_applyProvenAbsent hok hcreated last

theorem avoids_resolveSigned (hok : row.Ok P) (hs : row.status ∈ signedActiveStatuses)
    (n switchBudget : ℕ) : Avoids P m (fun _ => True) (resolveSigned P row n switchBudget) := by
  obtain ⟨-, -, hindex, -, -, hlast, -⟩ :=
    hok.isSome_prepared (Status.ne_created_of_signedActive hs)
  obtain ⟨-, hhash, -⟩ := hok.isSome_signed (.inl hs)
  refine (given_required hhash _).seq fun hash _ => ?_
  refine (given_required hindex _).seq fun index _ => ?_
  refine (given_required hlast _).seq fun last _ => ?_
  refine (given_tx (benign_clears P m) _ _ _).seq fun search _ => ?_
  split_ifs
  · refine (given_switchEndpoint (benign_clears P m) _).seq fun _ _ => ?_
    refine (given_tx (benign_clears P m) _ _ _).seq fun search' _ => ?_
    exact (avoids_applySearch hok hs _ _).seq fun _ _ => trivial
  · exact (avoids_applySearch hok hs _ _).seq fun _ _ => trivial

theorem avoids_expireUnsigned (hok : row.Ok P) (hs : row.status ∈ unsignedActiveStatuses) (n : ℕ) :
    Avoids P m (fun _ => True) (expireUnsigned row n) := by
  obtain ⟨-, -, -, -, -, hlast, -⟩ :=
    hok.isSome_prepared (Status.ne_created_of_unsignedActive hs)
  refine (given_required hlast _).seq fun last _ => ?_
  split_ifs
  · exact trivial
  · exact (avoids_transition _ _ (by rfl)).seq fun _ _ => trivial

/-- The loop of a cycle, by induction on the rows that are left. -/
theorem avoids_walk (n : ℕ) (rows : List IntentRow) (hrows : ∀ row ∈ rows, row.Ok P)
    (switchBudget : ℕ) (degraded : Bool) :
    Avoids P m (fun _ => True) (walk P n rows switchBudget degraded) := by
  induction rows generalizing switchBudget degraded with
  | nil => exact trivial
  | cons row rows ih =>
    have hok := hrows row List.mem_cons_self
    have rest := ih fun r hr => hrows r (List.mem_cons_of_mem _ hr)
    unfold walk
    split_ifs with hu hs
    · exact (avoids_expireUnsigned hok (by simpa using hu) n).seq fun _ _ => rest _ _
    · exact (avoids_resolveSigned hok (by simpa using hs) n _).seq fun _ _ => rest _ _
    · exact rest _ _

/-- **A finality cycle.** -/
theorem avoids_cyclePass : Avoids P m (fun _ => True) (cyclePass P) := by
  refine (given_validatedLedgerIndex (benign_clears P m)).seq fun n _ => ?_
  refine (given_findByStatuses (benign_clears P m) _).seq fun rows hrows => ?_
  have hok : ∀ row ∈ rows, row.Ok P := fun row hr => (hrows.1.2 rows rfl row hr).1
  refine (avoids_walk n rows hok _ _).seq fun degraded _ => ?_
  exact (given_perform _).clean fun _ _ => trivial

/-! ## Submission -/

theorem avoids_submitSigned (hok : row.Ok P) (hs : row.status ∈ signedActiveStatuses) :
    Avoids P m (fun _ => True) (submitSigned P row) := by
  obtain ⟨-, -, -, -, -, hlast, -⟩ :=
    hok.isSome_prepared (Status.ne_created_of_signedActive hs)
  obtain ⟨hblob, -⟩ := hok.isSome_signed (.inl hs)
  refine (given_assertRecovered (benign_clears P m)).seq fun _ _ => ?_
  refine (given_required hblob _).seq fun blob _ => ?_
  refine (given_required hlast _).seq fun last _ => ?_
  refine (given_validatedLedgerIndex (benign_clears P m)).seq fun n _ => ?_
  split_ifs
  · refine (avoids_resolveSigned hok hs _ _).seq fun out _ => ?_
    dsimp only
    split_ifs
    · exact avoids_api _ _ _
    · exact trivial
  · have hbaseline : Avoids P m (fun _ => True) (recordBaseline row n) := by
      unfold recordBaseline
      split_ifs
      · exact (given_updateInStatus (benign_clears P m) _ _ _).seq fun _ _ => trivial
      · exact trivial
    refine hbaseline.seq fun _ _ => given_now.seq fun t _ => ?_
    -- a failed request is thrown again after the attempt is recorded
    have hask : Avoids P m (fun out => ∀ failure, out = .error failure → failure ≠ .internal m)
        (submitRequest blob).toExcept := by
      refine Prog.Given.toExcept (Prog.Given.mono
        (given_ask (benign_clears P m) _ (spares_readSubmit (tolerant_internal m) blob))
        fun out ho => ?_)
      rintro failure rfl
      exact ho
    refine hask.seq fun out hout => ?_
    cases out with
    | error failure =>
      exact (given_updateInStatus (benign_clears P m) _ _ _).seq fun _ _ => hout failure rfl
    | ok answer =>
      change Avoids P m _ (recordSubmit row answer.1 answer.2 t)
      unfold recordSubmit
      split_ifs
      · exact (avoids_transition _ _ (by rfl)).clean fun _ _ => trivial
      · exact (avoids_transition _ _ (by rfl)).clean fun _ _ => trivial
      · exact given_updateInStatus (benign_clears P m) _ _ _

theorem avoids_submitLoop (id : String) (steps : ℕ) (hok : row.Ok P) :
    Avoids P m (fun _ => True) (submitLoop P id steps row) := by
  induction steps generalizing row with
  | zero => exact trivial
  | succ steps ih =>
    rw [submitLoop_succ]
    split_ifs with hv hs
    · exact trivial
    · refine (avoids_submitSigned hok hs).seq fun out _ => ?_
      cases out with
      | some next => exact trivial
      | none => exact (avoids_load id).seq fun row' hrow => ih hrow
    · exact avoids_api _ _ _

/-! ## Signing -/

theorem spares_settledAnswer (row : IntentRow) (txBlob : String) :
    Spares (· = .internal m) (settledAnswer P row txBlob) := by
  unfold settledAnswer
  rintro e h ⟨⟩
  split at h
  · cases h
  · split_ifs at h
    cases h
  · split_ifs at h
    cases h
  · split_ifs at h
    cases h
  · cases h
  · cases h

theorem avoids_settleSignature (id : String) (verified : VerifiedSignedBlob) (account : AccountInfo)
    (sequence last : ℕ) : Avoids P m (fun _ => True)
      (settleSignature P id row verified account sequence last) := by
  refine (given_ledgerIndexOf (benign_clears P m) account).seq fun n _ => ?_
  have hauthorized : Avoids P m (fun _ => True)
      (ofExcept (assertAuthorized P verified.signingPubKey row.sourceAccount account)) :=
    (given_ofExcept (spares_assertAuthorized (tolerant_internal m) _ _ _)).clean fun _ _ => trivial
  split_ifs
  · exact (avoids_transition _ _ (by rfl)).seq fun _ _ => avoids_api _ _ _
  · exact hauthorized.seq fun _ _ =>
      (avoids_transition _ _ (by rfl)).seq fun _ _ => avoids_api _ _ _
  · refine hauthorized.seq fun _ _ => given_now.seq fun t _ => ?_
    exact (avoids_transition _ _ (by rfl)).clean fun _ _ => trivial

/-- **Attaching a signature.** Past the settled statuses the row awaits its signature. -/
theorem avoids_attachSignature (hP : ¬ P.Raises m) (id txBlob : String) :
    Avoids P m (fun _ => True) (attachSignature P id txBlob) := by
  refine (avoids_load id).seq fun row hrow => ?_
  refine (given_ofExcept (spares_settledAnswer _ _)).seq fun answer hans => ?_
  cases answer with
  | some answer => exact trivial
  | none =>
    have hs := settledAnswer_none hans
    have hcreated : row.status ≠ .created := by rw [hs]; decide
    obtain ⟨-, hblob, -, hseq, -, hlast, -⟩ := hrow.isSome_prepared hcreated
    refine (given_assertRecovered (benign_clears P m)).seq fun _ _ => ?_
    refine (given_required hblob _).seq fun preparedTxBlob _ => ?_
    refine (given_required hseq _).seq fun sequence _ => ?_
    refine (given_required hlast _).seq fun last _ => ?_
    have hverify := spares_verify (tolerant_internal m)
      (fun message hr he => hP (Failure.internal.inj he ▸ hr)) txBlob preparedTxBlob
    refine (given_ofExcept hverify).seq fun verified _ => ?_
    refine (given_validatedAccountInfo (benign_clears P m) _).seq fun account _ => ?_
    cases account with
    | none => exact avoids_api _ _ _
    | some account =>
      refine (avoids_settleSignature id verified account sequence last).seq fun out _ => ?_
      cases out with
      | some signed => exact trivial
      | none =>
        refine (avoids_load id).seq fun current _ => ?_
        refine (given_ofExcept (spares_settledAnswer _ _)).seq fun answer _ => ?_
        cases answer with
        | some answer => exact trivial
        | none => exact avoids_api _ _ _

/-! ## Preparation -/

theorem avoids_prepareCreated (hjson : P.JsonbPreserves) (hok : row.Ok P) :
    Avoids P m (fun out => ∀ next, out = some next → next.Ok P)
      (prepareCreated P row) := by
  have hread : Spares (· = .internal m) (asIntentPayload row.intentPayload) := by
    obtain ⟨payload, hpay, -⟩ := hok.payload
    rw [hpay, asIntentPayload_same payload (hjson _)]
    exact spares_ok _
  refine (given_assertRecovered (benign_clears P m)).seq fun _ _ => ?_
  refine (given_ofExcept hread).seq fun payload _ => ?_
  refine (given_validatedAccountInfo (benign_clears P m) _).seq fun account _ => ?_
  cases account with
  | none => exact avoids_api _ _ _
  | some validated =>
    refine (given_currentAccountInfo (benign_clears P m) _).seq fun current _ => ?_
    refine (given_ofExcept (spares_assertQuiescent (tolerant_internal m) _ _)).seq fun _ _ => ?_
    refine (given_validatedLedgerIndex (benign_clears P m)).seq fun index _ => ?_
    refine (given_cappedOpenLedgerFee (benign_clears P m)).seq fun fee _ => ?_
    refine (given_perform _).seq fun networkId _ => ?_
    refine (given_ofExcept (spares_buildBlob (tolerant_internal m) _)).seq fun txBlob _ => ?_
    refine given_now.seq fun t _ => ?_
    refine (given_perform _).seq fun out hout => ?_
    cases out with
    | ok found => exact fun next h => (hout.1.2 next (congrArg _ h)).1
    | error e =>
      cases e with
      | accountBusy => exact avoids_api _ _ _
      | illegalTransition src dst => exact absurd rfl (hout.1.1 src dst)
      | failed => exact fun hf => by cases (hout.2.2 .failed rfl hf).1

theorem avoids_simulatePrepared (hjson : P.JsonbPreserves) (hok : row.Ok P)
    (hs : row.status ≠ .created) :
    Avoids P m (fun out => ∀ next, out = some next → next.Ok P)
      (simulatePrepared P row) := by
  obtain ⟨-, -, -, -, -, hlast, -⟩ := hok.isSome_prepared hs
  obtain ⟨payload, params, blob, -, -, hstored, -⟩ := hok.prepared hs
  obtain ⟨t, ht, hsame⟩ := storedTransaction_of hjson hstored
  obtain ⟨-, canonical, -, hcanonical, -⟩ :=
    toCanonicalForm_same hsame (buildTransaction_get payload params).2.2.2.2
  have hsimulate : Avoids P m (fun _ => True) (simulate t) := by
    unfold simulate
    rw [hcanonical]
    exact given_ask (benign_clears P m) _ (spares_readSimulation (tolerant_internal m) canonical)
  refine (given_assertRecovered (benign_clears P m)).seq fun _ _ => ?_
  refine (given_ofExcept (ht ▸ spares_ok t)).seq fun prepared hprepared => ?_
  obtain rfl := Except.ok.inj (ht.symm.trans hprepared)
  refine (given_required hlast _).seq fun last _ => ?_
  refine (given_validatedLedgerIndex (benign_clears P m)).seq fun n _ => ?_
  split_ifs
  · exact (avoids_transition _ _ (by rfl)).seq fun _ _ => avoids_api _ _ _
  refine hsimulate.seq fun out _ => ?_
  dsimp only
  split_ifs
  · exact (avoids_transition _ _ (by rfl)).seq fun _ _ => avoids_api _ _ _
  · exact given_now.seq fun t _ => avoids_transition _ _ (by rfl)

theorem avoids_completeSimulation (hok : row.Ok P) (hs : row.status = .simulated) :
    Avoids P m (fun out => ∀ next, out = some next → next.Ok P)
      (completeSimulation row) := by
  refine (given_required (hok.simulated hs) _).seq fun engineResult _ => ?_
  split_ifs
  · exact avoids_transition _ _ (by rfl)
  · refine (avoids_transition _ _ (by rfl)).seq fun out _ => ?_
    cases out with
    | none => exact fun next h => nomatch h
    | some next => exact avoids_api _ _ _

theorem avoids_prepareStep (hjson : P.JsonbPreserves) (hok : row.Ok P) :
    Avoids P m (fun out => ∀ next, out = .row next → next.Ok P) (prepareStep P row) := by
  have step {p : Service (Option IntentRow)}
      (hp : Avoids P m (fun out => ∀ next, out = some next → next.Ok P) p) :
      Avoids P m (fun out => ∀ next, out = .row next → next.Ok P) (StepResult.ofRow? <$> p) := by
    refine hp.seq fun out hout => ?_
    cases out with
    | none => exact fun next h => nomatch h
    | some next => exact fun next' h => hout next' (congrArg _ (StepResult.row.inj h))
  unfold prepareStep
  cases hs : row.status with
  | created => exact step (avoids_prepareCreated hjson hok)
  | prepared => exact step (avoids_simulatePrepared hjson hok (by rw [hs]; decide))
  | simulated => exact step (avoids_completeSimulation hok hs)
  | awaitingSignature | signed | submitted | validated => exact fun next h => nomatch h
  | expired | rejected | failed => exact avoids_api _ _ _

theorem avoids_prepareLoop (hjson : P.JsonbPreserves) (id : String) (hne : m ≠ didNotSettle id)
    (steps : ℕ) (hok : row.Ok P) : Avoids P m (fun _ => True) (prepareLoop P id steps row) := by
  induction steps generalizing row with
  | zero => exact fun h => hne (Failure.internal.inj h).symm
  | succ steps ih =>
    refine (avoids_prepareStep hjson hok).seq fun out hout => ?_
    cases out with
    | done => exact trivial
    | row next => exact ih (hout next rfl)
    | reread => exact (avoids_load id).seq fun row' hrow => ih hrow

/-! ## Every call -/

theorem avoids_create (idempotencyKey : String) (dto : CreateIntentDto) :
    Avoids P m (fun _ => True) (create P idempotencyKey dto) := by
  refine given_now.seq fun t _ => ?_
  refine (given_perform _).seq fun id _ => (given_perform _).seq fun networkId _ => ?_
  refine Prog.Given.seq (R := fun _ => True) ?_ fun result _ => ?_
  · intro r ha
    cases r with
    | error e => exact fun hf => by cases (ha.2.2 e rfl hf).2
    | ok out => exact trivial
  · split_ifs
    · exact avoids_api _ _ _
    · exact trivial

/-- **No call ends with an internal error of its own**, save that of the loop of `prepare`, unless
the codec raises it. -/
theorem avoids_handle (hjson : P.JsonbPreserves) (hP : ¬ P.Raises m) (l : Call)
    (hne : ∀ id, l = .prepare id → m ≠ didNotSettle id) :
    Avoids P m (fun _ => True) (handle P l) := by
  have done {α : Type} {p : Service α} {f : α → Reply} (h : Avoids P m (fun _ => True) p) :
      Avoids P m (fun _ => True) (f <$> p) := h.seq fun _ _ => trivial
  cases l with
  | create idempotencyKey dto => exact done (avoids_create idempotencyKey dto)
  | prepare id =>
    exact done ((avoids_load id).seq fun _ hrow =>
      avoids_prepareLoop hjson id (hne id rfl) _ hrow)
  | attachSignature id txBlob => exact done (avoids_attachSignature hP id txBlob)
  | submit id => exact done ((avoids_load id).seq fun _ hrow => avoids_submitLoop id _ hrow)
  | cycle =>
    refine done (Prog.Given.seq (p := (cyclePass P).toExcept) (R := fun _ => True) ?_
      fun _ _ => trivial)
    exact Prog.Given.toExcept (avoids_cyclePass.mono fun _ _ => trivial)

end Calls

end Orchestrator
