import Orchestrator.Interleave.Outcomes
import Orchestrator.Preparation.Service
import Orchestrator.Signing.Service

/-!
# Failures of the services

Which errors the parts of a service call can end with. A result about one kind of error, the bad
ones, needs no more of an answer, a check or a statement than that it brings none of them.

* `Tolerant`, `Spares`: a check does not fail with a bad error;
* `spares_readAccountInfo` … `spares_assertAuthorized`, **`spares_verify`**: the checks;
* `Benign`: no reply brings a bad error, but to the move out of `CREATED`;
* `given_ask`, `given_ofExcept`, …: the parts of service calls.
-/

namespace Orchestrator

open Interleave

/-! ## Checks -/

/-- The codec raises the error `m`. -/
def Platform.Raises (P : Platform) (m : String) : Prop :=
  (∃ r, P.encode r = .error m) ∨ (∃ blob, P.decode blob = .error m) ∨
    ∃ blob, P.hashSignedTx blob = .error m

/-- The codes of the answers that tell how an intent has ended. -/
def settlingCodes : List ErrorCode := [.intentExpired, .invalidIntentState]

/-- `bad` is said of no other error of the API. -/
def Tolerant (bad : Failure → Prop) : Prop :=
  ∀ code message details, code ∉ settlingCodes → ¬ bad (.api code message details)

/-- A local check does not fail with a bad error. -/
def Spares {α : Type} (bad : Failure → Prop) (x : Except Failure α) : Prop :=
  ∀ e, x = .error e → ¬ bad e

section Spares

variable {α β : Type} {P : Platform} {bad : Failure → Prop}

theorem spares_ok (a : α) : Spares bad (.ok a : Except Failure α) := fun _ h => nomatch h

theorem Spares.bind {x : Except Failure α} {f : α → Except Failure β} (hx : Spares bad x)
    (hf : ∀ a, Spares bad (f a)) : Spares bad (x >>= f) := by
  cases x with
  | ok a => exact hf a
  | error e => exact fun e' h => hx e' (congrArg _ (Except.error.inj h))

variable (hb : Tolerant bad)
include hb

theorem spares_api {code : ErrorCode} (hc : code ∉ settlingCodes) {message : String}
    {details : Option Record} :
    Spares bad (.error (.api code message details) : Except Failure α) := by
  rintro e ⟨⟩
  exact hb code message details hc

theorem spares_mapError {ε : Type} (x : Except ε α) {code : ErrorCode} (hc : code ∉ settlingCodes)
    (message : ε → String) : Spares bad (x.mapError fun e => ApiError code (message e)) := by
  cases x with
  | ok a => exact spares_ok a
  | error e => exact spares_api hb hc

theorem spares_parse (x : Except String α) : Spares bad (parse x) := spares_mapError hb x (by decide) _

theorem spares_call (q : LedgerRequest) (r : LedgerResponse) : Spares bad (call q r) := by
  cases r with
  | ok result => exact spares_ok _
  | error error data => exact spares_api hb (by decide)

theorem spares_readAccountInfo (r : LedgerResponse) : Spares bad (readAccountInfo r) := by
  cases r with
  | error error data =>
    dsimp only [readAccountInfo]
    split_ifs
    · exact spares_ok _
    · exact spares_api hb (by decide)
  | ok result =>
    refine (spares_parse hb _).bind fun info => ?_
    split_ifs
    · exact spares_api hb (by decide)
    · exact spares_ok _

theorem spares_readCurrentAccount (account : String) (r : LedgerResponse) :
    Spares bad (readCurrentAccount account r) :=
  (spares_call hb _ _).bind fun _ => spares_parse hb _

theorem spares_readOpenLedgerFee (r : LedgerResponse) : Spares bad (readOpenLedgerFee r) :=
  (spares_call hb _ _).bind fun _ => spares_parse hb _

theorem spares_readLedgerIndex (r : LedgerResponse) : Spares bad (readLedgerIndex r) := by
  refine (spares_call hb _ _).bind fun result => (spares_parse hb _).bind fun ledger => ?_
  split_ifs
  · exact spares_api hb (by decide)
  · exact spares_ok _

theorem spares_readSimulation (t : Record) (r : LedgerResponse) : Spares bad (readSimulation t r) :=
  (spares_call hb _ _).bind fun _ => (spares_parse hb _).bind fun _ => spares_ok _

theorem spares_readSubmit (txBlob : String) (r : LedgerResponse) : Spares bad (readSubmit txBlob r) :=
  (spares_call hb _ _).bind fun _ => (spares_parse hb _).bind fun _ => spares_ok _

theorem spares_readTx (r : LedgerResponse) : Spares bad (readTx r) := by
  cases r with
  | error error data =>
    dsimp only [readTx]
    split_ifs
    · exact spares_ok _
    · exact spares_api hb (by decide)
  | ok result => exact (spares_parse hb _).bind fun _ => spares_ok _

theorem spares_refuseIf (c : Prop) [Decidable c] {code : ErrorCode} (hc : code ∉ settlingCodes)
    (message : String) : Spares bad (refuseIf c (ApiError code message)) := by
  unfold refuseIf
  split_ifs
  · exact spares_api hb hc
  · exact spares_ok _

theorem spares_checkFee (fee : String) : Spares bad (checkFee fee) := by
  unfold checkFee
  split_ifs
  · exact spares_api hb (by decide)
  · exact spares_api hb (by decide)
  · exact spares_ok _

theorem spares_assertQuiescent (validated current : AccountInfo) :
    Spares bad (assertQuiescent validated current) := by
  unfold assertQuiescent
  split_ifs
  · exact spares_api hb (by decide)
  · exact spares_ok _

theorem spares_assertAuthorized (key account : String) (info : AccountInfo) :
    Spares bad (assertAuthorized P key account info) := by
  unfold assertAuthorized
  split
  · exact spares_api hb (by decide)
  · split_ifs
    · exact spares_api hb (by decide)
    · exact spares_ok _
    · exact spares_api hb (by decide)
    · exact spares_ok _

theorem spares_nonEmptyStr (value : Option Json) {code : ErrorCode} (hc : code ∉ settlingCodes)
    (message : String) : Spares bad (nonEmptyStr value (ApiError code message)) := by
  unfold nonEmptyStr
  split
  · split_ifs
    · exact spares_api hb hc
    · exact spares_ok _
  · exact spares_api hb hc

theorem spares_unsignedFields (preparedFields : List String) (decoded : Record) :
    Spares bad (unsignedFields preparedFields decoded) := by
  induction decoded with
  | nil => exact spares_ok _
  | cons f rest ih =>
    unfold unsignedFields
    split_ifs
    · exact ih
    · exact spares_api hb (by decide)
    · cases h : unsignedFields preparedFields rest with
      | ok r => exact spares_ok _
      | error e => exact fun e' he => ih e' (h.trans (congrArg _ (Except.error.inj he)))

theorem spares_buildBlob (transaction : Record) : Spares bad (buildBlob P transaction) :=
  spares_mapError hb _ (by decide) _

omit hb in
theorem spares_internalError {x : Except String α}
    (h : ∀ message, x = .error message → ¬ bad (.internal message)) :
    Spares bad (internalError x) := by
  cases x with
  | ok a => exact spares_ok a
  | error message =>
    rintro e ⟨⟩
    exact h message rfl

/-- The checks of a signed blob fail with errors of the API, or of the codec. -/
theorem spares_verify (hP : ∀ message, P.Raises message → ¬ bad (.internal message))
    (txBlob preparedTxBlob : String) : Spares bad (verify P txBlob preparedTxBlob) := by
  refine (spares_refuseIf hb _ (by decide) _).bind fun _ => ?_
  refine (spares_mapError hb _ (by decide) _).bind fun decoded => ?_
  refine (spares_nonEmptyStr hb _ (by decide) _).bind fun signature => ?_
  refine (spares_nonEmptyStr hb _ (by decide) _).bind fun key => ?_
  have hforbidden : Spares bad (refuseForbidden decoded) := by
    unfold refuseForbidden
    split
    · exact spares_api hb (by decide)
    · exact spares_ok _
  refine hforbidden.bind fun _ => ?_
  refine (spares_internalError fun message h => hP _ (.inr (.inl ⟨_, h⟩))).bind fun prepared => ?_
  refine (spares_unsignedFields hb _ _).bind fun unsigned => ?_
  refine (spares_internalError fun message h => hP _ (.inl ⟨_, h⟩)).bind fun encoded => ?_
  refine (spares_refuseIf hb _ (by decide) _).bind fun _ => ?_
  refine (spares_refuseIf hb _ (by decide) _).bind fun _ => ?_
  exact (spares_internalError fun message h => hP _ (.inr (.inr ⟨_, h⟩))).bind fun hash =>
    spares_ok _

end Spares

/-! ## Programs -/

/-- No reply that satisfies `A` brings a bad error, but to the move out of `CREATED`. -/
structure Benign (A : (op : Op) → op.Ret → Prop) (bad : Failure → Prop) : Prop where
  api : Tolerant bad
  receive : ∀ q message, A (.receive q) (.error (.other message)) → ¬ bad (.internal message)
  switchEndpoint : ∀ reason message, A (.switchEndpoint reason) (.error (.other message)) →
    ¬ bad (.internal message)
  findById : ∀ id e, A (.findById id) (.error e) → ¬ bad e.failure
  findByStatuses : ∀ statuses e, A (.findByStatuses statuses) (.error e) → ¬ bad e.failure
  transition : ∀ id (request : TransitionRequest) e,
    request.fromStatuses.contains .created = false → A (.transition id request) (.error e) →
      ¬ bad e.failure
  updateInStatus : ∀ id statuses patch e, A (.updateInStatus id statuses patch) (.error e) →
    ¬ bad e.failure
  createIdempotent : ∀ row e, A (.createIdempotent row) (.error e) → ¬ bad e.failure

section Given

variable {A : (op : Op) → op.Ret → Prop} {bad : Failure → Prop} {α : Type}

theorem given_perform (op : Op) :
    (Prog.perform op : Service op.Ret).Given A (Clean bad fun r => A op r) := fun _ hr => hr

theorem given_now : now.Given A (Clean bad fun _ => True) := fun _ _ => trivial

theorem given_ofExcept {x : Except Failure α} (hx : Spares bad x) :
    (ofExcept x).Given A (Clean bad fun v => x = .ok v) := by
  cases x with
  | ok v => exact rfl
  | error e => exact hx e rfl

theorem given_required {value : Option α} (hv : value.isSome) (column : String) :
    (required value column).Given A (Clean bad fun v => value = some v) := by
  cases value with
  | none => cases hv
  | some v => exact rfl

theorem given_orThrow {ε : Type} {failure : ε → Failure} {x : Except ε α}
    (hx : ∀ e, x = .error e → ¬ bad (failure e)) :
    (orThrow failure x).Given A (Clean bad fun v => x = .ok v) := by
  cases x with
  | ok v => exact rfl
  | error e => exact hx e rfl

variable (h : Benign A bad)
include h

theorem given_api {R : α → Prop} {code : ErrorCode} (hc : code ∉ settlingCodes) {message : String}
    {details : Option Record} :
    (throwFailure (.api code message details) : Service α).Given A (Clean bad R) :=
  h.api code message details hc

theorem given_assertRecovered : assertRecovered.Given A (Clean bad fun _ => True) := by
  intro recovered _
  cases recovered with
  | true => exact trivial
  | false => exact given_api h (by decide)

theorem given_ask (q : LedgerRequest) {read : LedgerResponse → Except Failure α}
    (hread : ∀ r, Spares bad (read r)) : (ask q read).Given A (Clean bad fun _ => True) := by
  intro _ _ answer ha
  cases answer with
  | error e =>
    cases e with
    | unavailable => exact h.api _ _ _ (by decide)
    | other message => exact h.receive q message ha
  | ok response => exact (given_ofExcept (hread response)).clean fun _ _ => trivial

theorem given_validatedAccountInfo (account : String) :
    (validatedAccountInfo account).Given A (Clean bad fun _ => True) :=
  given_ask h _ (spares_readAccountInfo h.api)

theorem given_currentAccountInfo (account : String) :
    (currentAccountInfo account).Given A (Clean bad fun _ => True) :=
  given_ask h _ (spares_readCurrentAccount h.api account)

theorem given_cappedOpenLedgerFee : cappedOpenLedgerFee.Given A (Clean bad fun _ => True) :=
  (given_ask h _ (spares_readOpenLedgerFee h.api)).seq fun fee _ =>
    (given_ofExcept (spares_checkFee h.api fee)).clean fun _ _ => trivial

theorem given_validatedLedgerIndex : validatedLedgerIndex.Given A (Clean bad fun _ => True) :=
  given_ask h _ (spares_readLedgerIndex h.api)

theorem given_tx (hash : String) (minLedger maxLedger : ℕ) :
    (tx hash minLedger maxLedger).Given A (Clean bad fun _ => True) :=
  given_ask h _ (spares_readTx h.api)

theorem given_ledgerIndexOf (account : AccountInfo) :
    (ledgerIndexOf account).Given A (Clean bad fun _ => True) := by
  unfold ledgerIndexOf
  split
  · exact trivial
  · exact given_validatedLedgerIndex h

theorem given_switchEndpoint (reason : String) :
    (switchEndpoint reason).Given A (Clean bad fun _ => True) := by
  intro outcome ha
  cases outcome with
  | ok _ => exact trivial
  | error e =>
    cases e with
    | unavailable => exact h.api _ _ _ (by decide)
    | other message => exact h.switchEndpoint reason message ha

theorem given_findById (id : String) :
    (findById id).Given A (Clean bad fun found => A (.findById id) (.ok found)) := by
  intro r ha
  cases r with
  | ok found => exact ha
  | error e => exact h.findById id e ha

theorem given_findByStatuses (statuses : List Status) :
    (findByStatuses statuses).Given A
      (Clean bad fun rows => A (.findByStatuses statuses) (.ok rows)) := by
  intro r ha
  cases r with
  | ok rows => exact ha
  | error e => exact h.findByStatuses statuses e ha

theorem given_load (id : String) :
    (load id).Given A (Clean bad fun row => A (.findById id) (.ok (some row))) := by
  refine (given_findById h id).seq fun found hfound => ?_
  cases found with
  | none => exact h.api _ _ _ (by decide)
  | some row => exact hfound

theorem given_transition (id : String) (request : TransitionRequest)
    (hfrom : request.fromStatuses.contains .created = false) :
    (transition id request).Given A
      (Clean bad fun out => A (.transition id request) (.ok out)) := by
  intro r ha
  cases r with
  | ok out => exact ha
  | error e => exact h.transition id request e hfrom ha

theorem given_updateInStatus (id : String) (statuses : List Status) (patch : IntentPatch) :
    (updateInStatus id statuses patch).Given A (Clean bad fun _ => True) := by
  intro r ha
  cases r with
  | ok out => exact trivial
  | error e => exact h.updateInStatus id statuses patch e ha

end Given

end Orchestrator
