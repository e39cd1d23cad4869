import Orchestrator.Lifecycle.Frozen
import Orchestrator.Lifecycle.Replies

/-!
# Signature admission

Any number of calls can attach blobs to one intent at once; the first accepted one wins. A call
decides on a row it has read before, but the columns it decides on stay as they are from `PREPARED`
on, so that what it has checked holds of the row it writes.

* `Authorized`, `assertAuthorized_iff`: which keys sign for an account;
* `Checked`, `Admitted`: what a call has checked before it writes, and before it stores its blob;
* `step_attach`, `step_signed`: a step of `attachSignature`, a step into `SIGNED`;
* `returns_attachSignature`: what the call returns;
* **`signature_admission`**.
-/

namespace Orchestrator

open Interleave

variable (P : Platform)

/-- The key is the master key of the account, which is enabled, or its current `RegularKey`. -/
def Authorized (signingPubKey sourceAccount : String) (account : AccountInfo) : Prop :=
  ∃ address, P.deriveAddress signingPubKey = .ok address ∧
    ((address = sourceAccount ∧ account.disableMasterKey = false) ∨
      (address ≠ sourceAccount ∧ account.regularKey = some address))

theorem assertAuthorized_iff (signingPubKey sourceAccount : String) (account : AccountInfo) :
    assertAuthorized P signingPubKey sourceAccount account = .ok () ↔
      Authorized P signingPubKey sourceAccount account := by
  unfold assertAuthorized Authorized
  cases P.deriveAddress signingPubKey with
  | error e => simp
  | ok address =>
    by_cases ha : address = sourceAccount
    · cases account.disableMasterKey <;> simp [ha]
    · by_cases hr : account.regularKey = some address <;> simp [ha, hr]

/-- Call `pid` has verified its blob against the prepared blob of `row` and has read the account
from a validated ledger, in which its key is authorised, or which is past the window. -/
structure Checked (h : History) (pid : ℕ) (row : IntentRow) (txBlob : String)
    (verified : VerifiedSignedBlob) (account : AccountInfo) (n last : ℕ) : Prop where
  prepared : ∃ preparedTxBlob, row.preparedTxBlob = some preparedTxBlob ∧
    verify P txBlob preparedTxBlob = .ok verified
  read : AccountRead h pid row account n
  window : row.lastLedgerSequence = some last
  authorized : n ≤ last → Authorized P verified.signingPubKey row.sourceAccount account

/-- Call `pid` may store its blob in `row`. -/
structure Admitted (h : History) (pid : ℕ) (row : IntentRow) (txBlob : String)
    (verified : VerifiedSignedBlob) (account : AccountInfo) (n last : ℕ) : Prop
    extends Checked P h pid row txBlob verified account n last where
  open_window : n ≤ last
  sequence : row.sequence = some account.sequence
  awaiting : row.status = .awaitingSignature

variable {P} {h : History} {pid : ℕ} {c cur : IntentRow} {txBlob : String}
  {verified : VerifiedSignedBlob} {account : AccountInfo} {n last : ℕ}

/-- What was checked of a version of the row holds of the later ones. -/
theorem Checked.later (hc : Checked P h pid c txBlob verified account n last) (hle : c.Le cur)
    (hs : c.status = .awaitingSignature) : Checked P h pid cur txBlob verified account n last := by
  have hcols := hle.prepared (by rw [hs]; decide)
  simp only [IntentRow.preparedColumns, Prod.mk.injEq] at hcols
  obtain ⟨-, hblob, -, -, -, hlast, -⟩ := hcols
  have hacc := hle.account.2
  refine ⟨hblob ▸ hc.prepared, ?_, hlast ▸ hc.window, hacc ▸ hc.authorized⟩
  obtain ⟨r, hr, hor⟩ := hc.read
  exact ⟨r, hr, hacc ▸ hor⟩

/-- The grounds of a write out of `AWAITING_SIGNATURE` alone. -/
theorem Move.checked {request : TransitionRequest} {id : String}
    (hm : Move P h pid (.attachSignature id txBlob) c request)
    (hfrom : request.fromStatuses = [.awaitingSignature]) : ∃ verified account n last,
      c.status = .awaitingSignature ∧ Checked P h pid c txBlob verified account n last := by
  cases hm with
  | signatureExpired hst hlast hread hn hchecked =>
    obtain ⟨txBlob, preparedTxBlob, ⟨⟩, hprep, hver⟩ := hchecked
    exact ⟨_, _, _, _, hst, ⟨_, hprep, hver⟩, hread, hlast, fun hle => absurd hn (by omega)⟩
  | sequenceChanged hst hlast _ hread _ hchecked hauth =>
    obtain ⟨txBlob, preparedTxBlob, ⟨⟩, hprep, hver⟩ := hchecked
    exact ⟨_, _, _, _, hst, ⟨_, hprep, hver⟩, hread, hlast,
      fun _ => (assertAuthorized_iff ..).mp hauth⟩
  | signed t hst hlast _ hread _ hl hprep hver hauth =>
    cases hl
    exact ⟨_, _, _, _, hst, ⟨_, hprep, hver⟩, hread, hlast,
      fun _ => (assertAuthorized_iff ..).mp hauth⟩
  | _ => cases hfrom

/-! ## What the call performs and returns -/

/-- A write is a transition of intent `id` out of `AWAITING_SIGNATURE`. -/
def Attaching (id : String) (op : Op) : Prop :=
  op.writes = true → ∃ request, op = .transition id request ∧
    request.fromStatuses = [.awaitingSignature]

theorem attaching_of_reads {id : String} {op : Op} (hop : op.writes = false) : Attaching id op :=
  fun hw => nomatch hop.symm.trans hw

variable (P)

theorem performs_settleSignature (id : String) (row : IntentRow) (sequence last : ℕ) :
    (settleSignature P id row verified account sequence last).Performs (Attaching id) := by
  have hmove (request : TransitionRequest) (hfrom : request.fromStatuses = [.awaitingSignature]) :
      (transition id request).Performs (Attaching id) :=
    performs_transition _ _ fun _ => ⟨request, rfl, hfrom⟩
  have hindex : (ledgerIndexOf account).Performs (Attaching id) := by
    unfold ledgerIndexOf
    split
    · trivial
    · exact performs_ask _ _ (attaching_of_reads rfl) (attaching_of_reads rfl)
  refine hindex.bind fun n => ?_
  split_ifs
  · exact (hmove _ rfl).bind fun _ => trivial
  · exact (performs_orThrow _ _).bind fun _ => (hmove _ rfl).bind fun _ => trivial
  · refine (performs_orThrow _ _).bind fun _ => ?_
    exact (Prog.performs_perform (attaching_of_reads rfl)).bind fun t => hmove _ rfl

theorem performs_attachSignature (id txBlob : String) :
    (handle P (.attachSignature id txBlob)).Performs (Attaching id) := by
  have hload : (load id).Performs (Attaching id) := performs_load id (attaching_of_reads rfl)
  refine Prog.Performs.bind (hload.bind fun row => ?_) fun _ => trivial
  refine (performs_orThrow _ _).bind fun answer => ?_
  cases answer with
  | some answer => trivial
  | none =>
    refine (performs_assertRecovered (attaching_of_reads rfl)).bind fun _ => ?_
    refine (performs_required _ _).bind fun preparedTxBlob => ?_
    refine (performs_required _ _).bind fun sequence => ?_
    refine (performs_required _ _).bind fun last => ?_
    refine (performs_orThrow _ _).bind fun verified => ?_
    refine (performs_ask _ _ (attaching_of_reads rfl) (attaching_of_reads rfl)).bind fun account => ?_
    cases account with
    | none => trivial
    | some account =>
      refine (performs_settleSignature P id row sequence last).bind fun out => ?_
      cases out with
      | some signed => trivial
      | none =>
        refine hload.bind fun current => (performs_orThrow _ _).bind fun answer => ?_
        cases answer <;> trivial

/-- Statuses with which a call of `attachSignature` returns. -/
def attachedStatuses : List Status := [.signed, .submitted, .validated]

/-- The row that a call returns: its intent, with its own blob. -/
def Attached (id txBlob : String) (row : IntentRow) : Prop :=
  row.id = id ∧ row.signedTxBlob = some (P.toUpperCase txBlob)

theorem settledAnswer_attached {row answer : IntentRow}
    (h : settledAnswer P row txBlob = .ok (some answer)) : answer = row ∧
      row.status ∈ attachedStatuses ∧ row.signedTxBlob = some (P.toUpperCase txBlob) := by
  have settled (hs : row.status ∈ attachedStatuses)
      (h : (if row.signedTxBlob = some (P.toUpperCase txBlob) then .ok (some row)
        else .error (ApiError .signatureAlreadyAttached
          "A different signed transaction is already attached to this intent.") :
        Except Failure (Option IntentRow)) = .ok (some answer)) : answer = row ∧
      row.status ∈ attachedStatuses ∧ row.signedTxBlob = some (P.toUpperCase txBlob) := by
    split_ifs at h with hblob
    cases h
    exact ⟨rfl, hs, hblob⟩
  unfold settledAnswer at h
  split at h
  next => cases h
  next hs => exact settled (by rw [hs]; decide) h
  next hs => exact settled (by rw [hs]; decide) h
  next hs => exact settled (by rw [hs]; decide) h
  next => cases h
  next => cases h

section Returns

variable {Φ : IntentRow → Prop}

theorem returns_settleSignature (id : String) (row : IntentRow) (sequence last : ℕ)
    {preparedTxBlob : String} (hver : verify P txBlob preparedTxBlob = .ok verified) :
    Returns P Φ (fun out => ∀ signed, out = some signed →
      (Φ signed ∧ signed.id = id) ∧ signed.status ∈ attachedStatuses ∧ Attached P id txBlob signed)
      (settleSignature P id row verified account sequence last) := by
  refine (returns_any (ledgerIndexOf account)).seq fun n _ => ?_
  split_ifs
  · exact (returns_any _).seq fun _ _ => returns_fail _
  · exact (returns_any _).seq fun _ _ => (returns_any _).seq fun _ _ => returns_fail _
  · refine (returns_any _).seq fun _ _ => (returns_any _).seq fun t _ => ?_
    refine (returns_transition id _).clean fun out hout signed hsigned => ?_
    obtain ⟨hΦ, hid, t', cur, rfl⟩ := hout signed hsigned
    have hstatus : Status.signed ∈ attachedStatuses := by decide
    exact ⟨⟨hΦ, hid⟩, hstatus, hid, congrArg some (verify_ok hver).blob⟩

/-- **What `attachSignature` returns**, on every path. -/
theorem returns_attachSignature (id txBlob : String) :
    Returns P Φ (fun out => (Φ out ∧ out.id = id) ∧ out.status ∈ attachedStatuses ∧
      Attached P id txBlob out) (attachSignature P id txBlob) := by
  have hsettled {row answer : IntentRow} (hrow : Φ row ∧ row.id = id)
      (hans : settledAnswer P row txBlob = .ok (some answer)) : (Φ answer ∧ answer.id = id) ∧
      answer.status ∈ attachedStatuses ∧ Attached P id txBlob answer := by
    obtain ⟨rfl, hstatus, hblob⟩ := settledAnswer_attached P hans
    exact ⟨hrow, hstatus, hrow.2, hblob⟩
  refine (returns_load id).seq fun row hrow => (returns_ofExcept _).seq fun answer hans => ?_
  cases answer with
  | some answer => exact hsettled hrow hans
  | none =>
    refine (returns_any assertRecovered).seq fun _ _ => ?_
    refine (returns_any (required _ _)).seq fun preparedTxBlob _ => ?_
    refine (returns_any (required _ _)).seq fun sequence _ => ?_
    refine (returns_any (required _ _)).seq fun last _ => ?_
    refine (returns_ofExcept _).seq fun verified hver => ?_
    refine (returns_any (validatedAccountInfo _)).seq fun account _ => ?_
    cases account with
    | none => exact returns_fail _
    | some account =>
      refine (returns_settleSignature P id row sequence last hver).seq fun out hout => ?_
      cases out with
      | some signed => exact hout signed rfl
      | none =>
        refine (returns_load id).seq fun current hcurrent => ?_
        refine (returns_ofExcept _).seq fun answer hans => ?_
        cases answer with
        | some answer => exact hsettled hcurrent hans
        | none => exact returns_fail _

end Returns

variable {P}

section Runs

variable {ok : StepCond Op Op.Ret Failure Reply Call State} {k k' : Sys} {id : String}

/-- **A step of `attachSignature`** leaves the tables as they are, or its call has checked. -/
theorem step_attach (hk : Reach (system P) ok k) {op : Op} {r : op.Ret}
    (hs : Step (system P) k (.op pid (.attachSignature id txBlob) op r) k') :
    k'.state.db = k.state.db ∨ ∃ row verified account n last, k.state.db.find id = some row ∧
      Checked P k.log pid row txBlob verified account n last := by
  obtain ⟨hp, hx, -⟩ := reach_permit hk hs
  have hop := hk.performs (performs_attachSignature P id txBlob) hs
  by_cases hw : op.writes = true
  · obtain ⟨request, rfl, hfrom⟩ := hop hw
    obtain ⟨c, hc, rfl, hm⟩ := hp
    rcases transition_step (reach_ok hk) hc hm hx with
      ⟨hsame, -, -⟩ | ⟨cur, t, hf, hle, -⟩
    · exact .inl (congrArg State.db hsame)
    · obtain ⟨verified, account, n, last, hst, hchecked⟩ := hm.checked hfrom
      exact .inr ⟨cur, verified, account, n, last, hf, hchecked.later hle hst⟩
  · obtain ⟨choice, hx⟩ := hx
    exact .inl (perform_db (by simpa using hw) hx)

/-- **A step into `SIGNED`** is one of a call of `attachSignature` that stores its own blob. -/
theorem step_signed (hk : Reach (system P) ok k) {a : Act Op Op.Ret Failure Reply Call}
    (hs : Step (system P) k a k') {row' : IntentRow} (hf' : k'.state.db.find id = some row')
    (hst : row'.status = .signed) :
    (∃ row, k.state.db.find id = some row ∧ row.status = .signed) ∨
    ∃ pid txBlob row verified account n last request,
      a = .op pid (.attachSignature id txBlob) (.transition id request) (.ok (some row')) ∧
      k.state.db.find id = some row ∧
      Admitted P k.log pid row txBlob verified account n last ∧
      row'.signedTxBlob = some (P.toUpperCase txBlob) ∧
      row'.transactionHash = some verified.transactionHash ∧
      row'.signingPubKey = some verified.signingPubKey := by
  cases step_change hk hs id with
  | kept he => exact .inl ⟨row', he ▸ hf', hst⟩
  | @moved pid l request c cur t ha hf hid _ hle hm hfrom _ _ hf'' =>
    obtain rfl := Option.some.inj (hf''.symm.trans hf')
    cases hm with
    | @signed account last n txBlob preparedTxBlob verified t' hcst hlast hseq hread hn hl hprep
        hver hauth =>
      refine .inr ⟨pid, txBlob, cur, verified, account, n, last, signedRequest verified t', ?_, hf,
        ?_, ?_, rfl, rfl⟩
      · rw [ha, hl, hid]
      · have hc : Checked P k.log pid c txBlob verified account n last :=
          ⟨⟨preparedTxBlob, hprep, hver⟩, hread, hlast, fun _ => (assertAuthorized_iff ..).mp hauth⟩
        have hcols := hle.prepared (by rw [hcst]; decide)
        simp only [IntentRow.preparedColumns, Prod.mk.injEq] at hcols
        exact ⟨hc.later hle hcst, hn, hcols.2.2.2.1 ▸ hseq, List.mem_singleton.mp hfrom⟩
      · exact congrArg some (verify_ok hver).blob
    | _ => cases hst
  | @touched _ _ _ patch _ cur t _ hf _ _ _ ht _ _ _ hf'' =>
    obtain rfl := Option.some.inj (hf''.symm.trans hf')
    exact .inl ⟨cur, hf, hst⟩
  | created _ hf'' hcr =>
    obtain rfl := Option.some.inj (hf''.symm.trans hf')
    cases hcr.symm.trans hst

end Runs

/-- **Signature admission, first wins.** In every run, for every intent: at most one blob is ever
stored, and it stays; a call of `attachSignature` that returns, returns the intent with its own
blob; the intent enters `SIGNED` only with the blob of a call that was admitted; and a step of such
a call leaves the tables as they are, unless its blob was verified and its key was authorised or
the window has passed. -/
theorem signature_admission (P : Platform) (k : Sys) (hk : Reach (system P) anyStep k)
    (id : String) :
    (k.log.countP (signedArtifact.writes id) ≤ 1 ∧ ∀ row txBlob, k.state.db.find id = some row →
      row.signedTxBlob = some txBlob → ∀ k', Runs (system P) anyStep k k' →
        ∃ row', k'.state.db.find id = some row' ∧ row'.signedTxBlob = some txBlob) ∧
    (∀ pid txBlob reply k',
      Step (system P) k (.finish pid (.attachSignature id txBlob) (.ok reply)) k' →
      ∃ row, reply = .intent row ∧ row.id = id ∧ row.signedTxBlob = some (P.toUpperCase txBlob)) ∧
    (∀ a k' row', Step (system P) k a k' → k'.state.db.find id = some row' →
      row'.status = .signed →
      (∃ row, k.state.db.find id = some row ∧ row.status = .signed) ∨
      ∃ pid txBlob row verified account n last request,
        a = .op pid (.attachSignature id txBlob) (.transition id request) (.ok (some row')) ∧
        k.state.db.find id = some row ∧
        Admitted P k.log pid row txBlob verified account n last ∧
        row'.signedTxBlob = some (P.toUpperCase txBlob) ∧
        row'.transactionHash = some verified.transactionHash ∧
        row'.signingPubKey = some verified.signingPubKey) ∧
    ∀ pid txBlob op r k', Step (system P) k (.op pid (.attachSignature id txBlob) op r) k' →
      k'.state.db = k.state.db ∨ ∃ row verified account n last, k.state.db.find id = some row ∧
        Checked P k.log pid row txBlob verified account n last := by
  refine ⟨⟨?_, fun row txBlob hf hb k' hruns => ?_⟩, fun pid txBlob reply k' hs => ?_,
    fun a k' row' hs hf' hst => step_signed hk hs hf' hst, fun pid txBlob op r k' hs =>
    step_attach hk hs⟩
  · refine (reach_once (g := signedArtifact) (by simp [artifacts]) hk id).trans ?_
    unfold Artifact.written
    split_ifs <;> decide
  · obtain ⟨row', hf', hle⟩ := (runs_rely hk hruns).1 id row hf
    exact ⟨row', hf', (hle.keeps (reach_row hk hf)).signedTxBlob txBlob hb⟩
  · have hbody : ∀ l : Call, Returns P (fun row => row.Ok P) (fun reply => ∀ id txBlob,
        l = .attachSignature id txBlob → ∃ row, reply = .intent row ∧ Attached P id txBlob row)
        (handle P l) := by
      intro l
      cases l with
      | attachSignature id txBlob =>
        refine (returns_attachSignature P id txBlob).seq fun row hrow => ?_
        rintro _ _ ⟨⟩
        exact ⟨row, rfl, hrow.2.2⟩
      | _ =>
        refine (returns_any _).clean fun _ _ _ _ h => ?_
        cases h
    exact Reach.returns hk hbody (fun e he => (reach_replies hk e he).brings) hs id txBlob rfl

namespace Sample

/-- Call 4 has attached the blob to `i5`. -/
def isAttached : Act Op Op.Ret Failure Reply Call → Bool
  | .finish pid (.attachSignature id txBlob) (.ok _) => pid = 4 && id = "i5" && txBlob = "05AB"
  | _ => false

end Sample

/-- Two calls attach the same blob: the second one has lost the race, and returns the row with the
blob that the first one has stored. -/
theorem signature_admission_raced : ∃ (k k' : Sys) (reply : Reply),
    Step (system Sample.platform) k (.finish 4 (.attachSignature "i5" "05AB") (.ok reply)) k' ∧
    k.log.countP (signedArtifact.writes "i5") ≤ 1 ∧
    ∃ row, reply = .intent row ∧ row.id = "i5" ∧ row.signedTxBlob = some "05AB" := by
  obtain ⟨k, a, k', hk, hs, hφ⟩ := exists_step_of_play Sample.platform anyStep []
    (Sample.recovered 0 3 ++ Sample.created 1 "i5" ++ Sample.prepared 2 "i5" 5 3 ++
      [.start (.attachSignature "i5" "05AB"), .start (.attachSignature "i5" "05AB")] ++
      Sample.tick 4 2 ++ Sample.tick 3 2 ++ Sample.told 3 (Sample.accountAnswer 5 3) ++
      Sample.tick 3 2 ++ Sample.told 4 (Sample.accountAnswer 5 3) ++ Sample.tick 4 3) (.finish 4)
    (fun _ a _ => Sample.isAttached a) (by decide +kernel)
  unfold Sample.isAttached at hφ
  split at hφ
  · next pid id txBlob reply =>
    simp only [Bool.and_eq_true, decide_eq_true_eq] at hφ
    obtain ⟨⟨rfl, rfl⟩, rfl⟩ := hφ
    obtain ⟨⟨honce, -⟩, hreturns, -⟩ := signature_admission Sample.platform k hk "i5"
    exact ⟨k, k', reply, hs, honce, hreturns 4 "05AB" reply k' hs⟩
  · cases hφ

end Orchestrator
