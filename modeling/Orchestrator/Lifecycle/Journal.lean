import Orchestrator.Finality.Grounds
import Orchestrator.Lifecycle.Audit

/-!
# What the audit trail says

An audit row names the move it was made for, with a reason, and repeats columns of its intent or an
answer that the move was made on. What it says stays true: the columns that it repeats are frozen
from then on, and the answers are in the history.

* `Blames`: what an audit row may say of a failure;
* `Tells`: what an audit row may say of an intent; `Told`: and the intent has been there;
* **`Told.mono`**: it stays true; `Move.tells`: it is true when it is written;
* **`audit_tells`**.
-/

namespace Orchestrator

open Interleave

variable (P : Platform) (h : History) (r : IntentRow)

/-- The Sequence of the source account, as an answer gave it. -/
def SequenceAnswered (current : Option ℕ) : Prop :=
  ∃ pid response account, Heard h pid [(.accountInfo r.sourceAccount false, response)] ∧
    readAccountInfo response = .ok account ∧ current = account.map (·.sequence)

/-- A validated ledger, as an answer named it. -/
def LedgerAnswered (n : ℕ) : Prop :=
  ∃ pid, LedgerRead h pid n ∨ ∃ account, AccountRead h pid r account n

/-- What failed the intent, by its failure code. -/
inductive Blames : FailureCode → Option Json → Prop
  | mismatch : Blames .simulationArtifactMismatch none
  | conflict {sequence current} : r.sequence = some sequence → SequenceAnswered h r current →
      (∀ n, current = some n → n > sequence) →
      Blames .sequenceConflict (some (.obj (sequenceDetails sequence current)))
  | regression {sequence n} : r.sequence = some sequence → SequenceAnswered h r (some n) →
      n < sequence →
      Blames .sequenceRegression (some (.obj (sequenceDetails sequence (some n))))
  | inconsistent {pid hash prepared last lookup raw} :
      FoundBy h pid r hash prepared last lookup raw →
      (∀ index, lookup.ledgerIndex = some index →
        isConsistent P lookup hash prepared index last = false) →
      Blames .finalityIntegrityError (some (.obj (integrityDetails lookup)))
  | unexpected {pid hash prepared last lookup raw} :
      FoundBy h pid r hash prepared last lookup raw →
      (∀ result, lookup.transactionResult = some result → isFinalResult result = false) →
      Blames .unexpectedValidatedResult
        (some (.obj [("finalResult", strOrNull lookup.transactionResult)]))

/-- What an audit row may say of its intent: the move, its reason, and the columns it repeats or
the answer it was made on. -/
inductive Tells : AuditRow → Prop
  | created {id} : Tells ⟨id, none, .created, .intentCreated, none⟩
  | prepared {id sequence fee last} : r.sequence = some sequence → r.feeDrops = some fee →
      r.lastLedgerSequence = some last →
      Tells ⟨id, some .created, .prepared, .transactionPrepared, some (.obj
        [("sequence", .num sequence), ("fee", .str fee), ("lastLedgerSequence", .num last)])⟩
  | simulated {id engineResult} : r.simulationEngineResult = some engineResult →
      Tells ⟨id, some .prepared, .simulated, .simulationCompleted,
        some (.obj [("engineResult", .str engineResult)])⟩
  | passed {id} : r.simulationEngineResult = some "tesSUCCESS" →
      Tells ⟨id, some .simulated, .awaitingSignature, .simulationPassed, none⟩
  | simulationRejected {id engineResult} : r.status = .rejected →
      r.simulationEngineResult = some engineResult → engineResult ≠ "tesSUCCESS" →
      Tells ⟨id, some .simulated, .rejected, .simulationRejected, some (.obj
        [("engineResult", .str engineResult), ("engineResultMessage", engineResultMessage r)])⟩
  | signed {id hash} : r.transactionHash = some hash →
      Tells ⟨id, some .awaitingSignature, .signed, .signatureAccepted,
        some (.obj [("transactionHash", .str hash)])⟩
  | submitted {id pid result raw} : AnsweredBy h pid (.submit r.id) r result raw →
      isMalformed result = false →
      Tells ⟨id, some .signed, .submitted, .transactionSubmitted,
        engineResultDetails result.engineResult⟩
  | malformed {id engineResult} : r.status = .rejected →
      r.submitEngineResult = some engineResult → startsWith engineResult "tem" = true →
      Tells ⟨id, some .signed, .rejected, .malformedTransaction, engineResultDetails engineResult⟩
  | windowExpired {id last n} : r.status = .expired → r.lastLedgerSequence = some last →
      LedgerAnswered h r n → last < n →
      Tells ⟨id, some .prepared, .expired, .signatureWindowExpired,
        some (.obj [("lastLedgerSequence", .num last)])⟩
  | unsignedExpired {id src last n} : src ∈ unsignedActiveStatuses → r.status = .expired →
      r.lastLedgerSequence = some last → LedgerAnswered h r n → last < n →
      Tells ⟨id, some src, .expired, .signatureWindowExpired,
        some (.obj [("lastLedgerSequence", .num last), ("validatedLedger", .num n)])⟩
  | absent {id src last sequence} : src ∈ signedActiveStatuses → r.status = .expired →
      r.lastLedgerSequence = some last → r.sequence = some sequence →
      Tells ⟨id, some src, .expired, .lastLedgerSequenceExpired,
        some (.obj [("lastLedgerSequence", .num last), ("sequence", .num sequence)])⟩
  | validated {id src result index} : src ∈ signedActiveStatuses → r.status = .validated →
      r.finalResult = some result → r.finalLedgerIndex = some index →
      Tells ⟨id, some src, .validated, .transactionValidated,
        some (.obj [("finalResult", .str result), ("ledgerIndex", .num index)])⟩
  | failed {id src code details} : canTransition src .failed = true → r.status = .failed →
      r.failureCode = some code → Blames P h r code details →
      Tells ⟨id, some src, .failed, code.reason, details⟩

/-- The audit row is about a status that the intent has been in, and what it says is true. -/
structure Told (a : AuditRow) : Prop where
  leads : a.toStatus.Leads r.status
  tells : Tells P h r a

section Tells

variable {P h} {h' : History} {pid : ℕ} {l : Call} {c cur r r' : IntentRow} {a : AuditRow}

/-! ### The answers stay in the history -/

theorem SequenceAnswered.mono {current : Option ℕ} (ha : SequenceAnswered h r current)
    (hh : h <+: h') : SequenceAnswered h' r current := by
  obtain ⟨pid, response, account, hq, hread⟩ := ha
  exact ⟨pid, response, account, hq.mono hh, hread⟩

theorem LedgerAnswered.mono {n : ℕ} (ha : LedgerAnswered h r n) (hh : h <+: h') :
    LedgerAnswered h' r n := by
  obtain ⟨pid, hl | ⟨account, ha⟩⟩ := ha
  · exact ⟨pid, .inl (hl.mono hh)⟩
  · exact ⟨pid, .inr ⟨account, ha.mono hh⟩⟩

theorem Blames.mono {code : FailureCode} {details : Option Json} (hb : Blames P h r code details)
    (hh : h <+: h') : Blames P h' r code details := by
  cases hb with
  | mismatch => exact .mismatch
  | conflict hsequence ha hgt => exact .conflict hsequence (ha.mono hh) hgt
  | regression hsequence ha hlt => exact .regression hsequence (ha.mono hh) hlt
  | inconsistent hf hcon => exact .inconsistent (hf.mono hh) hcon
  | unexpected hf hres => exact .unexpected (hf.mono hh) hres

theorem Told.heard (ha : Told P h r a) (hh : h <+: h') : Told P h' r a := by
  obtain ⟨hleads, htells⟩ := ha
  refine ⟨hleads, ?_⟩
  cases htells with
  | created => exact .created
  | prepared h₁ h₂ h₃ => exact .prepared h₁ h₂ h₃
  | simulated hresult => exact .simulated hresult
  | passed hresult => exact .passed hresult
  | simulationRejected hs hresult hne => exact .simulationRejected hs hresult hne
  | signed hhash => exact .signed hhash
  | submitted ha htem => exact .submitted (ha.mono hh) htem
  | malformed hs hresult htem => exact .malformed hs hresult htem
  | windowExpired hs hlast ha hn => exact .windowExpired hs hlast (ha.mono hh) hn
  | unsignedExpired hsrc hs hlast ha hn => exact .unsignedExpired hsrc hs hlast (ha.mono hh) hn
  | absent hsrc hs hlast hsequence => exact .absent hsrc hs hlast hsequence
  | validated hsrc hs hresult hindex => exact .validated hsrc hs hresult hindex
  | failed hcan hs hcode hb => exact .failed hcan hs hcode (hb.mono hh)

/-! ### The columns stay as they are -/

/-- The prepared columns that audit rows repeat, in a later version. -/
theorem IntentRow.Le.window (hle : r.Le r') (hs : r.status ≠ .created) :
    r'.sequence = r.sequence ∧ r'.feeDrops = r.feeDrops ∧
      r'.lastLedgerSequence = r.lastLedgerSequence := by
  have hcols := hle.prepared hs
  simp only [IntentRow.preparedColumns, Prod.mk.injEq] at hcols
  obtain ⟨-, -, -, hsequence, hfee, hlast, -⟩ := hcols
  exact ⟨hsequence.symm, hfee.symm, hlast.symm⟩

/-- The blob that was submitted is that of every later version. -/
theorem AnsweredBy.later {result : SubmitResult} {raw : Record}
    (ha : AnsweredBy h pid (.submit r.id) r result raw) (hle : r.Le r')
    (hs : Status.Leads .submitted r.status) :
    AnsweredBy h pid (.submit r'.id) r' result raw := by
  obtain ⟨-, blob, response, hblob, hq⟩ := ha
  obtain ⟨hcreated, -, hunsigned⟩ := Status.not_back (s := .submitted) hs
  have hcols := hle.signed (hcreated (by decide)) (hunsigned (by decide) (by decide))
  simp only [IntentRow.signedColumns, Prod.mk.injEq] at hcols
  exact ⟨rfl, blob, response, hcols.1.symm.trans hblob, hq⟩

/-- **What an audit row says stays true.** -/
theorem Told.mono (ha : Told P h r a) (hle : r.Le r') : Told P h r' a := by
  obtain ⟨hleads, htells⟩ := ha
  refine ⟨hleads.trans hle.leads, ?_⟩
  have same (s : Status) (hs : isTerminal s = true) (hr : r.status = s) : r = r' :=
    hle.eq_of_isTerminal (hr ▸ hs)
  cases htells with
  | created => exact .created
  | prepared hsequence hfee hlast =>
    obtain ⟨h₁, h₂, h₃⟩ := hle.window ((Status.not_back (s := .prepared) hleads).1 (by decide))
    exact .prepared (h₁.trans hsequence) (h₂.trans hfee) (h₃.trans hlast)
  | simulated hresult =>
    obtain ⟨hcreated, hprepared, -⟩ := Status.not_back (s := .simulated) hleads
    have hcols := hle.simulation (hcreated (by decide)) (hprepared (by decide) (by decide))
    exact .simulated ((IntentRow.engine_of_simulationColumns hcols.symm).trans hresult)
  | passed hresult =>
    obtain ⟨hcreated, hprepared, -⟩ := Status.not_back (s := .awaitingSignature) hleads
    have hcols := hle.simulation (hcreated (by decide)) (hprepared (by decide) (by decide))
    exact .passed ((IntentRow.engine_of_simulationColumns hcols.symm).trans hresult)
  | signed hhash =>
    obtain ⟨hcreated, -, hunsigned⟩ := Status.not_back (s := .signed) hleads
    have hcols := hle.signed (hcreated (by decide)) (hunsigned (by decide) (by decide))
    simp only [IntentRow.signedColumns, Prod.mk.injEq] at hcols
    exact .signed (hcols.2.1.symm.trans hhash)
  | submitted hanswer htem => exact .submitted (hanswer.later hle hleads) htem
  | simulationRejected hs hresult hne =>
    obtain rfl := same .rejected rfl hs
    exact .simulationRejected hs hresult hne
  | malformed hs hresult htem =>
    obtain rfl := same .rejected rfl hs
    exact .malformed hs hresult htem
  | windowExpired hs hlast hledger hn =>
    obtain rfl := same .expired rfl hs
    exact .windowExpired hs hlast hledger hn
  | unsignedExpired hsrc hs hlast hledger hn =>
    obtain rfl := same .expired rfl hs
    exact .unsignedExpired hsrc hs hlast hledger hn
  | absent hsrc hs hlast hsequence =>
    obtain rfl := same .expired rfl hs
    exact .absent hsrc hs hlast hsequence
  | validated hsrc hs hresult hindex =>
    obtain rfl := same .validated rfl hs
    exact .validated hsrc hs hresult hindex
  | failed hcan hs hcode hblames =>
    obtain rfl := same .failed rfl hs
    exact .failed hcan hs hcode hblames

/-! ### The move -/

theorem AccountRead.congr {account : AccountInfo} {n : ℕ} (ha : AccountRead h pid c account n)
    (hs : r.sourceAccount = c.sourceAccount) : AccountRead h pid r account n := by
  unfold AccountRead at ha ⊢
  rwa [hs]

theorem AccountRead.answered {account : AccountInfo} {n : ℕ}
    (ha : AccountRead h pid r account n) : SequenceAnswered h r (some account.sequence) := by
  obtain ⟨response, hread, ⟨-, hq⟩ | ⟨_, -, -, hq⟩⟩ := ha
  · exact ⟨pid, response, some account, hq, hread, rfl⟩
  · exact ⟨pid, response, some account, hq.of_sublist (by simp), hread, rfl⟩

theorem AbsentBy.answered {hash : String} {prepared last sequence : ℕ}
    {account : Option AccountInfo} (ha : AbsentBy h pid r hash prepared last sequence account) :
    SequenceAnswered h r (account.map (·.sequence)) := by
  obtain ⟨_, _, response, _, hq, -, -, -, hread⟩ := ha.heard
  exact ⟨pid, response, account, hq.of_sublist (by simp), hread, rfl⟩

/-- A transition out of one status, which the version it was decided on had. -/
theorem IntentRow.Le.from_eq {s : Status} {request : TransitionRequest}
    (hreq : request.fromStatuses = [s]) (hfrom : cur.status ∈ request.fromStatuses) :
    cur.status = s := by
  rw [hreq] at hfrom
  exact List.mem_singleton.mp hfrom

/-- **What an audit row says is true when it is written.** -/
theorem Move.tells {request : TransitionRequest} (hm : Move P h pid l c request)
    (hle : c.Le cur) (hfrom : cur.status ∈ request.fromStatuses)
    (hcan : canTransition cur.status request.toStatus = true) (t : ℕ)
    (hcur : cur.Le (request.updated P t cur)) :
    Tells P h (request.updated P t cur) (request.audit c.id cur.status) := by
  have hsigned : ∀ s ∈ signedActiveStatuses, s ≠ Status.created := by decide
  have hunsigned : ∀ s ∈ unsignedActiveStatuses, s ≠ Status.created := by decide
  have atOnly {s : Status} (hreq : request.fromStatuses = [s]) : cur.status = s :=
    IntentRow.Le.from_eq hreq hfrom
  have later := hle.trans hcur
  have haccount := later.account.2.symm
  have same (hs : c.status ∈ signedActiveStatuses) := later.sameArtifact hs
  cases hm with
  | prepared =>
    rw [atOnly rfl]
    exact .prepared rfl rfl rfl
  | windowExpired hs hlast hledger hn =>
    rw [atOnly rfl]
    exact .windowExpired rfl ((later.window (by rw [hs]; decide)).2.2.trans hlast)
      ⟨pid, .inl hledger⟩ hn
  | mismatch =>
    rw [atOnly rfl]
    exact @Tells.failed _ _ _ _ _ .simulationArtifactMismatch _ rfl rfl rfl .mismatch
  | simulated =>
    rw [atOnly rfl]
    exact .simulated rfl
  | simulationPassed hs hresult =>
    have hcur := hle.eq_of_from hs hfrom (by decide)
    rw [atOnly rfl]
    exact .passed (hcur ▸ hresult)
  | simulationRejected hs hresult hne =>
    obtain rfl := hle.eq_of_from hs hfrom (by decide)
    rw [hs]
    exact .simulationRejected rfl hresult hne
  | signatureExpired hs hlast hread hn =>
    exact .unsignedExpired (by rw [atOnly rfl]; decide) rfl
      ((later.window (by rw [hs]; decide)).2.2.trans hlast)
      ⟨pid, .inr ⟨_, hread.congr haccount⟩⟩ hn
  | @sequenceChanged account last n sequence _ hs _ hsequence hread _ _ _ hne =>
    have hsequence := (later.window (by rw [hs]; decide)).1.trans hsequence
    have hread := (hread.congr haccount).answered
    refine .failed hcan rfl rfl ?_
    unfold sequenceChangedCode
    split_ifs with hgt
    · exact .conflict hsequence hread fun n hn => Option.some.inj hn ▸ hgt
    · exact .regression hsequence hread (by omega)
  | signed =>
    rw [atOnly rfl]
    exact .signed rfl
  | malformed _ _ _ htem =>
    rw [atOnly rfl]
    exact .malformed rfl rfl htem
  | submitted _ hs hanswer htem =>
    rw [atOnly rfl]
    have hl := hanswer.congr (same (hs ▸ by decide))
    exact .submitted (hl.1 ▸ hl) htem
  | unsignedExpired hs hlast hledger hn =>
    exact .unsignedExpired hfrom rfl ((later.window (hunsigned _ hs)).2.2.trans hlast)
      ⟨pid, .inl hledger⟩ hn
  | validated => exact .validated hfrom rfl rfl rfl
  | inconsistent hs hf hcon =>
    exact @Tells.failed _ _ _ _ _ .finalityIntegrityError _ hcan rfl rfl
      (.inconsistent (hf.congr (same hs)) hcon)
  | unexpected hs hf _ _ hres =>
    exact @Tells.failed _ _ _ _ _ .unexpectedValidatedResult _ hcan rfl rfl
      (.unexpected (hf.congr (same hs)) hres)
  | absent hs hgrounds =>
    obtain ⟨hsequence, -, hlast⟩ := later.window (hsigned _ hs)
    exact .absent hfrom rfl (hlast.trans hgrounds.last_eq) (hsequence.trans hgrounds.sequence_eq)
  | sequenceConflict hs hgrounds hgt =>
    have hgrounds := hgrounds.congr (same hs)
    refine @Tells.failed _ _ _ _ _ .sequenceConflict _ hcan rfl rfl
      (.conflict hgrounds.sequence_eq hgrounds.answered fun n hn => ?_)
    obtain ⟨a, ha, rfl⟩ := Option.map_eq_some_iff.mp hn
    exact hgt a ha
  | sequenceRegression hs hgrounds hlt =>
    have hgrounds := hgrounds.congr (same hs)
    exact @Tells.failed _ _ _ _ _ .sequenceRegression _ hcan rfl rfl
      (.regression hgrounds.sequence_eq hgrounds.answered hlt)

end Tells

section Runs

variable {P : Platform} {ok : StepCond Op Op.Ret Failure Reply Call State} {k k' : Sys}
  {a : Act Op Op.Ret Failure Reply Call} {id : String}

/-- The audit rows of the intent are true of its row. -/
def Db.Tells (P : Platform) (h : History) (db : Db) (id : String) : Prop :=
  ∀ row, db.find id = some row → ∀ a ∈ db.trail id, Told P h row a

/-- Another row is written, or this one without a transition. -/
theorem Db.Tells.kept {h h' : History} {db db' : Db} (ht : Db.Tells P h db id) (hh : h <+: h')
    (htrail : db'.trail id = db.trail id)
    (hfind : ∀ row', db'.find id = some row' → ∃ row, db.find id = some row ∧ row.Le row') :
    Db.Tells P h' db' id := by
  intro row' hf' a ha
  rw [htrail] at ha
  obtain ⟨row, hf, hle⟩ := hfind row' hf'
  exact ((ht row hf a ha).heard hh).mono hle

/-- **One step** keeps what the audit rows of an intent say true. -/
theorem step_tells (hk : Reach (system P) ok k) (hs : Step (system P) k a k')
    (h : Db.Tells P k.log k.state.db id) : Db.Tells P k'.log k'.state.db id := by
  cases hs with
  | start | finish | kill => exact h
  | env hx => obtain ⟨ledger, rfl⟩ := hx; exact h
  | restart hx => obtain ⟨networkId, rfl⟩ := hx; exact h
  | @op as bs pid l op cont r s hp hx =>
    have hok := reach_ok hk
    have hpermit := (reach_holds hk).permit hp
    have hh : k.log <+: k.log ++ [⟨pid, l, op, r⟩] := List.prefix_append _ _
    change Db.Tells P (k.log ++ [⟨pid, l, op, r⟩]) s.db id
    have same (db' : Db) (htrail : db'.trail id = k.state.db.trail id)
        (hf : db'.find id = k.state.db.find id) :
        Db.Tells P (k.log ++ [⟨pid, l, op, r⟩]) db' id :=
      h.kept hh htrail fun row' hf' => ⟨row', hf ▸ hf', .refl row'⟩
    by_cases hw : op.writes = true
    · cases op with
      | transition id' request =>
        obtain ⟨c, hc, rfl, hm⟩ := hpermit
        rcases transition_step hok hc hm hx with
          ⟨rfl, -⟩ | ⟨cur, t, hf, hle, hfrom, hcan, -, -, hle', -, rfl⟩
        · exact same _ rfl rfl
        · have hfind : ∀ id, Db.find _ id = _ := Db.find_written hf hle'
          by_cases he : id = c.id
          · subst he
            intro row' hf' a ha
            obtain rfl := Option.some.inj (((hfind _).trans (if_pos rfl)).symm.trans hf')
            have hid : (request.audit c.id cur.status).intentId = c.id := rfl
            rw [trail_append_self hid] at ha
            obtain ha | ha := List.mem_append.mp ha
            · exact ((h cur hf a ha).heard hh).mono hle'
            · rw [List.mem_singleton.mp ha]
              exact Told.heard ⟨.refl _, hm.tells hle hfrom hcan t hle'⟩ hh
          · exact same _ (trail_append_other (Ne.symm he)) ((hfind id).trans (if_neg he))
      | updateInStatus id' statuses patch =>
        obtain ⟨c, hc, rfl, ht⟩ := hpermit
        rcases updateInStatus_step hok hc ht hx with
          ⟨rfl, -⟩ | ⟨cur, t, hf, -, -, -, -, -, hle', -, rfl⟩
        · exact same _ rfl rfl
        · have hfind : ∀ id, Db.find _ id = _ := Db.find_written hf hle'
          by_cases he : id = c.id
          · subst he
            refine h.kept hh rfl fun row' hf' => ⟨cur, hf, ?_⟩
            obtain rfl := Option.some.inj (((hfind _).trans (if_pos rfl)).symm.trans hf')
            exact hle'
          · exact same _ rfl ((hfind id).trans (if_neg he))
      | createIdempotent row =>
        obtain ⟨idempotencyKey, dto, newId, networkId, t, -, rfl⟩ := hpermit
        rcases createIdempotent_step hx with ⟨rfl, -⟩ | ⟨row, rfl, hst, hf, -, -, -, rfl⟩
        · exact same _ rfl rfl
        · by_cases he : row.id = id
          · subst he
            intro row' hf' a ha
            rw [Db.find_append hf, if_pos rfl, Option.some.injEq] at hf'
            subst hf'
            have hid : (AuditRow.mk row.id none .created .intentCreated none).intentId = row.id := rfl
            rw [trail_append_self hid, (reach_trail hk row.id).2 hf, List.nil_append,
              List.mem_singleton] at ha
            rw [ha]
            exact ⟨hst ▸ .refl _, .created⟩
          · refine same _ (trail_append_other he) ?_
            exact (Db.find_append hf _ id).trans (if_neg (Ne.symm he))
      | _ => cases hw
    · obtain ⟨choice, hx⟩ := hx
      have hdb : s.db = k.state.db := perform_db (by simpa using hw) hx
      exact same _ (by rw [hdb]) (by rw [hdb])

/-- **In every run** the audit rows are true. -/
theorem reach_tells (hk : Reach (system P) ok k) (id : String) :
    Db.Tells P k.log k.state.db id := by
  refine hk.inv (P := fun k => Db.Tells P k.log k.state.db id) (fun s hs row hf => ?_)
    fun k a k' hk ih hs _ => step_tells hk hs ih
  change s.db.find id = some row at hf
  rw [hs.1] at hf
  cases hf

end Runs

/-- **The audit trail says what became of the intent.** In every configuration of every run, each
audit row of an intent belongs to a move that is made for its reason, and what it says is true: of
the intent as it is now (the Sequence, the fee and the last ledger it was prepared with, the result
of its simulation, its hash, its final result, the window it missed), or of an answer about it that
a call received (the engine result it was first recorded as submitted with, the validated ledger
past its window, the Sequence, hash, ledger or result that failed it). The last row of an intent
that failed names its failure code. -/
theorem audit_tells (P : Platform) (k : Sys) (hk : Reach (system P) anyStep k) (row : IntentRow)
    (hr : row ∈ k.state.db.rows) :
    (∀ a ∈ k.state.db.trail row.id, Tells P k.log row a) ∧
    ∀ code, row.failureCode = some code →
      (k.state.db.trail row.id).getLast?.map (·.reasonCode) = some code.reason := by
  have hf := (reach_ok hk).ids row hr
  have htells := reach_tells hk row.id row hf
  refine ⟨fun a ha => (htells a ha).tells, fun code hcode => ?_⟩
  have hstatus := ((reach_ok hk).rows row hr).failed.mp (hcode ▸ rfl)
  obtain ⟨a, hlast, hto⟩ := Option.map_eq_some_iff.mp ((reach_trail hk row.id).1 row hf).last
  rw [hlast, Option.map_some]
  rw [hstatus] at hto
  cases (htells a (List.mem_of_getLast? hlast)).tells with
  | failed _ _ hcode' _ =>
    obtain rfl := Option.some.inj (hcode.symm.trans hcode')
    rfl
  | _ => cases hto

/-- An intent whose transaction is reported from a ledger after its window. -/
theorem audit_tells_failed : ∃ (k : Sys) (row : IntentRow), row ∈ k.state.db.rows ∧
    row.failureCode = some .finalityIntegrityError ∧
    (∀ a ∈ k.state.db.trail row.id, Tells Sample.platform k.log row a) ∧
    (k.state.db.trail row.id).getLast?.map (·.reasonCode) = some .finalityIntegrityError := by
  obtain ⟨k, -, hk, hφ⟩ := exists_of_play Sample.platform anyStep []
    (Sample.signedIntent 3 ++ Sample.searched 4 4 (Sample.foundAnswer 5 99) ++ Sample.tick 4 2)
    (fun k => k.state.db.rows.any fun r => r.failureCode = some .finalityIntegrityError)
    (by decide +kernel)
  obtain ⟨row, hr, hcode⟩ := List.any_eq_true.mp hφ
  have hcode : row.failureCode = some .finalityIntegrityError := of_decide_eq_true hcode
  obtain ⟨htells, hreason⟩ := audit_tells Sample.platform k hk row hr
  exact ⟨k, row, hr, hcode, htells, hreason _ hcode⟩

end Orchestrator
