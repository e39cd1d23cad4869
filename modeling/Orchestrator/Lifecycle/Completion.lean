import Orchestrator.Preparation.Resumption
import Orchestrator.Runtime.Schedules

/-!
# Every intent can be completed

An intent that can be prepared, and whose owner signs it, can be carried to its validation, from
wherever earlier calls have left it and whatever other calls are in flight.

* `Fits`, `gives_attachSignature`, **`signature_accepted`**: a signature that fits is accepted;
* `Oracle.Submits`, `gives_submit`: an answered submission is recorded;
* `Script.Finds`, `foundScript`, `cycle_concludes`: a cycle that finds the transaction;
* `Completable`, **`intent_completes`**.
-/

namespace Orchestrator

open Interleave

variable {P : Platform}

/-! ## The signature -/

/-- The account as it is read when a signature comes in: its Sequence has not moved, the window has
not passed, and it lets the key sign. -/
structure Oracle.Authorizes (P : Platform) (o : Oracle) (sourceAccount : String) (terms : Terms)
    (signingPubKey : String) : Prop where
  answers : ∃ account index,
    readAccountInfo (o.answer (.accountInfo sourceAccount false)) = .ok (some account) ∧
    account.ledgerIndex = some index ∧ index ≤ terms.lastLedgerSequence ∧
    account.sequence = terms.sequence ∧
    assertAuthorized P signingPubKey sourceAccount account = .ok ()

/-- No other intent has this hash. -/
def Db.HashFree (db : Db) (id hash : String) : Prop :=
  ∀ r, db.find r.id = some r → r.id ≠ id → r.transactionHash ≠ some hash

/-- **A signature that fits** what the intent has been prepared with. -/
structure Fits (P : Platform) (o : Oracle) (db : Db) (row : IntentRow) (terms : Terms)
    (txBlob : String) (verified : VerifiedSignedBlob) : Prop where
  verifies : verify P txBlob terms.preparedTxBlob = .ok verified
  authorizes : o.Authorizes P row.sourceAccount terms verified.signingPubKey
  hash : isHash verified.transactionHash = true
  free : db.HashFree row.id verified.transactionHash

/-- The row is in the table, and the table is as in every run. -/
structure Db.Stands (P : Platform) (db : Db) (row : IntentRow) : Prop where
  ok : db.Ok P
  tidy : db.Tidy
  found : db.find row.id = some row

/-- What an accepted signature leaves. -/
structure SignedAs (row next : IntentRow) (terms : Terms) (verified : VerifiedSignedBlob) :
    Prop where
  status : next.status = .signed
  terms : next.PreparedAs terms
  signedTxBlob : next.signedTxBlob = some verified.txBlob
  transactionHash : next.transactionHash = some verified.transactionHash
  signingPubKey : next.signingPubKey = some verified.signingPubKey

theorem Reach.stands {k : Sys} {row : IntentRow} (hk : Reach (system P) anyStep k)
    (hf : k.state.db.find row.id = some row) : k.state.db.Stands P row :=
  ⟨reach_ok hk, reach_tidy hk, hf⟩

section Signing

variable {o : Oracle} {s : State} {db : Db} {row : IntentRow} {terms : Terms}
  {verified : VerifiedSignedBlob} {txBlob : String}

theorem admits_signed (t : ℕ) (h : db.Stands P row) (hs : row.status = .awaitingSignature)
    (hhash : isHash verified.transactionHash = true)
    (hfree : db.HashFree row.id verified.transactionHash) (signedAt : ℕ) :
    db.Admits P t (signedRequest verified signedAt) row := by
  refine Db.transition_updated h.found (by simp [signedRequest, hs]) (by rw [hs]; rfl) ?_
    (h.ok.conflictsActive_kept h.found rfl fun _ => by rw [IntentRow.active, hs]; rfl) ?_
  · have hchecks := h.tidy.checked row (Db.mem_of_find h.found)
    simp only [IntentRow.checks, Bool.and_eq_true] at hchecks
    obtain ⟨⟨⟨⟨⟨hrequest, -⟩, hnetwork⟩, hfee⟩, hprepared⟩, hlast⟩ := hchecks
    simp only [signedRequest, TransitionRequest.updated, IntentPatch.apply, IntentRow.checks,
      Option.none_or, Option.some_or, Option.all_some, Bool.and_eq_true]
    exact ⟨⟨⟨⟨⟨hrequest, hhash⟩, hnetwork⟩, hfee⟩, hprepared⟩, hlast⟩
  · refine Bool.eq_false_iff.mpr fun hconflict => ?_
    obtain ⟨-, hany⟩ := Bool.and_eq_true_iff.mp hconflict
    obtain ⟨r, hr, hother⟩ := List.any_eq_true.mp hany
    obtain ⟨hne, heq⟩ := Bool.and_eq_true_iff.mp hother
    exact hfree r (h.ok.ids r hr) (bne_iff_ne.mp hne) (eq_of_beq heq)

open Oracle

theorem gives_attachSignature (hopen : s.recovered = true) (h : s.db.Stands P row)
    (hs : row.status = .awaitingSignature) (hterms : row.PreparedAs terms)
    (hfits : Fits P o s.db row terms txBlob verified) :
    ∃ next s', o.Gives P (attachSignature P row.id txBlob) s next s' ∧ Moved row next s s' ∧
      SignedAs row next terms verified := by
  have hadmits := admits_signed o.time h hs hfits.hash hfits.free o.time
  obtain ⟨account, index, hread, hindex, hle, hsequence, hauthorized⟩ := hfits.authorizes.answers
  have hopenAnswer : settledAnswer P row txBlob = .ok none := by
    unfold settledAnswer
    rw [hs]
  have hledger : o.Gives P (ledgerIndexOf account) s index s := by
    unfold ledgerIndexOf
    rw [hindex]
    exact gives_ret index
  have hsettled : o.Gives P (settleSignature P row.id row verified account terms.sequence
      terms.lastLedgerSequence) s (some ((signedRequest verified o.time).updated P o.time row))
      { s with db := s.db.after P o.time (signedRequest verified o.time) row } := by
    refine hledger.bind ?_
    rw [if_neg (by omega)]
    refine (gives_ofExcept hauthorized).bind ?_
    rw [if_neg (by simp [hsequence])]
    exact gives_now.bind (gives_transition hadmits)
  refine ⟨_, _, ?_, moved_after (P := P) h.found o.time (signedRequest verified o.time), rfl,
    ⟨hterms.1, hterms.2, hterms.3⟩, rfl, rfl, rfl⟩
  refine (gives_load h.found).bind ((gives_ofExcept hopenAnswer).bind ?_)
  refine (gives_assertRecovered hopen).bind ((gives_required hterms.preparedTxBlob _).bind ?_)
  refine (gives_required hterms.sequence _).bind ?_
  refine (gives_required hterms.lastLedgerSequence _).bind ?_
  refine (gives_ofExcept hfits.verifies).bind ((gives_ask hread).bind ?_)
  exact hsettled.bind (gives_ret _)

end Signing

/-- **A signature that fits is accepted.** In every configuration of every run in which the gate is
open, if an intent awaits its signature, a call with a blob that verifies against the prepared one,
by a key that the account lets sign, while its Sequence has not moved and the window has not passed,
stores that blob and its hash; no other intent is touched. -/
theorem signature_accepted (P : Platform) (k : Sys) (hk : Reach (system P) anyStep k)
    (hopen : k.state.recovered = true) (o : Oracle) (row : IntentRow)
    (hf : k.state.db.find row.id = some row) (hs : row.status = .awaitingSignature) (terms : Terms)
    (hterms : row.PreparedAs terms) (txBlob : String) (verified : VerifiedSignedBlob)
    (hfits : Fits P o k.state.db row terms txBlob verified) :
    ∃ (k₁ k' : Sys) (next : IntentRow), Runs (system P) anyStep k k₁ ∧
      Step (system P) k₁ (.finish k.next (.attachSignature row.id txBlob) (.ok (.intent next))) k' ∧
      k'.pool = k.pool ∧ Moved row next k.state k'.state ∧ SignedAs row next terms verified := by
  obtain ⟨next, s', hgives, hmoved, hsigned⟩ :=
    gives_attachSignature hopen (Reach.stands hk hf) hs hterms hfits
  have hcall : o.Gives P (handle P (.attachSignature row.id txBlob)) k.state (.intent next) s' :=
    hgives.map Reply.intent
  obtain ⟨k₁, k', hruns, hfinish, hpool, hstate⟩ := Oracle.call_gives hk hcall
  exact ⟨k₁, k', next, hruns.any, hfinish, hpool, hstate ▸ hmoved, hsigned⟩

namespace Sample

/-- The signed blob of `i5`, as it verifies. -/
def verified : VerifiedSignedBlob := ⟨"05AB", hash 5, "ED01"⟩

theorem fits {db : Db} {row : IntentRow} (hrow : row ∈ db.rows)
    (haccount : row.sourceAccount = "rA") (hids : ∀ r ∈ db.rows, r.id = "i5") :
    Fits platform oracle db row terms "05AB" verified where
  verifies := by rfl
  authorizes := by
    rw [haccount]
    exact ⟨⟨_, 3, rfl, rfl, by decide, rfl, by rfl⟩⟩
  hash := by decide
  free r hr hne := absurd ((hids r (Db.mem_of_find hr)).trans (hids row hrow).symm) hne

/-- `i5` waits for its signature. -/
def waitingSignature : Schedule := recovered 0 3 ++ created 1 "i5" ++ prepared 2 "i5" 5 3

end Sample

/-- The owner of a prepared intent signs it. -/
theorem signature_accepted_first : ∃ (k k₁ : Sys) (row next : IntentRow), row ∈ k.state.db.rows ∧
    Runs (system Sample.platform) anyStep k k₁ ∧
    SignedAs row next Sample.terms Sample.verified := by
  obtain ⟨k, -, hk, hφ⟩ := exists_of_play Sample.platform anyStep [] Sample.waitingSignature
    (Sample.holdsPrepared .awaitingSignature) (by decide +kernel)
  obtain ⟨hopen, hids, row, hrow, hstatus, haccount, hterms⟩ := Sample.holdsPrepared_row hφ
  obtain ⟨k₁, k', next, hruns, -, -, -, hsigned⟩ := signature_accepted Sample.platform k hk hopen
    Sample.oracle row ((reach_ok hk).ids row hrow) hstatus Sample.terms hterms "05AB"
    Sample.verified (Sample.fits hrow haccount hids)
  exact ⟨k, k₁, row, next, hrow, hruns, hsigned⟩

/-! ## The submission -/

/-- The answers to a submission of the signed blob: the window is open, and the result is not that
of a malformed transaction. -/
structure Oracle.Submits (o : Oracle) (txBlob : String) (lastLedgerSequence : ℕ)
    (result : SubmitResult) : Prop where
  ledger : ∃ index, readLedgerIndex (o.answer .ledger) = .ok index ∧ index ≤ lastLedgerSequence
  response : ∃ raw, readSubmit txBlob (o.answer (.submit txBlob)) = .ok (result, raw)
  accepted : isMalformed result = false

/-- What an answered submission leaves: the signed blob as it was, and one attempt more. -/
structure SubmittedAs (row next : IntentRow) (result : SubmitResult) : Prop where
  status : next.status = .submitted
  prepared : next.preparedColumns = row.preparedColumns
  signed : next.signedColumns = row.signedColumns
  engineResult : next.submitEngineResult = some result.engineResult
  attempts : next.submissionAttemptCount = row.submissionAttemptCount + 1

section Submitting

variable {o : Oracle} {s : State} {db : Db} {row cur : IntentRow} {patch : IntentPatch}
  {result : SubmitResult}

/-- An update that keeps the status and sets no column that a constraint is about. -/
theorem updates_free (t : ℕ) (h : db.Stands P cur) (patch : IntentPatch)
    {statuses : List Status} (hfrom : cur.status ∈ statuses) (hfree : patch.Free) :
    db.violation (patch.updated P t cur) = none ∧
      db.updateInStatus P t cur.id statuses patch =
        (.ok (some (patch.updated P t cur)), db.put (patch.updated P t cur)) := by
  have hm := Db.mem_of_find h.found
  have hchecks : (patch.updated P t cur).checks = true := by
    rw [← h.tidy.checked cur hm]
    simp [IntentPatch.updated, IntentPatch.apply, IntentRow.checks, hfree.hash, hfree.fee,
      hfree.prepared, hfree.last]
  have hactive := h.ok.conflictsActive_kept (r := patch.updated P t cur) h.found rfl fun ha => ha
  have hhash := h.ok.conflictsHash_kept (r := patch.updated P t cur) hm rfl
    (by simp [IntentPatch.updated, IntentPatch.apply, hfree.hash])
  have hv : db.violation (patch.updated P t cur) = none := by
    simp [Db.violation, hchecks, hactive, hhash]
  exact ⟨hv, by simp [Db.updateInStatus, h.found, hfrom, hv]⟩

/-- The tables with the baseline of a signed intent. -/
theorem stands_baseline (h : db.Stands P row) (hs : row.status ∈ signedActiveStatuses) (n t : ℕ) :
    (db.put ((baseline n).updated P t row)).Stands P ((baseline n).updated P t row) := by
  obtain ⟨hv, -⟩ := updates_free t h (baseline n) hs ⟨rfl, rfl, rfl, rfl⟩
  have hle : row.Le ((baseline n).updated P t row) :=
    ⟨rfl, .refl _, fun _ => rfl, fun _ _ => rfl, fun _ _ => rfl, fun _ hn => absurd hs hn,
      fun _ => rfl, le_rfl⟩
  have hrow : ((baseline n).updated P t row).Ok P :=
    (h.ok.rows row (Db.mem_of_find h.found)).touch hs rfl rfl rfl rfl rfl rfl rfl
  exact ⟨h.ok.put h.found hle hrow hv, h.tidy.put hv,
    (Db.find_put (r := (baseline n).updated P t row) h.found _).trans (if_pos rfl)⟩

open Oracle

/-- The baseline, if it is not there yet. -/
theorem gives_recordBaseline (h : s.db.Stands P row) (hs : row.status ∈ signedActiveStatuses)
    (n : ℕ) : ∃ cur db, o.Gives P (recordBaseline row n) s () { s with db } ∧ db.Stands P cur ∧
      (cur = row ∨ cur = (baseline n).updated P o.time row) ∧
      ∀ id, id ≠ row.id → db.find id = s.db.find id := by
  unfold recordBaseline
  split_ifs with hnone
  · by_cases hsigned : row.status = .signed
    · obtain ⟨-, hupdate⟩ := updates_free (P := P) o.time h (baseline n)
        (List.mem_singleton.mpr hsigned) ⟨rfl, rfl, rfl, rfl⟩
      refine ⟨_, _, (gives_updateInStatus hupdate).bind (gives_ret ()), stands_baseline h hs n _,
        .inr rfl, fun id hne => ?_⟩
      exact (Db.find_put (r := (baseline n).updated P o.time row) h.found id).trans (if_neg hne)
    · have hnot : s.db.updateInStatus P o.time row.id [.signed] (baseline n) =
          (.ok none, s.db) := by
        simp [Db.updateInStatus, h.found, hsigned]
      exact ⟨row, s.db, (gives_updateInStatus hnot).bind (gives_ret ()), h, .inl rfl,
        fun _ _ => rfl⟩
  · exact ⟨row, s.db, gives_ret (), h, .inl rfl, fun _ _ => rfl⟩

/-- The answer, recorded for the status that the call has seen. -/
theorem gives_recordSubmit (h : s.db.Stands P cur) (hid : cur.id = row.id)
    (hcur : cur.status = row.status) (hs : row.status ∈ signedActiveStatuses)
    (haccepted : isMalformed result = false) (raw : Record) (t : ℕ) :
    ∃ next s', o.Gives P (recordSubmit row result raw t) s (some next) s' ∧
      Moved cur next s s' ∧ SubmittedAs cur next result := by
  unfold recordSubmit
  rw [← hid]
  by_cases hsigned : row.status = .signed
  · rw [if_pos hsigned, if_neg (by simp [haccepted])]
    have hactive : cur.active = true := by
      rw [IntentRow.active, hcur, hsigned]
      rfl
    have hadmits := admits_active (P := P) o.time (submittedRequest result raw t) h.ok h.tidy
      h.found (by simp [submittedRequest, hcur, hsigned]) (by rw [hcur, hsigned]; rfl) hactive
      ⟨rfl, rfl, rfl, rfl⟩
    exact ⟨_, _, gives_transition hadmits, moved_after h.found _ _, rfl, rfl, rfl, rfl, rfl⟩
  · have hsubmitted : cur.status = .submitted := by
      rw [hcur]
      simpa [signedActiveStatuses, hsigned] using hs
    rw [if_neg hsigned]
    obtain ⟨-, hupdate⟩ := updates_free (P := P) o.time h (recorded result raw t)
      (List.mem_singleton.mpr hsubmitted) ⟨rfl, rfl, rfl, rfl⟩
    have hfind := Db.find_put (r := (recorded result raw t).updated P o.time cur) h.found
    refine ⟨_, _, gives_updateInStatus hupdate, ⟨?_, fun id hne => ?_, rfl, rfl⟩, hsubmitted, rfl,
      rfl, rfl, rfl⟩
    · exact (hfind cur.id).trans (if_pos rfl)
    · exact (hfind id).trans (if_neg hne)

theorem gives_submitSigned {txBlob : String} {last : ℕ} (hopen : s.recovered = true)
    (h : s.db.Stands P row) (hs : row.status ∈ signedActiveStatuses)
    (hblob : row.signedTxBlob = some txBlob) (hlast : row.lastLedgerSequence = some last)
    (hsubmits : o.Submits txBlob last result) :
    ∃ next s', o.Gives P (submitSigned P row) s (some next) s' ∧ Moved row next s s' ∧
      SubmittedAs row next result := by
  obtain ⟨index, hledger, hwindow⟩ := hsubmits.ledger
  obtain ⟨raw, hresponse⟩ := hsubmits.response
  obtain ⟨cur, db, hbaseline, hstands, hcur, hothers⟩ := gives_recordBaseline (o := o) h hs index
  have hsame : cur.id = row.id ∧ cur.status = row.status := by
    obtain rfl | rfl := hcur <;> exact ⟨rfl, rfl⟩
  obtain ⟨next, s', hrecord, hmoved, hsubmitted⟩ := gives_recordSubmit (s := { s with db })
    (o := o) hstands hsame.1 hsame.2 hs hsubmits.accepted raw o.time
  refine ⟨next, s', ?_, ⟨hsame.1 ▸ hmoved.found, fun id hne => ?_, hmoved.gate, hmoved.network⟩, ?_⟩
  · refine (gives_assertRecovered hopen).bind ((gives_required hblob _).bind ?_)
    refine (gives_required hlast _).bind ((gives_ask hledger).bind ?_)
    rw [if_neg (by omega)]
    refine hbaseline.bind (gives_now.bind ?_)
    exact (gives_ask hresponse).toExcept.bind hrecord
  · exact (hmoved.others id (hsame.1 ▸ hne)).trans (hothers id hne)
  · obtain rfl | rfl := hcur
    · exact hsubmitted
    · exact ⟨hsubmitted.1, hsubmitted.2, hsubmitted.3, hsubmitted.4, hsubmitted.5⟩

/-- **A submission that is answered.** -/
theorem gives_submit {txBlob : String} {last : ℕ} (hopen : s.recovered = true)
    (h : s.db.Stands P row) (hs : row.status ∈ signedActiveStatuses)
    (hblob : row.signedTxBlob = some txBlob) (hlast : row.lastLedgerSequence = some last)
    (hsubmits : o.Submits txBlob last result) :
    ∃ next s', o.Gives P (submit P row.id) s next s' ∧ Moved row next s s' ∧
      SubmittedAs row next result := by
  obtain ⟨next, s', hsigned, hmoved, hsubmitted⟩ :=
    gives_submitSigned hopen h hs hblob hlast hsubmits
  have hnot : row.status ≠ .validated := by
    intro hv
    rw [hv] at hs
    exact absurd hs (by decide)
  refine ⟨next, s', (gives_load h.found).bind ?_, hmoved, hsubmitted⟩
  change o.Gives P (submitLoop P row.id 3 row) s next s'
  rw [submitLoop_succ, if_neg hnot, if_pos hs]
  exact hsigned.bind (gives_ret next)

end Submitting

/-! ## The validated ledger -/

/-- The look-up of the hash finds the transaction in a validated ledger, with a final result. -/
structure Script.Finds (P : Platform) (script : Script) (hash : String) (index : ℕ)
    (result : String) : Prop where
  search : ∃ lookup raw, searched (script.about hash).lookup = .ok (.found lookup raw) ∧
    lookup.validated = true ∧ lookup.hash.map P.toUpperCase = some hash ∧
    lookup.ledgerIndex = some index ∧ lookup.transactionResult = some result
  final : isFinalResult result = true

/-- What a found transaction leaves. -/
structure Concluded (row next : IntentRow) (index : ℕ) (result : String) : Prop where
  status : next.status = .validated
  prepared : next.preparedColumns = row.preparedColumns
  signed : next.signedColumns = row.signedColumns
  finalResult : next.finalResult = some result
  finalLedgerIndex : next.finalLedgerIndex = some index

section Finding

variable {script : Script} {row : IntentRow} {s : Scene} {n index prepared last : ℕ}
  {hash result : String}

theorem eval_visit_found (h : Present P s row) (hs : row.status ∈ signedActiveStatuses)
    (hagain : s.again = false) (hhash : row.transactionHash = some hash)
    (hprepared : row.preparedLedgerIndex = some prepared)
    (hlast : row.lastLedgerSequence = some last) (hafter : prepared < index) (hle : index ≤ last)
    (hfinds : script.Finds P hash index result) (switchBudget : ℕ) :
    ∃ next, ((visit P row n switchBudget).eval (react P script) s).2.state.db.find row.id =
      some next ∧ Concluded row next index result := by
  have hdisjoint : ∀ s ∈ signedActiveStatuses, unsignedActiveStatuses.contains s = false := by
    decide
  obtain ⟨lookup, raw, hsearch, hvalidated, hsame, hindex, hresult⟩ := hfinds.search
  have hconsistent : isConsistent P lookup hash prepared index last = true := by
    simp [isConsistent, hsame, hafter, hle]
  let t := (script.about hash).finalizedAt
  let request := validatedRequest P lookup raw result index t
  obtain ⟨s', hx, hfound⟩ := eval_transition script request
    (s := { s with hash, again := false }) ⟨h.ok, h.tidy, h.found⟩ hs
    (canTransition_reconciled _ _ (.inl ⟨hs, by simp [request, validatedRequest]⟩))
    ⟨rfl, rfl, rfl, rfl, rfl⟩
  have happly : (applySearch P row (.found lookup raw) n).eval (react P script)
      { s with hash, again := false } = (.ok .validated, s') := by
    unfold applySearch applyFound
    dsimp only
    rw [hhash, hprepared, hlast, hindex, hresult]
    simp only [required, Prog.ret_bind, hvalidated, hconsistent, hfinds.final, Bool.not_true,
      Bool.false_eq_true, if_false]
    exact (Prog.eval_bind_ok rfl _).trans (Prog.eval_bind_ok hx _)
  have hresolved : (resolveSigned P row n switchBudget).eval (react P script) s =
      (.ok (.validated, switchBudget), s') :=
    (eval_resolveSigned hhash hprepared hlast hagain hsearch (by simp) switchBudget).trans
      (Prog.eval_bind_ok happly _)
  have hvisit : (visit P row n switchBudget).eval (react P script) s =
      (.ok (false, switchBudget), s') := by
    unfold visit
    rw [if_neg (by simpa using hdisjoint _ hs), if_pos (by simpa using hs)]
    exact Prog.eval_bind_ok hresolved _
  rw [hvisit]
  exact ⟨_, hfound, rfl, rfl, rfl, rfl, rfl⟩

end Finding

/-- What the look-up of such a transaction reports. -/
def foundLookup (reported : String) (index : ℕ) (result : String) : TxLookup where
  hash := some reported
  validated := true
  ledgerIndex := some index
  ledgerHash := none
  transactionResult := some result
  txJson := none
  meta? := some [("TransactionResult", .str result)]

def foundRecord (reported : String) (index : ℕ) (result : String) : Record :=
  [("hash", .str reported), ("validated", .bool true), ("ledger_index", .num index),
    ("meta", .obj [("TransactionResult", .str result)])]

/-- The answers at ledger `index`, which has the transaction of one hash; no other is found. -/
def foundScript (hash reported : String) (index : ℕ) (result : String) : Script :=
  { farScript index with
    about := fun h =>
      if h = hash then
        { (farScript index).about h with lookup := .ok (.ok (foundRecord reported index result)) }
      else (farScript index).about h }

section Found

variable {hash reported result : String} {index : ℕ}

theorem foundScript_searched (hindex : (index : ℤ) ≤ maxSafeInteger) :
    searched ((foundScript hash reported index result).about hash).lookup =
      .ok (.found (foundLookup reported index result) (foundRecord reported index result)) := by
  have hread : parseTx (foundRecord reported index result) =
      .ok (foundLookup reported index result) := by
    simp [parseTx, foundRecord, foundLookup, Record.get?, asRecord, optionalUint, uint, optionalStr,
      hindex, Except.map, bind, Except.bind, pure, Except.pure]
  have hlookup : ((foundScript hash reported index result).about hash).lookup =
      .ok (.ok (foundRecord reported index result)) := by
    simp [foundScript]
  rw [hlookup]
  change (parse (parseTx (foundRecord reported index result)) >>= _) = _
  rw [hread]
  rfl

theorem foundScript_finds (hreported : P.toUpperCase reported = hash)
    (hindex : (index : ℤ) ≤ maxSafeInteger) (hfinal : isFinalResult result = true) :
    (foundScript hash reported index result).Finds P hash index result where
  search := ⟨_, _, foundScript_searched hindex, rfl, congrArg some hreported, rfl, rfl⟩
  final := hfinal

theorem foundScript_tells (hindex : (index : ℤ) ≤ maxSafeInteger) (h : String) :
    (foundScript hash reported index result).Tells index h := by
  by_cases hh : h = hash
  · subst hh
    refine ⟨.inr ⟨_, _, foundScript_searched hindex, rfl⟩, none, ?_, fun a ha => by cases ha⟩
    simp only [foundScript, if_true]
    rfl
  · have habout : (foundScript hash reported index result).about h = (farScript index).about h :=
      if_neg hh
    have htells := farScript_tells index h
    exact ⟨habout ▸ htells.search, habout ▸ htells.account⟩

variable {k : Sys} {row : IntentRow}

/-- **One cycle can find the transaction** of a signed intent, from any configuration, once those in
flight have ended. -/
theorem cycle_concludes (hk : Reach (system P) anyStep k)
    (hf : k.state.db.find row.id = some row) (hs : row.status ∈ signedActiveStatuses) {last : ℕ}
    (hlast : row.lastLedgerSequence = some last) (hmax : (last : ℤ) ≤ maxSafeInteger)
    (hfinal : isFinalResult result = true) :
    ∃ k' next, Runs (system P) (oneAtATime .cycle) k k' ∧
      k'.pool = k.pool.filter (fun t => t.label ≠ .cycle) ∧ k'.state.recovered = true ∧
      k'.state.db.find row.id = some next ∧ Concluded row next last result := by
  have hcreated : ∀ s ∈ signedActiveStatuses, s ≠ Status.created := by decide
  have hactive : ∀ s ∈ signedActiveStatuses, s ∈ sequenceActiveStatuses := by decide
  have hok := (reach_ok hk).rows row (Db.mem_of_find hf)
  obtain ⟨payload, params, blob, index, -, -, -, -, hindex, -, -, hparams, hwindow, -⟩ :=
    hok.prepared (hcreated _ hs)
  obtain ⟨txBlob, preparedTxBlob, v, -, hverify, -, hhash, -⟩ := hok.signed (.inl hs)
  obtain ⟨-, -, -, -, -, -, reported, -, -, -, -, -, -, -, -, -, -, -, hupper, -⟩ :=
    (verify_ok hverify).decoded
  obtain rfl : params.lastLedgerSequence = last := Option.some.inj (hparams.symm.trans hlast)
  have hafter : index < params.lastLedgerSequence := by
    rw [hwindow, lastLedgerSequenceFor, lastLedgerOffset]
    omega
  let last := params.lastLedgerSequence
  let script := foundScript v.transactionHash reported last result
  have hledger : script.currentLedger = .ok last := farScript_currentLedger hmax
  have htells : ∀ row ∈ k.state.db.rows, row.status ∈ signedActiveStatuses →
      ∀ hash, row.transactionHash = some hash → script.Tells last hash :=
    fun _ _ _ hash _ => foundScript_tells hmax hash
  obtain ⟨k', hruns, hpool, hstate⟩ := cycled_from hk hledger htells
  obtain ⟨hrecovered, -⟩ := cycled_settles (reach_ok hk) (reach_tidy hk) htells hledger
  obtain ⟨left, halone⟩ := cycled_alone (reach_ok hk) (reach_tidy hk) htells hledger
    (Db.mem_of_find hf) (hactive _ hs)
  obtain ⟨next, hfound, hconcluded⟩ := eval_visit_found (P := P) (n := last)
    (s := ⟨k.state, "", false⟩) ⟨reach_ok hk, reach_tidy hk, hf⟩ hs rfl hhash hindex hparams hafter
    le_rfl (foundScript_finds hupper.symm hmax hfinal) left
  refine ⟨k', next, hruns, hpool, hstate ▸ hrecovered, ?_, hconcluded⟩
  rw [hstate]
  exact halone.trans hfound

end Found

/-! ## The whole way -/

/-- **What can be completed**, with the end of its window: an intent that can be prepared and whose
owner's signature fits, or one that is signed, if its submission is answered. -/
inductive Completable (P : Platform) (o : Oracle) (s : State) (row : IntentRow) : ℕ → Prop
  | unsigned {terms txBlob verified answer} :
      Ready P o s row terms → Fits P o s.db row terms txBlob verified →
      o.Submits verified.txBlob terms.lastLedgerSequence answer →
      Completable P o s row terms.lastLedgerSequence
  | signed {txBlob last answer} :
      row.status ∈ signedActiveStatuses → row.signedTxBlob = some txBlob →
      row.lastLedgerSequence = some last → o.Submits txBlob last answer →
      Completable P o s row last

section Whole

variable {k k' : Sys} {o : Oracle} {row next : IntentRow} {last : ℕ} {result : String}

/-- The next version is in the table under its own id. -/
theorem Moved.own (hk : Reach (system P) anyStep k) (hruns : Runs (system P) anyStep k k')
    (hf : k.state.db.find row.id = some row) (h : Moved row next k.state k'.state) :
    next.id = row.id ∧ k'.state.db.find next.id = some next := by
  have hid : next.id = row.id := (h.le hk hruns hf).id.symm
  exact ⟨hid, hid ▸ h.found⟩

/-- The rest of the way of a signed intent. -/
theorem signed_completes (hk : Reach (system P) anyStep k) (hopen : k.state.recovered = true)
    (hf : k.state.db.find row.id = some row) (hs : row.status ∈ signedActiveStatuses)
    {txBlob : String} {answer : SubmitResult} (hblob : row.signedTxBlob = some txBlob)
    (hlast : row.lastLedgerSequence = some last) (hsubmits : o.Submits txBlob last answer)
    (hmax : (last : ℤ) ≤ maxSafeInteger) (hfinal : isFinalResult result = true) :
    ∃ k' next, Runs (system P) (oneAtATime .cycle) k k' ∧
      k'.pool = k.pool.filter (fun t => t.label ≠ .cycle) ∧ k'.state.recovered = true ∧
      k'.state.db.find row.id = some next ∧ row.Le next ∧ next.status = .validated ∧
      next.finalResult = some result ∧ next.finalLedgerIndex = some last ∧
      row.submissionAttemptCount < next.submissionAttemptCount := by
  obtain ⟨cur, s', hgives, hmoved, hsubmitted⟩ :=
    gives_submit hopen (Reach.stands hk hf) hs hblob hlast hsubmits
  have hcall : o.Gives P (handle P (.submit row.id)) k.state (.intent cur) s' :=
    hgives.map Reply.intent
  obtain ⟨k₁, hruns, hpool, rfl⟩ := Oracle.call_runs hk hcall
  obtain ⟨hid, hcur⟩ := hmoved.own hk hruns.any hf
  have hlast' : cur.lastLedgerSequence = some last :=
    (congrArg (·.2.2.2.2.2.1) hsubmitted.prepared).trans hlast
  obtain ⟨k₂, next, hruns', hpool', hrecovered, hfound, hend⟩ := cycle_concludes
    (hk.runs hruns.any) hcur (by rw [hsubmitted.status]; decide) hlast' hmax hfinal
  obtain ⟨r, hr, hle⟩ := (runs_rely (hk.runs hruns.any) hruns'.any).1 cur.id cur hcur
  obtain rfl := Option.some.inj (hfound.symm.trans hr)
  refine ⟨k₂, next, (hruns.of_startsOnly (by simp)).trans hruns', hpool ▸ hpool', hrecovered,
    hid ▸ hfound, (hmoved.le hk hruns.any hf).trans hle, hend.status, hend.finalResult,
    hend.finalLedgerIndex, ?_⟩
  have hattempts := hle.attempts
  rw [hsubmitted.attempts] at hattempts
  exact hattempts

theorem Fits.moved {s s' : State} {terms : Terms} {txBlob : String}
    {verified : VerifiedSignedBlob} (h : Fits P o s.db row terms txBlob verified)
    (hmoved : Moved row next s s') (hle : row.Le next) :
    Fits P o s'.db next terms txBlob verified where
  verifies := h.verifies
  authorizes := hle.account.2 ▸ h.authorizes
  hash := h.hash
  free r hr hne := by
    rw [← hle.id] at hne
    rw [hmoved.others r.id hne] at hr
    exact h.free r hr hne

end Whole

/-- **Every intent can be completed.** In every configuration of every run in which the gate is
open, whatever has been killed or restarted before and whatever calls are in flight, an intent that
can still be prepared and signed, or that is signed, can be carried to `VALIDATED` by further calls:
there is a run to a configuration with the same calls in flight, but for cycles, which have ended
before another one starts, in which it is validated, in the last ledger of its window and with any
final result that the ledger may report, after another submission. -/
theorem intent_completes (P : Platform) (hkey : P.EncodeByKey) (hjson : P.JsonbPreserves) (k : Sys)
    (hk : Reach (system P) anyStep k) (hopen : k.state.recovered = true) (o : Oracle)
    (hsim : o.Simulates P) (row : IntentRow) (hf : k.state.db.find row.id = some row) (last : ℕ)
    (h : Completable P o k.state row last) (hmax : (last : ℤ) ≤ maxSafeInteger) (result : String)
    (hfinal : isFinalResult result = true) :
    ∃ (k' : Sys) (next : IntentRow), Runs (system P) (oneAtATime .cycle) k k' ∧
      k'.pool = k.pool.filter (fun t => t.label ≠ .cycle) ∧
      k'.state.recovered = true ∧ k'.state.db.find row.id = some next ∧ row.Le next ∧
      next.status = .validated ∧ next.finalResult = some result ∧
      next.finalLedgerIndex = some last ∧
      row.submissionAttemptCount < next.submissionAttemptCount := by
  cases h with
  | signed hs hblob hlast hsubmits =>
    exact signed_completes hk hopen hf hs hblob hlast hsubmits hmax hfinal
  | @unsigned terms txBlob verified answer hready hfits hsubmits =>
    -- the preparation
    obtain ⟨k₀, row₁, hruns₀, hlast, hmoved₁, hs₁, hterms₁⟩ :=
      prepare_arrives hkey hjson hk hopen hsim hf hready
    obtain ⟨k₁, hfinish, hpool₁, hstate₁⟩ := hlast.finish
    have hruns₁ : Runs (system P) (startsOnly (.prepare row.id)) k k₁ :=
      hruns₀.step hfinish (by simp [startsOnly])
    have hk₁ := hk.runs hruns₁.any
    rw [← hstate₁] at hmoved₁
    have hle₁ := hmoved₁.le hk hruns₁.any hf
    obtain ⟨hid₁, hf₁⟩ := hmoved₁.own hk hruns₁.any hf
    have hopen₁ := hmoved₁.gate.trans hopen
    -- the signature
    obtain ⟨row₂, s₂, hgives₂, hmoved₂, hsigned⟩ := gives_attachSignature hopen₁
      (Reach.stands hk₁ hf₁) hs₁ hterms₁ (hfits.moved hmoved₁ hle₁)
    have hcall₂ : o.Gives P (handle P (.attachSignature row₁.id txBlob)) k₁.state
        (.intent row₂) s₂ := hgives₂.map Reply.intent
    obtain ⟨k₂, hruns₂, hpool₂, rfl⟩ := Oracle.call_runs hk₁ hcall₂
    have hle₂ := hmoved₂.le hk₁ hruns₂.any hf₁
    obtain ⟨hid₂, hf₂⟩ := hmoved₂.own hk₁ hruns₂.any hf₁
    -- the submission and the cycle
    obtain ⟨k₃, next, hruns₃, hpool₃, hrecovered, hfound, hle₃, hvalidated, hfinalResult,
      hfinalIndex, hattempts⟩ := signed_completes (hk₁.runs hruns₂.any) (hmoved₂.gate.trans hopen₁)
        hf₂
        (by rw [hsigned.status]; decide) hsigned.signedTxBlob hsigned.terms.lastLedgerSequence
        hsubmits hmax hfinal
    have hbefore : Runs (system P) (oneAtATime .cycle) k k₂ :=
      (hruns₁.of_startsOnly (by simp)).trans (hruns₂.of_startsOnly (by simp))
    refine ⟨k₃, next, hbefore.trans hruns₃, ?_, hrecovered,
      (hid₂.trans hid₁) ▸ hfound, (hle₁.trans hle₂).trans hle₃, hvalidated, hfinalResult,
      hfinalIndex, lt_of_le_of_lt (hle₁.attempts.trans hle₂.attempts) hattempts⟩
    rw [hpool₃, hpool₂, hpool₁, List.append_nil]

/-- The intent whose preparation has been killed is validated in ledger 23. -/
theorem intent_completes_killed : ∃ (k k' : Sys) (row next : IntentRow), row ∈ k.state.db.rows ∧
    row.status = .prepared ∧ Runs (system Sample.platform) (oneAtATime .cycle) k k' ∧
    k'.state.db.find row.id = some next ∧ next.status = .validated ∧
    next.finalLedgerIndex = some 23 := by
  obtain ⟨k, -, hk, hφ⟩ := exists_of_play Sample.platform anyStep [] Sample.interrupted
    (Sample.holdsPrepared .prepared) (by decide +kernel)
  obtain ⟨hopen, hids, row, hrow, hstatus, haccount, hterms⟩ := Sample.holdsPrepared_row hφ
  have hsubmits : Sample.oracle.Submits "05AB" 23
      ⟨"tesSUCCESS", none, none, none, none, none, none⟩ :=
    ⟨⟨3, rfl, by decide⟩, ⟨_, rfl⟩, by decide⟩
  obtain ⟨k', next, hruns, -, -, hfound, -, hvalidated, -, hindex, -⟩ := intent_completes
    Sample.platform Sample.encodeByKey Sample.jsonbPreserves k hk hopen Sample.oracle
    Sample.oracle_simulates row ((reach_ok hk).ids row hrow) 23
    (.unsigned (.prepared hstatus hterms rfl (by decide)) (Sample.fits hrow haccount hids) hsubmits)
    (by decide) "tesSUCCESS" (by decide)
  exact ⟨k, k', row, next, hrow, hstatus, hruns, hfound, hvalidated, hindex⟩

end Orchestrator
