import Orchestrator.Finality.Progress
import Orchestrator.Lifecycle.Artifact
import Orchestrator.Runtime.Oracle
import Orchestrator.Signing.Acceptance

/-!
# Preparation can be resumed

A call of `prepare` goes on from what the table holds, wherever an earlier one has stopped. If the
ledger answers well, it ends with the intent waiting for its signature.

* `Oracle.Prepares`, `Oracle.Simulates`: the answers about the account, and the echo;
* **`matches_echo`**: a faithful echo is never taken for another transaction;
* `Terms`, `Ready`: an intent that can be prepared, and what it is prepared with;
* `gives_prepareCreated`, `gives_simulatePrepared`, `gives_completeSimulation`: the steps;
* **`prepare_resumes`**.
-/

namespace Orchestrator

open Interleave

variable {P : Platform}

/-! ## A faithful echo -/

/-- The simulation succeeds, and the echo serializes as what was sent. -/
def Oracle.Simulates (P : Platform) (o : Oracle) : Prop :=
  ∀ transaction canonical, toCanonicalForm transaction = .ok canonical → ∃ result raw echo,
    readSimulation canonical (o.answer (.simulate canonical)) = .ok (result, raw) ∧
    result.engineResult = "tesSUCCESS" ∧ result.txJson = some echo ∧
    (toCanonicalForm echo >>= encodeComparableTransaction P) =
      encodeComparableTransaction P canonical

/-- **A faithful echo** is never taken for another transaction, in whatever order the column gives
the keys of the prepared one. -/
theorem matches_echo {intent : IntentPayload} {params : PreparationParams}
    {prepared canonical echo : Record} {blob : String}
    (hsame : Record.Same (buildTransaction intent params) prepared)
    (henc : encodeTransaction P prepared = .ok blob)
    (hcanonical : toCanonicalForm prepared = .ok canonical)
    (hecho : (toCanonicalForm echo >>= encodeComparableTransaction P) =
      encodeComparableTransaction P canonical) :
    simulationMatchesPrepared P prepared (some echo) = true := by
  obtain ⟨c, raw, hc, hraw, -⟩ := encodeTransaction_ok henc
  obtain rfl := Except.ok.inj (hcanonical.symm.trans hc)
  have hnone (k : String) (hk : k ∈ addedFields) : canonical.get? k = none := by
    have hne : k ≠ "Amount" := by
      rintro rfl
      simp [addedFields] at hk
    exact toCanonicalForm_get_none hc hne
      (hsame.get_none (buildTransaction_unsigned intent params k hk))
  have hplain : comparable canonical = canonical := by
    unfold comparable
    rw [Record.remove_of_get?_none (hnone _ (by simp [addedFields])),
      Record.remove_of_get?_none (hnone _ (by simp [addedFields])),
      Record.remove_of_get?_none (hnone _ (by simp [addedFields]))]
  have hcode : encodeComparableTransaction P canonical = .ok raw := by
    change P.encode (comparable canonical) = _
    rw [hplain, hraw]
  obtain ⟨c', hc', hblob'⟩ := Except.bind_eq_ok.mp (hecho.trans hcode)
  exact (matches_iff prepared echo).mpr ⟨canonical, c', raw, hc, hc', hplain.symm ▸ hraw, hblob'⟩

/-! ## One statement -/

/-- No other intent holds the Sequence of the account. -/
def Db.AccountFree (db : Db) (row : IntentRow) : Prop :=
  ∀ r ∈ db.rows, r.active = true → r.networkId = row.networkId →
    r.sourceAccount = row.sourceAccount → r.id = row.id

/-- The row has been replaced, and nothing else has changed. -/
structure Moved (row next : IntentRow) (s s' : State) : Prop where
  found : s'.db.find row.id = some next
  others : ∀ id, id ≠ row.id → s'.db.find id = s.db.find id
  gate : s'.recovered = s.recovered
  network : s'.networkId = s.networkId

theorem Moved.trans {row next last : IntentRow} {s s' s'' : State} (h : Moved row next s s')
    (hid : next.id = row.id) (h' : Moved next last s' s'') : Moved row last s s'' where
  found := hid ▸ h'.found
  others id hne := (h'.others id (hid ▸ hne)).trans (h.others id hne)
  gate := h'.gate.trans h.gate
  network := h'.network.trans h.network

variable (P) in
/-- The tables after a transition of the row. -/
def Db.after (db : Db) (t : ℕ) (request : TransitionRequest) (row : IntentRow) : Db :=
  { db.put (request.updated P t row) with
    audit := db.audit ++ [request.audit row.id row.status] }

variable (P) in
/-- The transition is made. -/
def Db.Admits (db : Db) (t : ℕ) (request : TransitionRequest) (row : IntentRow) : Prop :=
  db.transition P t row.id request =
    (.ok (some (request.updated P t row)), db.after P t request row)

theorem moved_after {row : IntentRow} {s : State} (hf : s.db.find row.id = some row) (t : ℕ)
    (request : TransitionRequest) :
    Moved row (request.updated P t row) s { s with db := s.db.after P t request row } where
  found := (Db.find_put (r := request.updated P t row) hf row.id).trans (if_pos rfl)
  others id hne := (Db.find_put (r := request.updated P t row) hf id).trans (if_neg hne)
  gate := rfl
  network := rfl

section Statements

variable {db : Db} {row : IntentRow}

/-- A transition between active statuses that sets no column a constraint is about. -/
theorem admits_active (t : ℕ) (request : TransitionRequest) (hok : db.Ok P) (htidy : db.Tidy)
    (hf : db.find row.id = some row) (hfrom : row.status ∈ request.fromStatuses)
    (hcan : canTransition row.status request.toStatus = true) (hactive : row.active = true)
    (hfree : request.patch.Free) : db.Admits P t request row :=
  Db.transition_updated hf hfrom hcan
    ((checks_updated hfree t row).trans (htidy.checked row (Db.mem_of_find hf)))
    (hok.conflictsActive_kept hf rfl fun _ => hactive)
    (conflictsHash_updated hok (Db.mem_of_find hf) hfree.hash t)

/-- The move to `PREPARED`, for a fee and a ledger index that the constraints allow. -/
theorem admits_prepared (t : ℕ) (hok : db.Ok P) (htidy : db.Tidy)
    (hf : db.find row.id = some row) (hs : row.status = .created) (hfree : db.AccountFree row)
    (transaction : Record) (blob : String) {index : ℕ} (hindex : 0 < index) (sequence : ℕ)
    {fee : String} (hfee : 0 < digitsValue fee) (preparedAt : ℕ) :
    db.Admits P t (preparedRequest transaction blob index sequence fee
      (lastLedgerSequenceFor index) preparedAt) row := by
  have hm := Db.mem_of_find hf
  refine Db.transition_updated hf (by simp [preparedRequest, hs]) (by rw [hs]; rfl) ?_ ?_
    (conflictsHash_updated hok hm rfl t)
  · have hchecks := htidy.checked row hm
    simp only [IntentRow.checks, Bool.and_eq_true] at hchecks
    obtain ⟨⟨⟨⟨⟨hrequest, hhash⟩, hnetwork⟩, -⟩, -⟩, -⟩ := hchecks
    simp [preparedRequest, TransitionRequest.updated, IntentPatch.apply, IntentRow.checks,
      hrequest, hhash, hnetwork, hindex, hfee, lastLedgerSequenceFor, lastLedgerOffset]
  · refine Bool.eq_false_iff.mpr fun hconflict => ?_
    obtain ⟨-, hany⟩ := Bool.and_eq_true_iff.mp hconflict
    obtain ⟨o, ho, hother⟩ := List.any_eq_true.mp hany
    simp only [Bool.and_eq_true, bne_iff_ne, ne_eq, beq_iff_eq] at hother
    obtain ⟨⟨⟨hne, hactive⟩, hnetwork⟩, haccount⟩ := hother
    exact hne (hfree o ho hactive hnetwork haccount)

end Statements

/-! ## The steps -/

/-- The answers of a ledger at which an intent of the account can be prepared. -/
structure Oracle.Prepares (o : Oracle) (intent : IntentPayload) (validated : AccountInfo)
    (index : ℕ) (fee : String) : Prop where
  account : readAccountInfo (o.answer (.accountInfo intent.account false)) = .ok (some validated)
  current : ∃ current, readCurrentAccount intent.account
    (o.answer (.accountInfo intent.account true)) = .ok current ∧
    assertQuiescent validated current = .ok ()
  ledger : readLedgerIndex (o.answer .ledger) = .ok index
  quoted : readOpenLedgerFee (o.answer .fee) = .ok fee
  capped : checkFee fee = .ok fee
  positive : 0 < index

/-- What an intent is prepared with. -/
structure Terms where
  preparedTxBlob : String
  sequence : ℕ
  lastLedgerSequence : ℕ

/-- The row has been prepared so. -/
structure IntentRow.PreparedAs (row : IntentRow) (terms : Terms) : Prop where
  preparedTxBlob : row.preparedTxBlob = some terms.preparedTxBlob
  sequence : row.sequence = some terms.sequence
  lastLedgerSequence : row.lastLedgerSequence = some terms.lastLedgerSequence

/-- **What can be prepared**, and what with: a new intent whose account is free, if its transaction
can be built; or what an earlier call has left, if the window has not passed. -/
inductive Ready (P : Platform) (o : Oracle) (s : State) (row : IntentRow) : Terms → Prop
  | created {intent validated index fee blob} :
      row.status = .created → s.db.AccountFree row →
      asIntentPayload row.intentPayload = .ok intent → o.Prepares intent validated index fee →
      buildBlob P (buildTransaction intent
        ⟨fee, validated.sequence, lastLedgerSequenceFor index, s.networkId⟩) = .ok blob →
      Ready P o s row ⟨blob, validated.sequence, lastLedgerSequenceFor index⟩
  | prepared {terms index} :
      row.status = .prepared → row.PreparedAs terms →
      readLedgerIndex (o.answer .ledger) = .ok index → index ≤ terms.lastLedgerSequence →
      Ready P o s row terms
  | simulated {terms} :
      row.status = .simulated → row.simulationEngineResult = some "tesSUCCESS" →
      row.PreparedAs terms → Ready P o s row terms
  | awaitingSignature {terms} :
      row.status = .awaitingSignature → row.PreparedAs terms → Ready P o s row terms

section Steps

variable {o : Oracle} {s : State} {row next : IntentRow} {db : Db}

open Oracle

theorem gives_prepareCreated {intent : IntentPayload} {validated : AccountInfo} {index : ℕ}
    {fee blob : String} (hopen : s.recovered = true)
    (hread : asIntentPayload row.intentPayload = .ok intent)
    (h : o.Prepares intent validated index fee)
    (hbuild : buildBlob P (buildTransaction intent
      ⟨fee, validated.sequence, lastLedgerSequenceFor index, s.networkId⟩) = .ok blob)
    (hdb : s.db.transition P o.time row.id (preparedRequest (buildTransaction intent
      ⟨fee, validated.sequence, lastLedgerSequenceFor index, s.networkId⟩) blob index
      validated.sequence fee (lastLedgerSequenceFor index) o.time) = (.ok (some next), db)) :
    o.Gives P (prepareCreated P row) s (some next) { s with db } := by
  obtain ⟨current, hcurrent, hquiet⟩ := h.current
  refine (gives_assertRecovered hopen).bind ((gives_ofExcept hread).bind ?_)
  refine (gives_ask h.account).bind ((gives_ask hcurrent).bind ?_)
  refine (gives_ofExcept hquiet).bind ((gives_ask h.ledger).bind ?_)
  refine ((gives_ask h.quoted).bind (gives_ofExcept h.capped)).bind (gives_networkId.bind ?_)
  refine (gives_ofExcept hbuild).bind (gives_now.bind ?_)
  exact (gives_perform_transition hdb).bind (gives_ret _)

theorem gives_simulatePrepared {prepared canonical raw : Record} {last index : ℕ}
    {result : SimulationResult} (hopen : s.recovered = true)
    (hstored : storedTransaction row = .ok prepared) (hlast : row.lastLedgerSequence = some last)
    (hledger : readLedgerIndex (o.answer .ledger) = .ok index) (hindex : index ≤ last)
    (hcanonical : toCanonicalForm prepared = .ok canonical)
    (hsimulate : readSimulation canonical (o.answer (.simulate canonical)) = .ok (result, raw))
    (hmatches : simulationMatchesPrepared P prepared result.txJson = true)
    (hdb : s.db.transition P o.time row.id (simulatedRequest result raw o.time) =
      (.ok (some next), db)) :
    o.Gives P (simulatePrepared P row) s (some next) { s with db } := by
  refine (gives_assertRecovered hopen).bind ((gives_ofExcept hstored).bind ?_)
  refine (gives_required hlast _).bind ((gives_ask hledger).bind ?_)
  rw [if_neg (by omega)]
  refine ((gives_orThrow _ hcanonical).bind (gives_ask hsimulate)).bind ?_
  dsimp only
  rw [hmatches, if_neg (by simp)]
  exact gives_now.bind (gives_transition hdb)

theorem gives_completeSimulation (hresult : row.simulationEngineResult = some "tesSUCCESS")
    (hdb : s.db.transition P o.time row.id simulationPassedRequest = (.ok (some next), db)) :
    o.Gives P (completeSimulation row) s (some next) { s with db } := by
  refine (gives_required hresult _).bind ?_
  rw [if_pos rfl]
  exact gives_transition hdb

end Steps

/-! ## A call -/

section Call

variable {o : Oracle} {k : Sys} {as bs : List (Thread Op Op.Ret Failure Reply Call)} {pid : ℕ}
  {l : Call} {row : IntentRow} {f : IntentRow → Service Reply} {id : String} {steps : ℕ}
  {terms : Terms}

variable (P as bs pid l k row f terms) in
/-- The loop comes to its end, with the intent waiting for its signature. -/
def Arrives : Prop :=
  ∃ k' next, Runs (system P) noStart k k' ∧ InFlight (system P) as bs pid l k' (f next) ∧
    Moved row next k.state k'.state ∧ next.status = .awaitingSignature ∧ next.PreparedAs terms

variable (steps)

theorem arrives_done (h : InFlight (system P) as bs pid l k
      (prepareLoop P id (steps + 1) row >>= f)) (hf : k.state.db.find row.id = some row)
    (hs : row.status = .awaitingSignature) (hterms : row.PreparedAs terms) :
    Arrives P k as bs pid l row f terms := by
  have hdone : prepareStep P row = .ret .done := by
    unfold prepareStep
    rw [hs]
    rfl
  rw [prepareLoop, hdone] at h
  exact ⟨k, row, .refl, h, ⟨hf, fun _ _ => rfl, rfl, rfl⟩, hs, hterms⟩

/-- A step that moves the intent on, and what is left of the loop. -/
theorem arrives_step (o : Oracle) (request : TransitionRequest)
    (h : InFlight (system P) as bs pid l k (prepareLoop P id (steps + 1) row >>= f))
    (hf : k.state.db.find row.id = some row)
    (hg : o.Gives P (prepareStep P row) k.state (.row (request.updated P o.time row))
      { k.state with db := k.state.db.after P o.time request row })
    (hrest : ∀ k', InFlight (system P) as bs pid l k'
        (prepareLoop P id steps (request.updated P o.time row) >>= f) →
      Moved row (request.updated P o.time row) k.state k'.state →
      Arrives P k' as bs pid l (request.updated P o.time row) f terms) :
    Arrives P k as bs pid l row f terms := by
  rw [prepareLoop, Prog.bind_assoc] at h
  obtain ⟨k', hruns, hstate, h'⟩ := h.eval o.exec_react hg
  have hmoved : Moved row (request.updated P o.time row) k.state k'.state :=
    hstate ▸ moved_after hf o.time request
  obtain ⟨k'', next, hruns', hlast, hmoved', hend⟩ := hrest k' h' hmoved
  exact ⟨k'', next, hruns.trans hruns', hlast, hmoved.trans rfl hmoved', hend⟩

theorem arrives_simulated (h : InFlight (system P) as bs pid l k
      (prepareLoop P id (steps + 2) row >>= f)) (hf : k.state.db.find row.id = some row)
    (hs : row.status = .simulated) (hresult : row.simulationEngineResult = some "tesSUCCESS")
    (hterms : row.PreparedAs terms) (o : Oracle) : Arrives P k as bs pid l row f terms := by
  have hadmits := admits_active o.time simulationPassedRequest (reach_ok h.reach)
    (reach_tidy h.reach) hf (by simp [simulationPassedRequest, hs]) (by rw [hs]; rfl)
    (by rw [IntentRow.active, hs]; rfl) ⟨rfl, rfl, rfl, rfl⟩
  have hstep : prepareStep P row = StepResult.ofRow? <$> completeSimulation row := by
    unfold prepareStep
    rw [hs]
  refine arrives_step _ o simulationPassedRequest h hf ?_ fun k' h' hmoved => ?_
  · rw [hstep]
    exact (gives_completeSimulation hresult hadmits).map StepResult.ofRow?
  · exact arrives_done _ h' hmoved.found rfl ⟨hterms.1, hterms.2, hterms.3⟩

theorem arrives_prepared (hkey : P.EncodeByKey) (hjson : P.JsonbPreserves) (hsim : o.Simulates P)
    (h : InFlight (system P) as bs pid l k (prepareLoop P id (steps + 3) row >>= f))
    (hf : k.state.db.find row.id = some row) (hopen : k.state.recovered = true)
    (hs : row.status = .prepared) (hterms : row.PreparedAs terms) {index : ℕ}
    (hledger : readLedgerIndex (o.answer .ledger) = .ok index)
    (hindex : index ≤ terms.lastLedgerSequence) : Arrives P k as bs pid l row f terms := by
  have hrow := (reach_ok h.reach).rows row (Db.mem_of_find hf)
  obtain ⟨prepared, blob, hartifact⟩ := hrow.preparedArtifact hkey hjson (by rw [hs]; decide)
  obtain ⟨intent, params, -, hsame⟩ := hartifact.built
  obtain ⟨canonical, -, hcanonical, -⟩ := encodeTransaction_ok hartifact.encoded
  obtain ⟨result, raw, echo, hread, hsuccess, htx, hecho⟩ := hsim prepared canonical hcanonical
  have hmatches : simulationMatchesPrepared P prepared result.txJson = true := by
    rw [htx]
    exact matches_echo hsame hartifact.encoded hcanonical hecho
  have hadmits := admits_active o.time (simulatedRequest result raw o.time) (reach_ok h.reach)
    (reach_tidy h.reach) hf (by simp [simulatedRequest, hs]) (by rw [hs]; rfl)
    (by rw [IntentRow.active, hs]; rfl) ⟨rfl, rfl, rfl, rfl⟩
  have hstep : prepareStep P row = StepResult.ofRow? <$> simulatePrepared P row := by
    unfold prepareStep
    rw [hs]
  refine arrives_step _ o (simulatedRequest result raw o.time) h hf ?_ fun k' h' hmoved => ?_
  · rw [hstep]
    exact (gives_simulatePrepared hopen hartifact.stored hterms.lastLedgerSequence hledger hindex
      hcanonical hread hmatches hadmits).map StepResult.ofRow?
  · exact arrives_simulated _ h' hmoved.found rfl (congrArg some hsuccess)
      ⟨hterms.1, hterms.2, hterms.3⟩ o

theorem arrives_created (hkey : P.EncodeByKey) (hjson : P.JsonbPreserves) (hsim : o.Simulates P)
    (h : InFlight (system P) as bs pid l k (prepareLoop P id (steps + 4) row >>= f))
    (hf : k.state.db.find row.id = some row) (hopen : k.state.recovered = true)
    (hs : row.status = .created) (hfree : k.state.db.AccountFree row) {intent : IntentPayload}
    {validated : AccountInfo} {index : ℕ} {fee blob : String}
    (hread : asIntentPayload row.intentPayload = .ok intent)
    (hprep : o.Prepares intent validated index fee)
    (hbuild : buildBlob P (buildTransaction intent
      ⟨fee, validated.sequence, lastLedgerSequenceFor index, k.state.networkId⟩) = .ok blob) :
    Arrives P k as bs pid l row f ⟨blob, validated.sequence, lastLedgerSequenceFor index⟩ := by
  have hadmits := admits_prepared o.time (reach_ok h.reach) (reach_tidy h.reach) hf hs hfree
    (buildTransaction intent
      ⟨fee, validated.sequence, lastLedgerSequenceFor index, k.state.networkId⟩) blob
    hprep.positive validated.sequence (digitsValue_pos (checkFee_ok hprep.capped).2.1) o.time
  have hstep : prepareStep P row = StepResult.ofRow? <$> prepareCreated P row := by
    unfold prepareStep
    rw [hs]
  have hg := (gives_prepareCreated hopen hread hprep hbuild hadmits).map StepResult.ofRow?
  rw [← hstep] at hg
  refine arrives_step _ o _ h hf hg fun k' h' hmoved => ?_
  exact arrives_prepared _ hkey hjson hsim h' hmoved.found (hmoved.gate.trans hopen) rfl
    ⟨rfl, rfl, rfl⟩ hprep.ledger (Nat.le_add_right _ _)

/-- **The loop arrives**, from whatever status it starts. -/
theorem arrives (hkey : P.EncodeByKey) (hjson : P.JsonbPreserves) (hsim : o.Simulates P)
    (h : InFlight (system P) as bs pid l k (prepareLoop P id (steps + 4) row >>= f))
    (hf : k.state.db.find row.id = some row) (hopen : k.state.recovered = true)
    (hready : Ready P o k.state row terms) : Arrives P k as bs pid l row f terms := by
  cases hready with
  | created hs hfree hread hprep hbuild =>
    exact arrives_created steps hkey hjson hsim h hf hopen hs hfree hread hprep hbuild
  | prepared hs hterms hledger hindex =>
    exact arrives_prepared (steps + 1) hkey hjson hsim h hf hopen hs hterms hledger hindex
  | simulated hs hresult hterms =>
    exact arrives_simulated (steps + 2) h hf hs hresult hterms o
  | awaitingSignature hs hterms => exact arrives_done (steps + 3) h hf hs hterms

/-- A call of `prepare` arrives. -/
theorem prepare_arrives (hkey : P.EncodeByKey) (hjson : P.JsonbPreserves)
    (hk : Reach (system P) anyStep k) (hopen : k.state.recovered = true) (hsim : o.Simulates P)
    (hf : k.state.db.find row.id = some row) (hready : Ready P o k.state row terms) :
    ∃ k' next, Runs (system P) (startsOnly (.prepare row.id)) k k' ∧
      InFlight (system P) k.pool [] k.next (.prepare row.id) k' (.ret (.intent next)) ∧
      Moved row next k.state k'.state ∧ next.status = .awaitingSignature ∧
      next.PreparedAs terms := by
  obtain ⟨k₀, hstart, hstate, hcall⟩ := hk.call (.prepare row.id)
  change InFlight (system P) k.pool [] k.next (.prepare row.id) k₀
    (load row.id >>= prepareLoop P row.id prepareMaxSteps >>= fun r => .ret (.intent r)) at hcall
  rw [Prog.bind_assoc] at hcall
  rw [← hstate] at hf hopen hready ⊢
  obtain ⟨k₁, hload, hstate₁, hloop⟩ := hcall.eval o.exec_react (Oracle.gives_load hf)
  rw [← hstate₁] at hf hopen hready ⊢
  obtain ⟨k₂, next, hruns, hlast⟩ := arrives 4 hkey hjson hsim hloop hf hopen hready
  exact ⟨k₂, next, hstart.trans ((hload.trans hruns).of_noStart _), hlast⟩

end Call

/-- A row that has been replaced has been replaced by a later version of it. -/
theorem Moved.le {k k' : Sys} {row next : IntentRow} (hk : Reach (system P) anyStep k)
    (hruns : Runs (system P) anyStep k k') (hf : k.state.db.find row.id = some row)
    (h : Moved row next k.state k'.state) : row.Le next := by
  obtain ⟨r, hr, hle⟩ := (runs_rely hk hruns).1 row.id row hf
  obtain rfl := Option.some.inj (h.found.symm.trans hr)
  exact hle

/-- **Preparation can be resumed.** In every configuration of every run in which the gate is open,
whatever has been killed or restarted before, an intent that can be prepared, or that an earlier
call has left prepared or simulated, is brought to `AWAITING_SIGNATURE` by one more call that the
ledger answers well. The call returns it so; it is prepared with the terms it had, or with what the
ledger says now; and no other intent is touched. -/
theorem prepare_resumes (P : Platform) (hkey : P.EncodeByKey) (hjson : P.JsonbPreserves) (k : Sys)
    (hk : Reach (system P) anyStep k) (hopen : k.state.recovered = true) (o : Oracle)
    (hsim : o.Simulates P) (row : IntentRow) (hf : k.state.db.find row.id = some row)
    (terms : Terms) (hready : Ready P o k.state row terms) :
    ∃ (k₁ k' : Sys) (next : IntentRow), Runs (system P) anyStep k k₁ ∧
      Step (system P) k₁ (.finish k.next (.prepare row.id) (.ok (.intent next))) k' ∧
      k'.pool = k.pool ∧ Moved row next k.state k'.state ∧ row.Le next ∧
      next.status = .awaitingSignature ∧ next.PreparedAs terms := by
  obtain ⟨k₁, next, hruns, hlast, hmoved, hs, hterms⟩ :=
    prepare_arrives hkey hjson hk hopen hsim hf hready
  obtain ⟨k', hfinish, hpool, hstate⟩ := hlast.finish
  refine ⟨k₁, k', next, hruns.any, hfinish, hpool.trans (List.append_nil _), ?_,
    hmoved.le hk hruns.any hf, hs, hterms⟩
  rw [hstate]
  exact hmoved

namespace Sample

/-- The answers at ledger 3, with which `i5` can be prepared, signed and submitted. -/
def oracle : Oracle where
  time := 1
  answer
    | .accountInfo _ _ => .ok (accountAnswer 5 3)
    | .fee => .ok feeAnswer
    | .ledger => .ok (ledgerAnswer 3)
    | .simulate txJson => .ok (("tx_json", .obj txJson) :: engineAnswer "tesSUCCESS")
    | .submit _ => .ok (engineAnswer "tesSUCCESS")
    | .tx _ _ _ => .error "txnNotFound" []

theorem oracle_simulates : oracle.Simulates platform := by
  intro transaction canonical h
  refine ⟨⟨"tesSUCCESS", none, some canonical⟩, _, canonical, rfl, rfl, rfl, ?_⟩
  rw [toCanonicalForm_eq_self (toCanonicalForm_idem h)]
  rfl

/-- What `i5` is prepared with. -/
def terms : Terms := ⟨"05", 5, 23⟩

/-- The gate is open, and `i5`, the only intent, has been prepared with these terms. -/
def holdsPrepared (status : Status) (k : Sys) : Bool :=
  k.state.recovered && (k.state.db.rows.all fun r => r.id = "i5") &&
    k.state.db.rows.any fun r => decide (r.status = status) &&
      decide (r.sourceAccount = "rA") && decide (r.preparedTxBlob = some "05") &&
      decide (r.sequence = some 5) && decide (r.lastLedgerSequence = some 23)

theorem holdsPrepared_row {status : Status} {k : Sys} (h : holdsPrepared status k = true) :
    k.state.recovered = true ∧ (∀ r ∈ k.state.db.rows, r.id = "i5") ∧
      ∃ row ∈ k.state.db.rows, row.status = status ∧ row.sourceAccount = "rA" ∧
        row.PreparedAs terms := by
  simp only [holdsPrepared, Bool.and_eq_true, List.all_eq_true, List.any_eq_true,
    decide_eq_true_eq] at h
  obtain ⟨⟨hopen, hids⟩, row, hrow, ⟨⟨⟨hstatus, haccount⟩, hblob⟩, hsequence⟩, hlast⟩ := h
  exact ⟨hopen, hids, row, hrow, hstatus, haccount, hblob, hsequence, hlast⟩

/-- A `prepare` that is killed after the transition to `PREPARED`. -/
def interrupted : Schedule :=
  recovered 0 3 ++ created 1 "i5" ++ [.start (.prepare "i5")] ++ tick 2 1 ++ gathered 2 5 3 ++
    tick 2 1 ++ [.kill 2]

end Sample

/-- A call of `prepare` has been killed after its first transition; another one goes on. -/
theorem prepare_resumes_killed : ∃ (k k₁ : Sys) (row next : IntentRow), row ∈ k.state.db.rows ∧
    row.status = .prepared ∧ Runs (system Sample.platform) anyStep k k₁ ∧
    next.status = .awaitingSignature ∧ row.Le next := by
  obtain ⟨k, -, hk, hφ⟩ := exists_of_play Sample.platform anyStep [] Sample.interrupted
    (Sample.holdsPrepared .prepared) (by decide +kernel)
  obtain ⟨hopen, -, row, hrow, hstatus, -, hterms⟩ := Sample.holdsPrepared_row hφ
  obtain ⟨k₁, k', next, hruns, -, -, -, hle, hs, -⟩ := prepare_resumes Sample.platform
    Sample.encodeByKey Sample.jsonbPreserves k hk hopen Sample.oracle Sample.oracle_simulates row
    ((reach_ok hk).ids row hrow) Sample.terms (.prepared hstatus hterms rfl (by decide))
  exact ⟨k, k₁, row, next, hrow, hstatus, hruns, hs, hle⟩

end Orchestrator
