import Orchestrator.Intents.Payload
import Orchestrator.Xrpl.Types
import Mathlib.Data.List.Sort
import Mathlib.Data.Char
import Mathlib.Data.List.Lex

/-!
# The two tables

The columns, constraints and indexes of `schema.ts`, and the statements the repositories run on
them. Each statement is one PostgreSQL transaction, so it is one step on the tables.

* `IntentRow`, `IntentPatch`, `IntentPatch.apply`, `AuditRow`, `Db`;
* `Db.violation`: the `CHECK` constraints and the two partial unique indexes;
* `Db.transition`, `Db.updateInStatus`, `Db.createIdempotent`, `Db.findByStatuses`;
* the lookups after each of them (`find_put`, `find_append`), and what each of them can do
  (`transition_cases`, `updateInStatus_cases`, `createIdempotent_cases`).
-/

namespace Orchestrator

/-- A row of `transaction_intents`; a nullable column is an `Option`, a timestamp a number. -/
structure IntentRow where
  id : String
  idempotencyKey : String
  requestHash : String
  networkId : ℕ
  intentType : IntentType
  sourceAccount : String
  status : Status
  intentPayload : Json
  preparedTxJson : Option Json
  preparedTxBlob : Option String
  preparedLedgerIndex : Option ℕ
  sequence : Option ℕ
  feeDrops : Option String
  lastLedgerSequence : Option ℕ
  simulationEngineResult : Option String
  simulationResult : Option Json
  signedTxBlob : Option String
  transactionHash : Option String
  signingPubKey : Option String
  submissionAttemptCount : ℕ
  submissionValidatedLedger : Option ℕ
  submitEngineResult : Option String
  submitResponse : Option Json
  lastSubmitAttemptAt : Option ℕ
  finalResult : Option String
  finalLedgerIndex : Option ℕ
  finalLedgerHash : Option String
  finalTxJson : Option Json
  finalMeta : Option Json
  failureCode : Option FailureCode
  createdAt : ℕ
  preparedAt : Option ℕ
  simulatedAt : Option ℕ
  signedAt : Option ℕ
  submittedAt : Option ℕ
  finalizedAt : Option ℕ
  updatedAt : ℕ
  deriving DecidableEq

/-- A row as `create` inserts it; every other column is null, the attempt counter 0. -/
structure NewIntentRow where
  id : String
  idempotencyKey : String
  requestHash : String
  networkId : ℕ
  intentType : IntentType
  sourceAccount : String
  intentPayload : Json
  createdAt : ℕ
  updatedAt : ℕ
  deriving DecidableEq

/-- The columns an update names. `submissionAttemptCount` is the SQL expression
`submission_attempt_count + 1`; a column that can be set to null has a second `Option`. -/
structure IntentPatch where
  preparedTxJson : Option Json := none
  preparedTxBlob : Option String := none
  preparedLedgerIndex : Option ℕ := none
  sequence : Option ℕ := none
  feeDrops : Option String := none
  lastLedgerSequence : Option ℕ := none
  simulationEngineResult : Option String := none
  simulationResult : Option Json := none
  signedTxBlob : Option String := none
  transactionHash : Option String := none
  signingPubKey : Option String := none
  submissionAttemptCount : Bool := false
  submissionValidatedLedger : Option ℕ := none
  submitEngineResult : Option String := none
  submitResponse : Option Json := none
  lastSubmitAttemptAt : Option ℕ := none
  finalResult : Option String := none
  finalLedgerIndex : Option ℕ := none
  finalLedgerHash : Option (Option String) := none
  finalTxJson : Option (Option Json) := none
  finalMeta : Option (Option Json) := none
  failureCode : Option FailureCode := none
  preparedAt : Option ℕ := none
  simulatedAt : Option ℕ := none
  signedAt : Option ℕ := none
  submittedAt : Option ℕ := none
  finalizedAt : Option ℕ := none
  deriving DecidableEq

/-- A row of `intent_transitions`; its id is its place in the table. -/
structure AuditRow where
  intentId : String
  fromStatus : Option Status
  toStatus : Status
  reasonCode : TransitionReason
  details : Option Json
  deriving DecidableEq

structure TransitionRequest where
  fromStatuses : List Status
  toStatus : Status
  reason : TransitionReason
  details : Option Json
  patch : IntentPatch
  deriving DecidableEq

/-- How a statement fails: on the sequence-active index, on a transition the table forbids, or
for any other reason (another constraint, the connection). The transaction is then rolled back. -/
inductive DbError where
  | accountBusy
  | illegalTransition (src dst : Status)
  | failed
  deriving DecidableEq

structure Db where
  rows : List IntentRow
  audit : List AuditRow

variable (P : Platform)

/-- The row with the columns of the patch set. -/
def IntentPatch.apply (p : IntentPatch) (r : IntentRow) : IntentRow :=
  { r with
    preparedTxJson := (p.preparedTxJson.map P.jsonb).or r.preparedTxJson
    preparedTxBlob := p.preparedTxBlob.or r.preparedTxBlob
    preparedLedgerIndex := p.preparedLedgerIndex.or r.preparedLedgerIndex
    sequence := p.sequence.or r.sequence
    feeDrops := p.feeDrops.or r.feeDrops
    lastLedgerSequence := p.lastLedgerSequence.or r.lastLedgerSequence
    simulationEngineResult := p.simulationEngineResult.or r.simulationEngineResult
    simulationResult := (p.simulationResult.map P.jsonb).or r.simulationResult
    signedTxBlob := p.signedTxBlob.or r.signedTxBlob
    transactionHash := p.transactionHash.or r.transactionHash
    signingPubKey := p.signingPubKey.or r.signingPubKey
    submissionAttemptCount := r.submissionAttemptCount + p.submissionAttemptCount.toNat
    submissionValidatedLedger := p.submissionValidatedLedger.or r.submissionValidatedLedger
    submitEngineResult := p.submitEngineResult.or r.submitEngineResult
    submitResponse := (p.submitResponse.map P.jsonb).or r.submitResponse
    lastSubmitAttemptAt := p.lastSubmitAttemptAt.or r.lastSubmitAttemptAt
    finalResult := p.finalResult.or r.finalResult
    finalLedgerIndex := p.finalLedgerIndex.or r.finalLedgerIndex
    finalLedgerHash := p.finalLedgerHash.getD r.finalLedgerHash
    finalTxJson := (p.finalTxJson.map (·.map P.jsonb)).getD r.finalTxJson
    finalMeta := (p.finalMeta.map (·.map P.jsonb)).getD r.finalMeta
    failureCode := p.failureCode.or r.failureCode
    preparedAt := p.preparedAt.or r.preparedAt
    simulatedAt := p.simulatedAt.or r.simulatedAt
    signedAt := p.signedAt.or r.signedAt
    submittedAt := p.submittedAt.or r.submittedAt
    finalizedAt := p.finalizedAt.or r.finalizedAt }

/-- The row after the update of a transition. -/
def TransitionRequest.updated (request : TransitionRequest) (now : ℕ) (current : IntentRow) : IntentRow :=
  { request.patch.apply P current with status := request.toStatus, updatedAt := now }

/-- The audit row of a transition. -/
def TransitionRequest.audit (request : TransitionRequest) (id : String) (current : Status) :
    AuditRow where
  intentId := id
  fromStatus := some current
  toStatus := request.toStatus
  reasonCode := request.reason
  details := request.details

/-- The row after an update that keeps the status. -/
def IntentPatch.updated (patch : IntentPatch) (now : ℕ) (current : IntentRow) : IntentRow :=
  { patch.apply P current with updatedAt := now }

/-! ## Constraints and indexes -/

/-- The `CHECK` constraints of `transaction_intents`. -/
def IntentRow.checks (r : IntentRow) : Bool :=
  isHash r.requestHash && r.transactionHash.all isHash && decide (r.networkId ≤ 4294967295) &&
    r.feeDrops.all (fun fee => decide (0 < digitsValue fee)) &&
    r.preparedLedgerIndex.all (fun index => decide (0 < index)) &&
    match r.lastLedgerSequence, r.preparedLedgerIndex with
    | some last, some prepared => decide (prepared < last)
    | _, _ => true

/-- The statuses of the predicate of `transaction_intents_sequence_active_account_key`. -/
def sequenceActiveIndexStatuses : List Status :=
  [.prepared, .simulated, .awaitingSignature, .signed, .submitted]

/-- The row is in the sequence-active index. -/
def IntentRow.active (r : IntentRow) : Bool := sequenceActiveIndexStatuses.contains r.status

namespace Db

/-- The sequence-active index already holds the account of `r` for another row. -/
def conflictsActive (db : Db) (r : IntentRow) : Bool :=
  r.active && db.rows.any fun o =>
    o.id != r.id && o.active && o.networkId == r.networkId && o.sourceAccount == r.sourceAccount

/-- The index on `transaction_hash` already holds the hash of `r` for another row. -/
def conflictsHash (db : Db) (r : IntentRow) : Bool :=
  r.transactionHash.isSome && db.rows.any fun o =>
    o.id != r.id && o.transactionHash == r.transactionHash

/-- What refuses `r` as the new version of its row. -/
def violation (db : Db) (r : IntentRow) : Option DbError :=
  if !r.checks then some .failed
  else if db.conflictsActive r then some .accountBusy
  else if db.conflictsHash r then some .failed
  else none

/-! ## Statements -/

def find (db : Db) (id : String) : Option IntentRow := db.rows.find? fun r => r.id == id

/-- The table with `r` in the place of the row of its id. -/
def put (db : Db) (r : IntentRow) : Db :=
  { db with rows := db.rows.map fun o => if o.id = r.id then r else o }

/-- `ORDER BY created_at, id`. -/
def createdBefore (r o : IntentRow) : Prop :=
  r.createdAt < o.createdAt ∨ (r.createdAt = o.createdAt ∧ r.id.toList ≤ o.id.toList)

instance : DecidableRel createdBefore := fun r o =>
  inferInstanceAs (Decidable (r.createdAt < o.createdAt ∨
    (r.createdAt = o.createdAt ∧ r.id.toList ≤ o.id.toList)))

def findByStatuses (db : Db) (statuses : List Status) : List IntentRow :=
  (db.rows.filter fun r => statuses.contains r.status).insertionSort createdBefore

/-- `IntentsRepository.transition` at time `now`: lock, check, update, audit, commit. -/
def transition (db : Db) (now : ℕ) (id : String) (request : TransitionRequest) :
    Except DbError (Option IntentRow) × Db :=
  match db.find id with
  | none => (.ok none, db)
  | some current =>
    if !request.fromStatuses.contains current.status then (.ok none, db)
    else if !canTransition current.status request.toStatus then
      (.error (.illegalTransition current.status request.toStatus), db)
    else
      let updated := request.updated P now current
      match db.violation updated with
      | some error => (.error error, db)
      | none =>
        (.ok (some updated),
          { db.put updated with audit := db.audit ++ [request.audit id current.status] })

/-- `IntentsRepository.updateInStatus` at time `now`. -/
def updateInStatus (db : Db) (now : ℕ) (id : String) (statuses : List Status)
    (patch : IntentPatch) : Except DbError (Option IntentRow) × Db :=
  match db.find id with
  | none => (.ok none, db)
  | some current =>
    if !statuses.contains current.status then (.ok none, db)
    else
      let updated := patch.updated P now current
      match db.violation updated with
      | some error => (.error error, db)
      | none => (.ok (some updated), db.put updated)

end Db

/-- The inserted row. -/
def NewIntentRow.row (r : NewIntentRow) : IntentRow where
  id := r.id
  idempotencyKey := r.idempotencyKey
  requestHash := r.requestHash
  networkId := r.networkId
  intentType := r.intentType
  sourceAccount := r.sourceAccount
  status := .created
  intentPayload := P.jsonb r.intentPayload
  preparedTxJson := none
  preparedTxBlob := none
  preparedLedgerIndex := none
  sequence := none
  feeDrops := none
  lastLedgerSequence := none
  simulationEngineResult := none
  simulationResult := none
  signedTxBlob := none
  transactionHash := none
  signingPubKey := none
  submissionAttemptCount := 0
  submissionValidatedLedger := none
  submitEngineResult := none
  submitResponse := none
  lastSubmitAttemptAt := none
  finalResult := none
  finalLedgerIndex := none
  finalLedgerHash := none
  finalTxJson := none
  finalMeta := none
  failureCode := none
  createdAt := r.createdAt
  preparedAt := none
  simulatedAt := none
  signedAt := none
  submittedAt := none
  finalizedAt := none
  updatedAt := r.updatedAt

/-- `IntentsRepository.createIdempotent`: `INSERT … ON CONFLICT (idempotency_key) DO NOTHING`, the
initial audit row, or the row that already holds the key. -/
def Db.createIdempotent (db : Db) (new : NewIntentRow) :
    Except DbError (Bool × IntentRow) × Db :=
  match db.rows.find? fun r => r.idempotencyKey == new.idempotencyKey with
  | some existing => (.ok (false, existing), db)
  | none =>
    if (db.find new.id).isSome then (.error .failed, db)
    else match db.violation (new.row P) with
      | some error => (.error error, db)
      | none =>
        (.ok (true, new.row P),
          { rows := db.rows ++ [new.row P]
            audit := db.audit ++ [{
              intentId := new.id
              fromStatus := none
              toStatus := .created
              reasonCode := .intentCreated
              details := none }] })

/-! ## Lookups -/

namespace Db

variable {P} {db : Db} {r o : IntentRow} {id : String}

theorem find_id (h : db.find id = some r) : r.id = id := by
  simpa using List.find?_some h

theorem mem_of_find (h : db.find id = some r) : r ∈ db.rows := List.mem_of_find?_eq_some h

theorem find_put (h : db.find r.id = some o) (id : String) :
    (db.put r).find id = if id = r.id then some r else db.find id := by
  have key : ∀ rows : List IntentRow,
      (rows.map fun o => if o.id = r.id then r else o).find? (fun o => o.id == id) =
        if id = r.id then (rows.find? fun o => o.id == r.id).map fun _ => r
        else rows.find? fun o => o.id == id := by
    intro rows
    induction rows with
    | nil => simp
    | cons x xs ih =>
      by_cases hx : x.id = r.id
      · by_cases hid : id = r.id
        · simp [hx, hid]
        · simp only [List.map_cons, hx, if_true, if_neg hid] at ih ⊢
          rw [List.find?_cons_of_neg (by simpa using Ne.symm hid), ih,
            List.find?_cons_of_neg (by simpa [hx] using Ne.symm hid)]
      · by_cases hid : id = r.id
        · simp only [List.map_cons, hx, if_false, hid, if_true] at ih ⊢
          rw [List.find?_cons_of_neg (by simpa using hx), ih,
            List.find?_cons_of_neg (by simpa using hx)]
        · simp only [List.map_cons, hx, if_false, if_neg hid] at ih ⊢
          by_cases hxi : x.id = id
          · simp [hxi]
          · rw [List.find?_cons_of_neg (by simpa using hxi), ih,
              List.find?_cons_of_neg (by simpa using hxi)]
  unfold find put at *
  rw [key, h]
  rfl

theorem mem_put (h : o ∈ (db.put r).rows) : o = r ∨ (o ∈ db.rows ∧ o.id ≠ r.id) := by
  simp only [put, List.mem_map] at h
  obtain ⟨x, hx, rfl⟩ := h
  split_ifs with hid
  · exact .inl rfl
  · exact .inr ⟨hx, hid⟩

/-- A row that the indexes admit shares neither its active account nor its hash with another. -/
theorem violation_none (h : db.violation r = none) (ho : o ∈ db.rows) (hid : o.id ≠ r.id) :
    (r.active = true → o.active = true → o.networkId = r.networkId →
      o.sourceAccount ≠ r.sourceAccount) ∧
    ∀ hash, r.transactionHash = some hash → o.transactionHash ≠ some hash := by
  unfold violation at h
  split_ifs at h with h1 h2 h3
  refine ⟨fun hr ha hn hs => h2 ?_, fun hash hr ha => h3 ?_⟩
  · rw [conflictsActive, hr, Bool.true_and, List.any_eq_true]
    exact ⟨o, ho, by simp [hid, ha, hn, hs]⟩
  · rw [conflictsHash, hr, Option.isSome_some, Bool.true_and, List.any_eq_true]
    exact ⟨o, ho, by simp [hid, ha]⟩

theorem find_append (h : db.find r.id = none) (audit : List AuditRow) (id : String) :
    (Db.mk (db.rows ++ [r]) audit).find id = if id = r.id then some r else db.find id := by
  unfold find at *
  rw [List.find?_append]
  by_cases hid : id = r.id
  · subst hid
    simp [h]
  · simp [hid, Ne.symm hid]

theorem mem_findByStatuses {statuses : List Status} (h : r ∈ db.findByStatuses statuses) :
    r ∈ db.rows ∧ r.status ∈ statuses := by
  rw [findByStatuses, List.mem_insertionSort, List.mem_filter] at h
  exact ⟨h.1, by simpa using h.2⟩

/-! ## What a statement can do -/

variable (P db)

/-- **A transition** changes nothing and does not return a row, or writes the row it found. -/
theorem transition_cases (now : ℕ) (id : String) (request : TransitionRequest) :
    (∃ out, db.transition P now id request = (out, db) ∧ (∀ row, out ≠ .ok (some row)) ∧
      (out = .ok none → ∀ current, db.find id = some current →
        current.status ∉ request.fromStatuses)) ∨
    ∃ current, db.find id = some current ∧ current.status ∈ request.fromStatuses ∧
      canTransition current.status request.toStatus = true ∧
      db.violation (request.updated P now current) = none ∧
      db.transition P now id request = (.ok (some (request.updated P now current)),
        { db.put (request.updated P now current) with
          audit := db.audit ++ [request.audit id current.status] }) := by
  unfold transition
  cases hf : db.find id with
  | none => exact .inl ⟨_, rfl, by simp, by simp⟩
  | some current =>
    by_cases hs : current.status ∈ request.fromStatuses
    · by_cases hc : canTransition current.status request.toStatus = true
      · cases hv : db.violation (request.updated P now current) with
        | some error => exact .inl ⟨.error error, by simp [hs, hc, hv], by simp, by simp⟩
        | none => exact .inr ⟨current, rfl, hs, hc, hv, by simp [hs, hc, hv]⟩
      · exact .inl ⟨.error (.illegalTransition current.status request.toStatus),
          by simp [hs, hc], by simp, by simp⟩
    · exact .inl ⟨.ok none, by simp [hs], by simp, fun _ _ h => Option.some.inj h ▸ hs⟩

/-- **An update** changes nothing and does not return a row, or writes the row it found. -/
theorem updateInStatus_cases (now : ℕ) (id : String) (statuses : List Status)
    (patch : IntentPatch) :
    (∃ out, db.updateInStatus P now id statuses patch = (out, db) ∧
      (∀ row, out ≠ .ok (some row)) ∧
      (out = .ok none → ∀ current, db.find id = some current → current.status ∉ statuses)) ∨
    ∃ current, db.find id = some current ∧ current.status ∈ statuses ∧
      db.violation (patch.updated P now current) = none ∧
      db.updateInStatus P now id statuses patch =
        (.ok (some (patch.updated P now current)), db.put (patch.updated P now current)) := by
  unfold updateInStatus
  cases hf : db.find id with
  | none => exact .inl ⟨_, rfl, by simp, by simp⟩
  | some current =>
    by_cases hs : current.status ∈ statuses
    · cases hv : db.violation (patch.updated P now current) with
      | some error => exact .inl ⟨.error error, by simp [hs, hv], by simp, by simp⟩
      | none => exact .inr ⟨current, rfl, hs, hv, by simp [hs, hv]⟩
    · exact .inl ⟨.ok none, by simp [hs], by simp, fun _ _ h => Option.some.inj h ▸ hs⟩

/-- **A creation** changes nothing, or inserts the new row. -/
theorem createIdempotent_cases (new : NewIntentRow) :
    (∃ out, db.createIdempotent P new = (out, db) ∧ ∀ created row, out = .ok (created, row) →
      created = false ∧ row ∈ db.rows ∧ row.idempotencyKey = new.idempotencyKey) ∨
    (db.find new.id = none ∧ (∀ r ∈ db.rows, r.idempotencyKey ≠ new.idempotencyKey) ∧
      db.violation (new.row P) = none ∧
      db.createIdempotent P new = (.ok (true, new.row P),
        { rows := db.rows ++ [new.row P]
          audit := db.audit ++ [⟨new.id, none, .created, .intentCreated, none⟩] })) := by
  unfold createIdempotent
  cases hk : db.rows.find? fun r => r.idempotencyKey == new.idempotencyKey with
  | some existing =>
    refine .inl ⟨_, rfl, fun created row h => ?_⟩
    cases h
    exact ⟨rfl, List.mem_of_find?_eq_some hk, by simpa using List.find?_some hk⟩
  | none =>
    cases hf : db.find new.id with
    | some r => exact .inl ⟨.error .failed, by simp, by simp⟩
    | none =>
      cases hv : db.violation (new.row P) with
      | some error => exact .inl ⟨.error error, by simp, by simp⟩
      | none => exact .inr ⟨rfl, by simpa using hk, rfl, by simp⟩

end Db

end Orchestrator
