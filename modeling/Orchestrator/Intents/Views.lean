import Orchestrator.Common.IsoDate
import Orchestrator.Database.Tables
import Orchestrator.Intents.Presenter
import Orchestrator.Preparation.Build

/-!
# Representations of an intent

The functions of `intent.presenter.ts`, and what `intents.controller.ts` answers with them. The
signed blob is in none of them.

* `presentPrepared`, `presentSigned`, `presentSubmitted`, `presentDetail`: the representations;
* `IntentsController.prepare`, `signature`, `submit`: which of them is answered;
* `Record.Alike`, `Record.alike_of_same`: the same object, its own keys in the same order;
* `orderedTransaction_keys`, `buildTransaction_keys`: the order of the presenter is the builder's;
* **`orderedTransaction_restores`**: what is read from the column is what was built.
-/

namespace Orchestrator

/-- The text of a timestamp. -/
def iso (value : ℕ) : String := IsoDate.toISOString value

structure PreparedView where
  id : String
  status : Status
  transaction : Option Record
  preparedTxBlob : Option String
  engineResult : Option String
  deriving DecidableEq

structure SignedView where
  id : String
  status : Status
  transactionHash : Option String
  signingPubKey : Option String
  deriving DecidableEq

structure SubmittedView where
  id : String
  status : Status
  transactionHash : Option String
  engineResult : Option String
  accepted : Option Bool
  queued : Option Bool
  broadcast : Option Bool
  deriving DecidableEq

/-- `submission` of the detail view. -/
structure SubmissionView where
  attemptCount : ℕ
  engineResult : Option String
  validatedLedgerAtFirstSubmission : Option ℕ
  lastAttemptAt : Option String
  deriving DecidableEq

structure DetailView where
  id : String
  type : IntentType
  status : Status
  account : String
  networkId : ℕ
  intent : IntentPayload
  transaction : Option Record
  preparedTxBlob : Option String
  preparedLedgerIndex : Option ℕ
  sequence : Option ℕ
  fee : Option String
  lastLedgerSequence : Option ℕ
  simulation : Option (String × Option Json)
  transactionHash : Option String
  signingPubKey : Option String
  submission : SubmissionView
  finalResult : Option String
  succeeded : Option Bool
  finalLedgerIndex : Option ℕ
  finalLedgerHash : Option String
  failureCode : Option FailureCode
  createdAt : String
  preparedAt : Option String
  simulatedAt : Option String
  signedAt : Option String
  submittedAt : Option String
  finalizedAt : Option String
  updatedAt : String
  deriving DecidableEq

def presentPrepared (row : IntentRow) : PreparedView where
  id := row.id
  status := row.status
  transaction := row.preparedTxJson.bind orderedTransaction
  preparedTxBlob := row.preparedTxBlob
  engineResult := row.simulationEngineResult

def presentSigned (row : IntentRow) : SignedView where
  id := row.id
  status := row.status
  transactionHash := row.transactionHash
  signingPubKey := row.signingPubKey

/-- One of `submitFlags`: a property of the stored response, if it is a boolean. -/
def submitFlag (value : Option Json) (flag : String) : Option Bool :=
  match ((value.bind fieldEntries).getD []).get? flag with
  | some (.bool b) => some b
  | _ => none

def presentSubmitted (row : IntentRow) : SubmittedView where
  id := row.id
  status := row.status
  transactionHash := row.transactionHash
  engineResult := row.submitEngineResult
  accepted := submitFlag row.submitResponse "accepted"
  queued := submitFlag row.submitResponse "queued"
  broadcast := submitFlag row.submitResponse "broadcast"

/-- The detail view of a row whose payload has been read. -/
def detailOf (row : IntentRow) (intent : IntentPayload) : DetailView where
  id := row.id
  type := row.intentType
  status := row.status
  account := row.sourceAccount
  networkId := row.networkId
  intent := intent
  transaction := row.preparedTxJson.bind orderedTransaction
  preparedTxBlob := row.preparedTxBlob
  preparedLedgerIndex := row.preparedLedgerIndex
  sequence := row.sequence
  fee := row.feeDrops
  lastLedgerSequence := row.lastLedgerSequence
  simulation := row.simulationEngineResult.map fun result => (result, row.simulationResult)
  transactionHash := row.transactionHash
  signingPubKey := row.signingPubKey
  submission := {
    attemptCount := row.submissionAttemptCount
    engineResult := row.submitEngineResult
    validatedLedgerAtFirstSubmission := row.submissionValidatedLedger
    lastAttemptAt := row.lastSubmitAttemptAt.map iso }
  finalResult := row.finalResult
  succeeded := row.finalResult.map fun result => startsWith result "tes"
  finalLedgerIndex := row.finalLedgerIndex
  finalLedgerHash := row.finalLedgerHash
  failureCode := row.failureCode
  createdAt := iso row.createdAt
  preparedAt := row.preparedAt.map iso
  simulatedAt := row.simulatedAt.map iso
  signedAt := row.signedAt.map iso
  submittedAt := row.submittedAt.map iso
  finalizedAt := row.finalizedAt.map iso
  updatedAt := iso row.updatedAt

/-- Reading the stored payload can throw, and then there is no detail view. -/
def presentDetail (row : IntentRow) : Except Failure DetailView :=
  (asIntentPayload row.intentPayload).map (detailOf row)

theorem presentDetail_ok {row : IntentRow} {view : DetailView} (h : presentDetail row = .ok view) :
    ∃ payload, view = detailOf row payload := by
  unfold presentDetail at h
  cases hp : asIntentPayload row.intentPayload with
  | error e =>
    rw [hp] at h
    cases h
  | ok payload =>
    rw [hp] at h
    exact ⟨payload, (Except.ok.inj h).symm⟩

/-! ## The controller -/

/-- What is answered as `data`. -/
inductive View where
  | prepared (view : PreparedView)
  | signed (view : SignedView)
  | submitted (view : SubmittedView)
  | detail (view : DetailView)
  deriving DecidableEq

namespace IntentsController

def prepare (row : IntentRow) : Except Failure View :=
  if row.status = .awaitingSignature then .ok (.prepared (presentPrepared row))
  else (presentDetail row).map .detail

def signature (row : IntentRow) : Except Failure View :=
  if row.status = .signed then .ok (.signed (presentSigned row))
  else (presentDetail row).map .detail

def submit (row : IntentRow) : Except Failure View :=
  if row.status = .validated then (presentDetail row).map .detail
  else .ok (.submitted (presentSubmitted row))

end IntentsController

/-! ## The order of the builder -/

/-- The same keys in the same order, with the same values. -/
def Record.Alike (r r' : Record) : Prop := List.Forall₂ (fun f g => f.1 = g.1 ∧ f.2.Same g.2) r r'

/-- Objects that are the same, and have their keys in the same order, are alike. -/
theorem Record.alike_of_same {r r' : Record} (hkeys : r.map (·.1) = r'.map (·.1))
    (hnodup : (r.map (·.1)).Nodup)
    (h : ∀ k x y, r.get? k = some x → r'.get? k = some y → x.Same y) : r.Alike r' := by
  induction r generalizing r' with
  | nil =>
    obtain rfl := List.map_eq_nil_iff.mp hkeys.symm
    exact .nil
  | cons f r ih =>
    cases r' with
    | nil => cases hkeys
    | cons g r' =>
      obtain ⟨k, x⟩ := f
      obtain ⟨m, y⟩ := g
      simp only [List.map_cons, List.cons.injEq] at hkeys
      obtain ⟨rfl, hkeys⟩ := hkeys
      obtain ⟨hk, hnodup⟩ := List.nodup_cons.mp hnodup
      refine .cons ⟨rfl, h k x y (by simp) (by simp)⟩ (ih hkeys hnodup fun m x' y' hx hy => ?_)
      have hm : k ≠ m := by
        rintro rfl
        exact hk (List.mem_map.mpr ⟨_, Record.mem_of_get? hx, rfl⟩)
      refine h m x' y' ?_ ?_
      · rw [Record.get?_cons, if_neg hm, hx]
      · rw [Record.get?_cons, if_neg hm, hy]

theorem orderedFields_snoc_none {source : Record} {field : String} (h : source.get? field = none)
    (order : List String) :
    orderedFields source (order ++ [field]) = orderedFields source order := by
  rw [orderedFields, List.foldl_append, List.foldl_cons, List.foldl_nil, h]
  rfl

theorem orderedFields_snoc_some {source : Record} {field : String} {value : Json}
    (h : source.get? field = some value) (order : List String) :
    orderedFields source (order ++ [field]) = (orderedFields source order).set field value := by
  rw [orderedFields, List.foldl_append, List.foldl_cons, List.foldl_nil, h]
  rfl

theorem orderedFields_keys (source : Record) {order : List String} (hn : order.Nodup) :
    (orderedFields source order).map (·.1) = order.filter source.has := by
  induction order using List.reverseRecOn with
  | nil => rfl
  | append_singleton order field ih =>
    obtain ⟨hn, -, hfield⟩ := List.nodup_append.mp hn
    have hmem : field ∉ order := fun hf => hfield field hf field (by simp) rfl
    rw [List.filter_append, ← ih hn]
    cases hs : source.get? field with
    | none => simp [orderedFields_snoc_none hs, Record.has, hs]
    | some value =>
      have hnone : ¬ (orderedFields source order).has field = true := by
        rw [Record.has, get?_orderedFields, if_neg hmem]
        simp
      have hset : (orderedFields source order).set field value =
          orderedFields source order ++ [(field, value)] := if_neg hnone
      rw [orderedFields_snoc_some hs, hset, List.map_append]
      simp [Record.has, hs]

theorem addMissing_of_has {ordered source : Record} (h : ∀ f ∈ source, ordered.has f.1 = true) :
    addMissing ordered source = ordered := by
  induction source with
  | nil => rfl
  | cons f source ih =>
    have hstep : addMissing ordered (f :: source) =
        addMissing (if ordered.has f.1 then ordered else ordered.set f.1 f.2) source := rfl
    rw [hstep, if_pos (h f List.mem_cons_self)]
    exact ih fun f hf => h f (List.mem_cons_of_mem _ hf)

/-- The keys of the exposed transaction come in the order of the presenter. -/
theorem orderedTransaction_keys {source : Record}
    (h : ∀ f ∈ source, f.1 ∈ transactionFieldOrder) :
    ∃ ordered, orderedTransaction (.obj source) = some ordered ∧
      ordered.map (·.1) = transactionFieldOrder.filter source.has := by
  have hall : ∀ f ∈ source, (orderedFields source transactionFieldOrder).has f.1 = true := by
    intro f hf
    rw [Record.has, get?_orderedFields, if_pos (h f hf)]
    exact Record.has_of_mem hf
  refine ⟨orderedFields source transactionFieldOrder, ?_, orderedFields_keys source (by decide)⟩
  exact congrArg some (addMissing_of_has hall)

/-- So do those of a built transaction. -/
theorem buildTransaction_keys (intent : IntentPayload) (params : PreparationParams) :
    (buildTransaction intent params).map (·.1) =
      transactionFieldOrder.filter (buildTransaction intent params).has := by
  cases intent with
  | payment intent =>
    cases h : intent.destinationTag <;>
      simp only [buildTransaction, buildPayment, networkIdField, h] <;>
      split_ifs <;> simp [transactionFieldOrder, List.filter, Record.has]
  | trustSet intent =>
    simp only [buildTransaction, buildTrustSet, networkIdField]
    split_ifs <;> simp [transactionFieldOrder, List.filter, Record.has]

/-- **What is read from the column is what was built**, the order of its keys included. -/
theorem orderedTransaction_restores {P : Platform} (hjsonb : P.JsonbPreserves)
    (intent : IntentPayload) (params : PreparationParams) :
    ∃ exposed, orderedTransaction (P.jsonb (.obj (buildTransaction intent params))) =
      some exposed ∧ exposed.Alike (buildTransaction intent params) ∧
      Record.Same (buildTransaction intent params) exposed := by
  obtain ⟨column, hcolumn, hsame⟩ := (hjsonb (.obj (buildTransaction intent params))).obj_left
  have hhas (k : String) : column.has k = (buildTransaction intent params).has k :=
    (hsame.isSome k).symm
  have hkeys := buildTransaction_keys intent params
  have hin : ∀ f ∈ column, f.1 ∈ transactionFieldOrder := by
    intro f hf
    have hbuilt : (buildTransaction intent params).has f.1 = true :=
      (hhas f.1).symm.trans (Record.has_of_mem hf)
    obtain ⟨v, hv⟩ := Option.isSome_iff_exists.mp hbuilt
    have hmem : f.1 ∈ (buildTransaction intent params).map (·.1) :=
      List.mem_map.mpr ⟨_, Record.mem_of_get? hv, rfl⟩
    rw [hkeys] at hmem
    exact (List.mem_filter.mp hmem).1
  obtain ⟨exposed, hexposed, hordered⟩ := orderedTransaction_keys hin
  obtain ⟨exposed', hexposed', hsame'⟩ := orderedTransaction_same column
  obtain rfl := Option.some.inj (hexposed.symm.trans hexposed')
  have hall : Record.Same (buildTransaction intent params) exposed := hsame.trans hsame'.symm
  refine ⟨exposed, hcolumn ▸ hexposed, Record.alike_of_same ?_ ?_ ?_, hall⟩
  · rw [hordered, hkeys]
    exact congrArg (fun p => List.filter p transactionFieldOrder) (funext hhas)
  · rw [hordered]
    exact List.Nodup.filter _ (by decide)
  · intro k x y hx hy
    obtain ⟨z, hz, hs⟩ := hall.get hy
    obtain rfl := Option.some.inj (hx.symm.trans hz)
    exact hs.symm

end Orchestrator
