import Orchestrator.Interleave.System
import Orchestrator.Intents.Service
import Orchestrator.Preparation.Service
import Orchestrator.Signing.Service
import Orchestrator.Submission.Service

/-!
# The running service

The calls of the API and of the finality worker as one system: any number of them run at once on
one database, the endpoints answer whatever they like, and the process can stop at any moment.

* `Ledger`, `Inclusion`: the chain of validated ledgers, which only grows;
* `State`, `Call`, `Reply`, `Choice`, `perform`, `system`;
* **`perform_db`**, `exec_transition`, `exec_updateInStatus`, `exec_createIdempotent`: what one
  operation does to the database.
-/

namespace Orchestrator

open Interleave

/-- A transaction in a validated ledger. Only `tes*` and `tec*` results get there. -/
structure Inclusion where
  hash : String
  result : String
  applied : (startsWith result "tes" || startsWith result "tec") = true
  deriving DecidableEq

/-- A validated ledger: its transactions, and the Sequence of every account that exists in it. -/
structure Ledger where
  transactions : List Inclusion
  sequences : List (String × ℕ)
  deriving DecidableEq

/-- The shared state. Ledger `n` is `chain[n]`. -/
structure State where
  db : Db
  recovered : Bool
  degraded : Bool
  networkId : ℕ
  chain : List Ledger

/-- What is called: a request of the API, or a finality cycle. -/
inductive Call where
  | create (idempotencyKey : String) (dto : CreateIntentDto)
  | prepare (id : String)
  | attachSignature (id txBlob : String)
  | submit (id : String)
  | cycle
  deriving DecidableEq

inductive Reply where
  | created (created : Bool) (row : IntentRow)
  | intent (row : IntentRow)
  | done
  deriving DecidableEq

variable (P : Platform)

/-- What a call runs. -/
def handle : Call → Service Reply
  | .create idempotencyKey dto =>
    (fun result => Reply.created result.1 result.2) <$> create P idempotencyKey dto
  | .prepare id => Reply.intent <$> prepare P id
  | .attachSignature id txBlob => Reply.intent <$> attachSignature P id txBlob
  | .submit id => Reply.intent <$> submit P id
  | .cycle => (fun _ => Reply.done) <$> cycle P

/-- What the outside contributes to an operation: the time, a fresh id, an answer, a fault. -/
inductive Choice where
  | time (t : ℕ)
  | uuid (id : String)
  | answer (answer : Except RequestError LedgerResponse)
  | switched (outcome : Except RequestError Unit)
  | fault
  deriving DecidableEq

/-- One operation. A statement either runs as a transaction of its own at some time, or fails and
changes nothing. -/
def perform (s : State) : Choice → (op : Op) → Option (op.Ret × State)
  | .time t, .now => some (t, s)
  | .uuid id, .randomUUID => some (id, s)
  | _, .networkId => some (s.networkId, s)
  | _, .recovered => some (s.recovered, s)
  | _, .completeCycle degraded => some ((), { s with recovered := true, degraded })
  | _, .send _ => some ((), s)
  | .answer answer, .receive _ => some (answer, s)
  | .switched outcome, .switchEndpoint _ => some (outcome, s)
  | .time _, .findById id => some (.ok (s.db.find id), s)
  | .time _, .findByStatuses statuses => some (.ok (s.db.findByStatuses statuses), s)
  | .time t, .transition id request =>
    let (out, db) := s.db.transition P t id request
    some (out, { s with db })
  | .time t, .updateInStatus id statuses patch =>
    let (out, db) := s.db.updateInStatus P t id statuses patch
    some (out, { s with db })
  | .time _, .createIdempotent row =>
    let (out, db) := s.db.createIdempotent P row
    some (out, { s with db })
  | .fault, .findById _ => some (.error .failed, s)
  | .fault, .findByStatuses _ => some (.error .failed, s)
  | .fault, .transition _ _ => some (.error .failed, s)
  | .fault, .updateInStatus _ _ _ => some (.error .failed, s)
  | .fault, .createIdempotent _ => some (.error .failed, s)
  | _, _ => none

/-- The service: it starts on empty tables, the chain grows by one ledger at a time, and a restart
keeps the tables only. -/
def system : System Op Op.Ret Failure Reply Call State where
  init s := s.db = ⟨[], []⟩ ∧ s.recovered = false
  body := handle P
  exec s op r s' := ∃ choice, perform P s choice op = some (r, s')
  env s s' := ∃ ledger, s' = { s with chain := s.chain ++ [ledger] }
  restart s s' := ∃ networkId, s' = { s with recovered := false, degraded := false, networkId }

/-! ## What one operation does -/

/-- The operations that can write. -/
def Op.writes : Op → Bool
  | .transition _ _ => true
  | .updateInStatus _ _ _ => true
  | .createIdempotent _ => true
  | _ => false

variable {P} {s s' : State}

/-- **No other operation touches the tables.** -/
theorem perform_db {choice : Choice} {op : Op} {r : op.Ret} (hop : op.writes = false)
    (h : perform P s choice op = some (r, s')) : s'.db = s.db := by
  cases op <;> cases choice <;> simp_all [perform, Op.writes] <;> aesop

theorem perform_chain {choice : Choice} {op : Op} {r : op.Ret}
    (h : perform P s choice op = some (r, s')) : s'.chain = s.chain := by
  cases op <;> cases choice <;> simp_all [perform] <;> aesop

theorem exec_transition {id : String} {request : TransitionRequest}
    {r : Op.Ret (.transition id request)}
    (h : (system P).exec s (.transition id request) r s') :
    (r = .error .failed ∧ s' = s) ∨ ∃ t, r = (s.db.transition P t id request).1 ∧
      s' = { s with db := (s.db.transition P t id request).2 } := by
  obtain ⟨choice, h⟩ := h
  cases choice with
  | time t =>
    simp only [perform, Option.some.injEq, Prod.mk.injEq] at h
    exact .inr ⟨t, h.1.symm, h.2.symm⟩
  | fault =>
    simp only [perform, Option.some.injEq, Prod.mk.injEq] at h
    exact .inl ⟨h.1.symm, h.2.symm⟩
  | _ => simp [perform] at h

theorem exec_updateInStatus {id : String} {statuses : List Status} {patch : IntentPatch}
    {r : Op.Ret (.updateInStatus id statuses patch)}
    (h : (system P).exec s (.updateInStatus id statuses patch) r s') :
    (r = .error .failed ∧ s' = s) ∨ ∃ t, r = (s.db.updateInStatus P t id statuses patch).1 ∧
      s' = { s with db := (s.db.updateInStatus P t id statuses patch).2 } := by
  obtain ⟨choice, h⟩ := h
  cases choice with
  | time t =>
    simp only [perform, Option.some.injEq, Prod.mk.injEq] at h
    exact .inr ⟨t, h.1.symm, h.2.symm⟩
  | fault =>
    simp only [perform, Option.some.injEq, Prod.mk.injEq] at h
    exact .inl ⟨h.1.symm, h.2.symm⟩
  | _ => simp [perform] at h

theorem exec_createIdempotent {row : NewIntentRow} {r : Op.Ret (.createIdempotent row)}
    (h : (system P).exec s (.createIdempotent row) r s') :
    (r = .error .failed ∧ s' = s) ∨ (r = (s.db.createIdempotent P row).1 ∧
      s' = { s with db := (s.db.createIdempotent P row).2 }) := by
  obtain ⟨choice, h⟩ := h
  cases choice with
  | time t =>
    simp only [perform, Option.some.injEq, Prod.mk.injEq] at h
    exact .inr ⟨h.1.symm, h.2.symm⟩
  | fault =>
    simp only [perform, Option.some.injEq, Prod.mk.injEq] at h
    exact .inl ⟨h.1.symm, h.2.symm⟩
  | _ => simp [perform] at h

theorem exec_findById {id : String} {r : Op.Ret (.findById id)}
    (h : (system P).exec s (.findById id) r s') :
    s' = s ∧ (r = .error .failed ∨ r = .ok (s.db.find id)) := by
  obtain ⟨choice, h⟩ := h
  cases choice with
  | time t =>
    simp only [perform, Option.some.injEq, Prod.mk.injEq] at h
    exact ⟨h.2.symm, .inr h.1.symm⟩
  | fault =>
    simp only [perform, Option.some.injEq, Prod.mk.injEq] at h
    exact ⟨h.2.symm, .inl h.1.symm⟩
  | _ => simp [perform] at h

theorem exec_findByStatuses {statuses : List Status} {r : Op.Ret (.findByStatuses statuses)}
    (h : (system P).exec s (.findByStatuses statuses) r s') :
    s' = s ∧ (r = .error .failed ∨ r = .ok (s.db.findByStatuses statuses)) := by
  obtain ⟨choice, h⟩ := h
  cases choice with
  | time t =>
    simp only [perform, Option.some.injEq, Prod.mk.injEq] at h
    exact ⟨h.2.symm, .inr h.1.symm⟩
  | fault =>
    simp only [perform, Option.some.injEq, Prod.mk.injEq] at h
    exact ⟨h.2.symm, .inl h.1.symm⟩
  | _ => simp [perform] at h

end Orchestrator
