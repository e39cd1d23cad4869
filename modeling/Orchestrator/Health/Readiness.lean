import Orchestrator.Connection.Stream
import Orchestrator.Finality.Health

/-!
# Readiness

`health.service.ts` puts together what the database, the connection and the finality service say of
themselves.

* `CheckState`, `ReadinessReport`, `readiness`, `readyz`;
* `FinalityMemory.Settled`, `memory_settled`: the finality service is recovered exactly when it is
  no longer starting;
* **`ready_iff_all_green`**.
-/

namespace Orchestrator

open Interleave

inductive CheckState where
  | up
  | down
  deriving DecidableEq

inductive FinalityCheck where
  | healthy
  | degraded
  | starting
  deriving DecidableEq

inductive RecoveryCheck where
  | completed
  | pending
  deriving DecidableEq

structure Checks where
  database : CheckState
  xrpl : CheckState
  definitions : CheckState
  ledgerSubscription : CheckState
  finality : FinalityCheck
  startupRecovery : RecoveryCheck
  deriving DecidableEq

structure ReadinessReport where
  ready : Bool
  checks : Checks
  deriving DecidableEq

def checkState (up : Bool) : CheckState := if up then .up else .down

/-- `readiness()`, from `isReachable()` of the database, `status()` of the connection, and
`status()` and `isRecovered()` of the finality service. -/
def readiness (databaseUp : Bool) (xrpl : ConnectionStatus) (finality : FinalityMemory) :
    ReadinessReport where
  ready := checkState databaseUp = .up && xrpl.connected && xrpl.networkId.isSome &&
    xrpl.definitionsCompatible && xrpl.ledgerSubscription && decide (finality.health ≠ .degraded) &&
    finality.recovered
  checks := {
    database := checkState databaseUp
    xrpl := checkState xrpl.connected
    definitions := checkState xrpl.definitionsCompatible
    ledgerSubscription := checkState xrpl.ledgerSubscription
    finality := match finality.health with
      | .healthy => .healthy
      | .degraded => .degraded
      | .starting => .starting
    startupRecovery := if finality.recovered then .completed else .pending }

/-- The status code of `GET /readyz`. -/
def readyz (report : ReadinessReport) : ℕ := if report.ready then 200 else 503

/-- Every check has its good value. -/
def allGreen : Checks := ⟨.up, .up, .up, .up, .healthy, .completed⟩

/-- The service has recovered exactly when it is no longer starting. -/
def FinalityMemory.Settled (memory : FinalityMemory) : Prop :=
  memory.recovered = true ↔ memory.health ≠ .starting

theorem FinalityMemory.Settled.update {memory : FinalityMemory} (h : memory.Settled) (op : Op)
    (r : op.Ret) : (memory.update op r).Settled := by
  cases op with
  | completeCycle degraded => cases degraded <;> simp [FinalityMemory.update, Settled]
  | _ => exact h

/-- **In every run** of the finality service. -/
theorem memory_settled {P : Platform} {f : FinalityFlight}
    (h : (finalityService P).Reach Machine.anyEvent f) : f.memory.Settled := by
  refine h.inv (P := fun f => f.memory.Settled) (fun f hf => ?_) fun f e f' _ ih hs _ => ?_
  · obtain rfl := hf
    simp [FinalityMemory.Settled]
  · obtain grows | ⟨l, -, answer, op, k, -, -, rfl⟩ := Flight.step_cases hs
    · rw [grows.memory]
      exact ih
    · exact ih.update op (answer op)

/-- A connection status says one thing. -/
structure ConnectionStatus.Plain (xrpl : ConnectionStatus) : Prop where
  networkId : xrpl.networkId.isSome = xrpl.connected
  definitions : xrpl.definitionsCompatible = xrpl.connected
  subscription : xrpl.ledgerSubscription = xrpl.connected

theorem Stream.status_plain (networkId : ℕ) (s : Stream) : (s.status networkId).Plain :=
  ⟨Option.isSome_map, rfl, rfl⟩

section

variable {databaseUp : Bool} {xrpl : ConnectionStatus} {memory : FinalityMemory}

/-- The conditions of the code. -/
theorem readiness_ready (hx : xrpl.Plain) (hm : memory.Settled) :
    (readiness databaseUp xrpl memory).ready = true ↔
      databaseUp = true ∧ xrpl.connected = true ∧ memory = ⟨.healthy, true⟩ := by
  obtain ⟨health, recovered⟩ := memory
  simp only [readiness, hx.networkId, hx.definitions, hx.subscription]
  generalize xrpl.connected = connected
  revert hm
  cases databaseUp <;> cases connected <;> cases health <;> cases recovered <;>
    simp [FinalityMemory.Settled, checkState]

/-- The checks of the body. -/
theorem readiness_green (hx : xrpl.Plain) :
    (readiness databaseUp xrpl memory).checks = allGreen ↔
      databaseUp = true ∧ xrpl.connected = true ∧ memory = ⟨.healthy, true⟩ := by
  obtain ⟨health, recovered⟩ := memory
  simp only [readiness, hx.definitions, hx.subscription]
  generalize xrpl.connected = connected
  cases databaseUp <;> cases connected <;> cases health <;> cases recovered <;>
    simp [allGreen, checkState]

end

/-- **Ready means that every check is good.** Whatever the connection and the finality service went
through, the service answers 200 to `GET /readyz` exactly when every check in the body has its good
value, though the code decides it by other conditions: an endpoint that passed the whole bootstrap
for the configured network is in use, and the last cycle that got through proved or left pending
what it examined. -/
theorem ready_iff_all_green (P : Platform) (networkId : ℕ) (databaseUp : Bool) (s : Stream)
    (hs : (ledgerStream networkId).Reach Machine.anyEvent s)
    (f : FinalityFlight) (hf : (finalityService P).Reach Machine.anyEvent f) :
    (readyz (readiness databaseUp (s.status networkId) f.memory) = 200 ↔
      (readiness databaseUp (s.status networkId) f.memory).checks = allGreen) ∧
    ((readiness databaseUp (s.status networkId) f.memory).ready = true → databaseUp = true ∧
      f.memory = ⟨.healthy, true⟩ ∧ ∃ e, s.net.active = some e ∧ s.net.Serves e.client e.name ∧
        Stream.Accepted networkId s.endpoint) := by
  have current := stream_current hs
  have plain := s.status_plain networkId
  have hready : (readiness databaseUp (s.status networkId) f.memory).ready = true ↔ _ :=
    readiness_ready plain (memory_settled hf)
  refine ⟨?_, fun hr => ?_⟩
  · rw [readiness_green plain, ← hready, readyz]
    split <;> simp [*]
  · obtain ⟨hdb, hactive, hmemory⟩ := hready.mp hr
    obtain ⟨e, he⟩ := Option.isSome_iff_exists.mp hactive
    exact ⟨hdb, hmemory, e, he, current.served.active e he, (current.endpoint e he).1⟩

/-- After the bootstrap of the first endpoint, and a first cycle with nothing to examine. -/
theorem ready_iff_all_green_first : ∃ (s : Stream) (f : FinalityFlight),
    readyz (readiness true (s.status 1) f.memory) = 200 ∧
    (readiness true (s.status 1) f.memory).checks = allGreen ∧
    ∃ e, s.net.active = some e ∧ s.net.Serves e.client e.name := by
  have hs := Machine.Reach.of_play rfl (show (ledgerStream 1).play {}
    ((Event.request .fee :: healthyAnswers).map .event) = some _ from rfl)
  have hf := Machine.Reach.of_play rfl (show (finalityService Sample.platform).play
    ⟨false, none, [], 0, 0, ⟨.starting, false⟩, []⟩
    (Sample.cycled 0 4 (Sample.gapFor5 [] (.error "internal" []))) = some _ from rfl)
  obtain ⟨hgreen, hready⟩ := ready_iff_all_green Sample.platform 1 true _ hs _ hf
  obtain ⟨-, -, e, he, hserves, -⟩ := hready rfl
  exact ⟨_, _, rfl, hgreen.mp rfl, e, he, hserves⟩

end Orchestrator
