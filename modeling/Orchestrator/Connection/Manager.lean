import Orchestrator.Interleave.Machine
import Orchestrator.Xrpl.Capability
import Mathlib.Logic.Function.Basic

/-!
# The connection manager

`connection-manager.service.ts` as a machine. An event is what the event loop delivers: a call, an
answer, a completed `connect()` or `disconnect()`, a lost connection, a timer. The code reacts up
to its next `await`s, and the continuations of a settled `switching` run before the next event.

* `LedgerClient`, `Switch`, `Task`, `Manager`, `Net`: clients, the switch in progress, the pending
  calls, the fields of the service, and all of it with a trace;
* `Net.release`, `Net.settle`, `Net.connectInOrder`, `Net.connection`, `Net.failover`: the methods;
* `Event`, `Net.step`, `manager`: the machine.
-/

namespace Orchestrator

open Interleave

inductive EndpointName where
  | primary
  | secondary
  deriving DecidableEq

def otherEndpoint : EndpointName → EndpointName
  | .primary => .secondary
  | .secondary => .primary

/-- `RECONNECT_BACKOFF_MS`. -/
def reconnectBackoffMs : List ℕ := [1000, 2000, 5000, 10000, 30000]

/-- Reconnect delay for the n-th consecutive failed round (0-based). -/
def reconnectDelayMs (attempt : ℕ) : ℕ := reconnectBackoffMs[attempt]?.getD 30000

/-- The connection of a client: `connect()` is pending, succeeded, failed or was lost later;
`disconnect()` is pending or done. -/
inductive Link where
  | connecting
  | up
  | down
  | closing
  | closed
  deriving DecidableEq

/-- A client, whether it has been connected, and the commands of the bootstrap it has answered
acceptably. -/
structure LedgerClient where
  name : EndpointName
  link : Link
  wasConnected : Bool
  passed : List BootstrapCommand
  deriving DecidableEq

/-- The `await` that the tracked work is at: `release()` before a switch, `connect()`, an answer of
the bootstrap, or `disconnect()` after a bootstrap that failed; then the endpoints left to try. -/
inductive Phase where
  | releasing (client : ℕ) (alternate : EndpointName)
  | connecting (client : ℕ) (rest : List EndpointName)
  | asking (client : ℕ) (command : BootstrapCommand) (rest : List EndpointName)
  | dropping (client : ℕ) (rest : List EndpointName)
  deriving DecidableEq

/-- The work behind `switching`; a failover has a client that it leaves. -/
structure Switch where
  failed : Option ℕ
  phase : Phase
  deriving DecidableEq

/-- What runs on the manager: the methods it offers, what its timer does, and what it does about a
lost connection. -/
inductive ConnectionCall where
  | request (request : LedgerRequest)
  | switchEndpoint
  | ensureConnected
  | reconnect
  | connectionLost (client : ℕ)
  deriving DecidableEq

/-- Which endpoint a request waits for: its first one, or the one after its failover from the
client that failed it. -/
inductive Round where
  | first
  | second (failed : ℕ)
  deriving DecidableEq

/-- How a call ends; for a response, also the client that gave it. -/
inductive ConnectionOutcome where
  | connected
  | response (client : ℕ) (response : LedgerResponse)
  | unavailable
  | threw
  deriving DecidableEq

/-- The `await` that a call is at: `switching`, the endpoint it was given, the answer to what it
sent, or `release()` after both endpoints failed it. -/
inductive Stage where
  | waiting (round : Round)
  | holding (client : ℕ) (round : Round)
  | sent (client : ℕ) (round : Round)
  | releasing (client : ℕ)
  | done (outcome : ConnectionOutcome)
  deriving DecidableEq

structure Task where
  call : ConnectionCall
  stage : Stage
  deriving DecidableEq

structure ActiveEndpoint where
  name : EndpointName
  client : ℕ
  deriving DecidableEq

/-- The fields of the service that its methods decide by. -/
structure Manager where
  active : Option ActiveEndpoint := none
  preferred : EndpointName := .primary
  switching : Option Switch := none
  reconnectAttempt : ℕ := 0
  reconnectTimer : Option ℕ := none
  destroyed : Bool := false
  deriving DecidableEq

/-- The `await` that `onApplicationShutdown` is at. -/
inductive Shutdown where
  | running
  | waiting
  | releasing (client : ℕ)
  | done
  deriving DecidableEq

/-- What the trace shows: transmissions, their failures, and the switches that a call started, by a
failover or by connecting in order. -/
inductive Mark where
  | sent (task : ℕ) (request : LedgerRequest) (client : ℕ)
  | failed (task : ℕ) (client : ℕ)
  | left (client : ℕ) (task : ℕ)
  | attempted (task : ℕ)
  deriving DecidableEq

/-- The manager, the timeouts that are armed in the event loop, the clients it has created, the
calls on it, and the trace. -/
structure Net extends Manager where
  timeouts : ℕ := 0
  clients : ℕ → Option LedgerClient := fun _ => none
  nextClient : ℕ := 0
  tasks : ℕ → Option Task := fun _ => none
  nextTask : ℕ := 0
  shutdown : Shutdown := .running
  trace : List Mark := []

namespace Net

/-! ## Parts of a step -/

def setClient (n : Net) (client : ℕ) (f : LedgerClient → LedgerClient) : Net :=
  { n with clients := Function.update n.clients client ((n.clients client).map f) }

def setLink (n : Net) (client : ℕ) (link : Link) : Net :=
  n.setClient client fun c => { c with link }

def setStage (n : Net) (i : ℕ) (stage : Stage) : Net :=
  { n with tasks := Function.update n.tasks i ((n.tasks i).map fun t => { t with stage }) }

def mark (n : Net) (m : Mark) : Net := { n with trace := n.trace ++ [m] }

def scheduleReconnect (n : Net) : Net :=
  if n.destroyed || n.reconnectTimer.isSome then n
  else { n with
    reconnectTimer := some (reconnectDelayMs n.reconnectAttempt)
    reconnectAttempt := n.reconnectAttempt + 1
    timeouts := n.timeouts + 1 }

/-- The callback of the timer, before it connects. -/
def fire (n : Net) : Net := { n with reconnectTimer := none, timeouts := n.timeouts - 1 }

/-- `onApplicationShutdown`, up to its first `await`; `clearTimeout` is for the timer of the
field. -/
def destroy (n : Net) : Net :=
  { n with
    destroyed := true
    reconnectTimer := none
    timeouts := if n.reconnectTimer.isSome then n.timeouts - 1 else n.timeouts }

/-- `release`, up to its `await`: the client that it disconnects is no longer active. -/
def release (n : Net) : Net :=
  match n.active with
  | some current => { n.setLink current.client .closing with active := none }
  | none => n

end Net

/-- A call is given an endpoint: a request goes on with it, the others only wanted it there. -/
def Task.obtain (round : Round) (client : ℕ) (t : Task) : Task :=
  match t.call with
  | .request _ => { t with stage := .holding client round }
  | _ => { t with stage := .done .connected }

/-- `switching` has settled, with a client or in failure. -/
def Task.resume (result : Option ℕ) (t : Task) : Task :=
  match t.stage with
  | .waiting round => match result with
    | some client => t.obtain round client
    | none => { t with stage := .done .unavailable }
  | _ => t

namespace Net

/-- The rest of `onApplicationShutdown`. -/
def finishShutdown (n : Net) : Net :=
  match n.active with
  | some current => { n.release with shutdown := .releasing current.client }
  | none => { n with shutdown := .done }

/-- The tracked work has ended: with an endpoint, which becomes the active one, or in failure. The
calls that wait for it go on, and so does a shutdown. -/
def settle (n : Net) (endpoint : Option ActiveEndpoint) : Net :=
  let ended : Net := match endpoint with
    | some e => { n with active := some e, preferred := e.name, reconnectAttempt := 0 }
    | none => n.scheduleReconnect
  let resumed : Net := { ended with
    switching := none
    tasks := fun i => (n.tasks i).map (Task.resume (endpoint.map (·.client))) }
  if n.shutdown = .waiting then resumed.finishShutdown else resumed

/-- `connectInOrder` with the endpoints `order` left to try, up to `await client.connect()`. -/
def connectInOrder (n : Net) (failed : Option ℕ) (order : List EndpointName) : Net :=
  match order with
  | [] => n.settle none
  | name :: rest =>
    if n.destroyed then n.settle none
    else { n with
      clients := Function.update n.clients n.nextClient (some ⟨name, .connecting, false, []⟩)
      nextClient := n.nextClient + 1
      switching := some ⟨failed, .connecting n.nextClient rest⟩ }

/-- `await this.connection()` in call `i`. -/
def connection (n : Net) (i : ℕ) (round : Round) : Net :=
  match n.active with
  | some e =>
    { n with tasks := Function.update n.tasks i ((n.tasks i).map (Task.obtain round e.client)) }
  | none =>
    let waiting := n.setStage i (.waiting round)
    match n.switching with
    | some _ => waiting
    | none => (waiting.mark (.attempted i)).connectInOrder none
        [n.preferred, otherEndpoint n.preferred]

/-- `await this.failover(failed)` in call `i`. -/
def failover (n : Net) (i : ℕ) (failed : ℕ) (round : Round) : Net :=
  match n.switching with
  | some _ => n.setStage i (.waiting round)
  | none => match n.active with
    | some e =>
      if e.client = failed then
        { ((n.setStage i (.waiting round)).mark (.left failed i)).release with
          switching := some ⟨some failed, .releasing failed (otherEndpoint e.name)⟩ }
      else n.connection i round
    | none => n.connection i round

def addTask (n : Net) (call : ConnectionCall) : Net :=
  { n with
    tasks := Function.update n.tasks n.nextTask (some ⟨call, .waiting .first⟩)
    nextTask := n.nextTask + 1 }

/-- A new call, up to its first `await`. -/
def start (n : Net) (call : ConnectionCall) : Net :=
  let i := n.nextTask
  match call with
  | .request _ | .ensureConnected | .reconnect => (n.addTask call).connection i .first
  | .switchEndpoint => match n.active with
    | some current => (n.addTask call).failover i current.client .first
    | none => (n.addTask call).connection i .first
  | .connectionLost client => (n.addTask call).failover i client .first

/-- The bootstrap of a client has failed: `catch`, up to `await client.disconnect()`. -/
def drop (n : Net) (w : Switch) (client : ℕ) (rest : List EndpointName) : Net :=
  { n.setLink client .closing with switching := some { w with phase := .dropping client rest } }

/-- An acceptable answer to `command`: the next command, or the endpoint is ready. -/
def pass (n : Net) (w : Switch) (client : ℕ) (command : BootstrapCommand)
    (rest : List EndpointName) : Net :=
  let passed := n.setClient client fun c => { c with passed := c.passed ++ [command] }
  match command with
  | .serverInfo =>
    { passed with switching := some { w with phase := .asking client .serverDefinitions rest } }
  | .serverDefinitions =>
    { passed with switching := some { w with phase := .asking client .subscribe rest } }
  | .subscribe => passed.settle ((n.clients client).map fun c => ⟨c.name, client⟩)

end Net

/-! ## Events -/

/-- What the event loop delivers. -/
inductive Event where
  | request (request : LedgerRequest)
  | switchEndpoint
  | ensureConnected
  | transmit (task : ℕ)
  | reply (task : ℕ) (response : LedgerResponse)
  | fault (task : ℕ)
  | throw (task : ℕ)
  | connected
  | refused
  | answered (answer : Option LedgerResponse)
  | disconnected (client : ℕ)
  | lost (client : ℕ)
  | timer
  | shutdown
  deriving DecidableEq

namespace Net

def linkOf (n : Net) (client : ℕ) : Option Link := (n.clients client).map (·.link)

/-- The calls whose `release()` of `client` has completed give up. -/
def giveUp (n : Net) (client : ℕ) : Net :=
  { n with tasks := fun i => (n.tasks i).map fun t =>
      if t.stage = .releasing client then { t with stage := .done .unavailable } else t }

/-- A release of `client` that is not the tracked work's own has completed: that of calls, which
now give up, or the shutdown's. -/
def finishRelease (n : Net) (client : ℕ) : Net :=
  let n := n.giveUp client
  if n.shutdown = .releasing client then { n with shutdown := .done } else n.scheduleReconnect

/-- `disconnect()` of the client has completed. -/
def disconnected (n : Net) (client : ℕ) : Net :=
  let n := n.setLink client .closed
  match n.switching with
  | some w => match w.phase with
    | .releasing old alternate =>
      if old = client then { n with preferred := alternate }.connectInOrder w.failed [alternate]
      else n.finishRelease client
    | .dropping dropped rest =>
      if dropped = client then n.connectInOrder w.failed rest else n.finishRelease client
    | _ => n.finishRelease client
  | none => n.finishRelease client

/-- The reaction to an event, where it can happen. -/
def step (networkId : ℕ) (n : Net) : Event → Option Net
  | .request q => some (n.start (.request q))
  | .switchEndpoint => some (n.start .switchEndpoint)
  | .ensureConnected => some (n.start .ensureConnected)
  | .transmit i => match n.tasks i with
    | some ⟨.request q, .holding client round⟩ =>
      some ((n.setStage i (.sent client round)).mark (.sent i q client))
    | _ => none
  | .reply i r => match n.tasks i with
    | some ⟨.request _, .sent client _⟩ =>
      if n.linkOf client = some .up ∨ n.linkOf client = some .closing then
        some (n.setStage i (.done (.response client r)))
      else none
    | _ => none
  | .fault i => match n.tasks i with
    | some ⟨.request _, .sent client round⟩ =>
      let n := n.mark (.failed i client)
      match round with
      | .first => some (n.failover i client (.second client))
      | .second _ =>
        if n.active.map (·.client) = some client ∧ n.switching = none then
          some (n.setStage i (.releasing client)).release
        else some (n.setStage i (.done .unavailable))
    | _ => none
  | .throw i => match n.tasks i with
    | some ⟨.request _, .sent _ _⟩ => some (n.setStage i (.done .threw))
    | _ => none
  | .connected => match n.switching with
    | some ⟨failed, .connecting client rest⟩ =>
      some { n.setClient client fun c => { c with link := .up, wasConnected := true } with
        switching := some ⟨failed, .asking client .serverInfo rest⟩ }
    | _ => none
  | .refused => match n.switching with
    | some ⟨failed, .connecting client rest⟩ =>
      some (n.drop ⟨failed, .connecting client rest⟩ client rest)
    | _ => none
  | .answered answer => match n.switching with
    | some ⟨failed, .asking client command rest⟩ =>
      if answer.any (accepts networkId command) then
        some (n.pass ⟨failed, .asking client command rest⟩ client command rest)
      else some (n.drop ⟨failed, .asking client command rest⟩ client rest)
    | _ => none
  | .disconnected client =>
    if n.linkOf client = some .closing then some (n.disconnected client) else none
  | .lost client =>
    if n.linkOf client = some .up then
      let n := n.setLink client .down
      if n.active.map (·.client) = some client then some (n.start (.connectionLost client))
      else some n
    else none
  | .timer =>
    if 0 < n.timeouts then some (n.fire.start .reconnect) else none
  | .shutdown =>
    if n.destroyed then none
    else
      if n.switching.isSome then some { n.destroy with shutdown := .waiting }
      else some n.destroy.finishShutdown

end Net

/-- The service from its construction on. -/
def manager (networkId : ℕ) : Machine Net Event where
  init n := n = {}
  step := Net.step networkId

end Orchestrator
