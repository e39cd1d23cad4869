import Orchestrator.Connection.Served
import Mathlib.Order.Bounds.Basic

/-!
# The ledger stream of the connection

What the manager remembers of the endpoint it is on, for `status()` and for the callbacks of
`onValidatedLedger`: what its `server_info` said, and the ledgers that its stream reported since.

* `Stream`, `StreamEvent`, `Stream.step`, `ledgerStream`: the manager with its stream;
* `ConnectionStatus`, `Stream.status`;
* `Net.Passive`, **`step_passive`**: which events change the active endpoint, and whom the stream
  listens to;
* `Stream.Current`, **`status_is_current`**.
-/

namespace Orchestrator

open Interleave

/-- The manager; the `info` of the bootstrap in progress; what the active endpoint keeps of it; the
last validated ledger; the `server_info` answers that were accepted, and what the streams reported,
each with its client; and what the callbacks got. -/
structure Stream where
  net : Net := {}
  info : Option ServerInfo := none
  endpoint : Option ServerInfo := none
  latestValidatedLedger : Option ℕ := none
  said : List (ℕ × Record) := []
  reported : List (ℕ × ℕ) := []
  notified : List ℕ := []

/-- An event of the manager, or a ledger in the stream of a client. -/
inductive StreamEvent where
  | event (e : Event)
  | ledgerClosed (client : ℕ) (ledgerIndex : ℕ)

/-- The listeners of the client are registered: its bootstrap got through, and `removeAllListeners`
has not been called on it, which is when it is left. -/
def Net.listens (n : Net) (client : ℕ) : Bool :=
  (n.clients client).any fun c => c.link = .up ∧ c.passed = bootstrapCommands

namespace Stream

def handleValidatedLedger (s : Stream) (client ledgerIndex : ℕ) : Stream :=
  if s.net.active.map (·.client) ≠ some client then s
  else { s with
    latestValidatedLedger := match s.latestValidatedLedger with
      | some latest => if latest < ledgerIndex then some ledgerIndex else some latest
      | none => some ledgerIndex
    notified := s.notified ++ [ledgerIndex] }

/-- What an answer that the bootstrap accepts leaves, besides what it does to the manager. -/
def accept (s : Stream) (client : ℕ) (command : BootstrapCommand)
    (answer : Option LedgerResponse) : Stream :=
  match command, answer with
  | .serverInfo, some (.ok result) => { s with
      info := (parseServerInfo result).toOption
      said := s.said ++ [(client, result)] }
  | .subscribe, _ => { s with
      endpoint := s.info
      latestValidatedLedger := (s.info.bind (·.validatedLedger)).map (·.index) }
  | _, _ => s

def remember (networkId : ℕ) (s : Stream) : Event → Stream
  | .answered answer => match s.net.switching with
    | some ⟨_, .asking client command _⟩ =>
      if answer.any (accepts networkId command) then s.accept client command answer else s
    | _ => s
  | _ => s

def step (networkId : ℕ) (s : Stream) : StreamEvent → Option Stream
  | .event e => (s.net.step networkId e).map fun net => { s.remember networkId e with net }
  | .ledgerClosed client ledgerIndex =>
    if s.net.listens client then
      some ({ s with reported := s.reported ++ [(client, ledgerIndex)] }.handleValidatedLedger
        client ledgerIndex)
    else none

end Stream

/-- The service with its stream, from its construction on. -/
def ledgerStream (networkId : ℕ) : Machine Stream StreamEvent where
  init s := s = {}
  step := Stream.step networkId

structure ConnectionStatus where
  connected : Bool
  endpoint : Option EndpointName
  networkId : Option ℕ
  buildVersion : Option String
  validatedLedger : Option ℕ
  definitionsCompatible : Bool
  ledgerSubscription : Bool
  deriving DecidableEq

/-- `status()`; the network of the active endpoint is the configured one. -/
def Stream.status (networkId : ℕ) (s : Stream) : ConnectionStatus where
  connected := s.net.active.isSome
  endpoint := s.net.active.map (·.name)
  networkId := s.net.active.map fun _ => networkId
  buildVersion := s.net.active.bind fun _ => s.endpoint.map (·.buildVersion)
  validatedLedger := s.net.active.bind fun _ => s.latestValidatedLedger
  definitionsCompatible := s.net.active.isSome
  ledgerSubscription := s.net.active.isSome

namespace Net

variable {n n' n'' : Net}

/-! ## Who is active -/

/-- No client becomes active, and none is asked anything new; a client that is no longer active is
not listened to, and no other is listened to that was not before. -/
structure Passive (n n' : Net) : Prop where
  active : n'.active = n.active ∨
    n'.active = none ∧ ∀ e, n.active = some e → n'.listens e.client = false
  asking : ∀ failed client command rest, n'.switching = some ⟨failed, .asking client command rest⟩ →
    n.switching = some ⟨failed, .asking client command rest⟩
  listens : ∀ client, n'.listens client = true → n.listens client = true

theorem Passive.refl : n.Passive n := ⟨.inl rfl, fun _ _ _ _ h => h, fun _ h => h⟩

theorem Passive.trans (h : n.Passive n') (h' : n'.Passive n'') : n.Passive n'' where
  active := by
    obtain he' | ⟨hnone', hl'⟩ := h'.active
    · obtain he | ⟨hnone, hl⟩ := h.active
      · exact .inl (he'.trans he)
      · refine .inr ⟨he'.trans hnone, fun e he => Bool.eq_false_iff.mpr fun ht => ?_⟩
        cases (h'.listens _ ht).symm.trans (hl e he)
    · obtain he | ⟨-, hl⟩ := h.active
      · exact .inr ⟨hnone', fun e hn => hl' e (he.trans hn)⟩
      · refine .inr ⟨hnone', fun e he => Bool.eq_false_iff.mpr fun ht => ?_⟩
        cases (h'.listens _ ht).symm.trans (hl e he)
  asking failed client command rest hw := h.asking _ _ _ _ (h'.asking _ _ _ _ hw)
  listens client hl := h.listens _ (h'.listens _ hl)

/-- The clients are the same. -/
theorem Passive.same (hc : n'.clients = n.clients) (ha : n'.active = n.active)
    (hw : n'.switching = n.switching) : n.Passive n' :=
  ⟨.inl ha, fun _ _ _ _ h => hw ▸ h, fun client hl => by rw [Net.listens, ← hc]; exact hl⟩

/-- Before that, the switch was told to wait for something else. -/
theorem Passive.retarget (h : n.Passive n') (w : Switch)
    (hw : ∀ client command rest, w.phase ≠ .asking client command rest) :
    n.Passive { n' with switching := some w } where
  active := h.active
  asking failed client command rest hs := by
    obtain rfl := Option.some.inj hs
    exact absurd rfl (hw client command rest)
  listens := h.listens

theorem listens_setLink (client d : ℕ) {link : Link} (hl : link ≠ .up) :
    (n.setLink client link).listens d = (decide (d ≠ client) && n.listens d) := by
  by_cases hd : d = client
  · subst hd
    cases hc : n.clients d <;> simp [listens, setLink, setClient, hc, hl]
  · simp [listens, setLink, setClient, hd]

theorem setLink_passive (client : ℕ) {link : Link} (hl : link ≠ .up) :
    n.Passive (n.setLink client link) := by
  refine ⟨.inl rfl, fun _ _ _ _ h => h, fun d hd => ?_⟩
  rw [listens_setLink client d hl] at hd
  exact (Bool.and_eq_true_iff.mp hd).2

theorem scheduleReconnect_passive : n.Passive n.scheduleReconnect := by
  unfold scheduleReconnect
  split
  · exact .refl
  · exact .same rfl rfl rfl

theorem release_passive : n.Passive n.release := by
  unfold release
  split
  next e he =>
    have hclosing : Link.closing ≠ .up := by decide
    refine ⟨.inr ⟨rfl, fun e' he' => ?_⟩, fun _ _ _ _ h => h,
      (setLink_passive (n := n) e.client hclosing).listens⟩
    obtain rfl := Option.some.inj (he.symm.trans he')
    have hlistens := listens_setLink (n := n) e.client e.client hclosing
    rwa [decide_eq_false (not_not.mpr rfl), Bool.false_and] at hlistens
  · exact .refl

theorem finishShutdown_passive : n.Passive n.finishShutdown := by
  have released := release_passive (n := n)
  unfold finishShutdown
  split
  · exact released.trans (.same rfl rfl rfl)
  · exact .same rfl rfl rfl

theorem settle_none_passive : n.Passive (n.settle none) := by
  have resumed : n.Passive { n.scheduleReconnect with
      switching := none
      tasks := fun i => (n.tasks i).map (Task.resume none) } :=
    ⟨scheduleReconnect_passive.active, fun _ _ _ _ h => (by cases h),
      scheduleReconnect_passive.listens⟩
  unfold settle
  dsimp only
  split
  · exact resumed.trans finishShutdown_passive
  · exact resumed

theorem connectInOrder_passive (failed : Option ℕ) (order : List EndpointName) :
    n.Passive (n.connectInOrder failed order) := by
  unfold connectInOrder
  split
  · exact settle_none_passive
  · split
    · exact settle_none_passive
    · refine ⟨.inl rfl, fun _ _ _ _ h => (by cases h), fun client hl => ?_⟩
      by_cases hc : client = n.nextClient
      · subst hc
        simp [listens] at hl
      · simpa [listens, hc] using hl

theorem connection_passive (i : ℕ) (round : Round) : n.Passive (n.connection i round) := by
  unfold connection
  split
  · exact .same rfl rfl rfl
  · dsimp only
    have waiting : n.Passive (n.setStage i (.waiting round)) := .same rfl rfl rfl
    split
    · exact waiting
    · have marked : n.Passive ((n.setStage i (.waiting round)).mark (.attempted i)) :=
        .same rfl rfl rfl
      exact marked.trans (connectInOrder_passive _ _)

theorem failover_passive (i failed : ℕ) (round : Round) :
    n.Passive (n.failover i failed round) := by
  unfold failover
  split
  · exact .same rfl rfl rfl
  · split
    · split
      · have waiting : n.Passive ((n.setStage i (.waiting round)).mark (.left failed i)) :=
          .same rfl rfl rfl
        exact (waiting.trans release_passive).retarget _ fun _ _ _ h => by cases h
      · exact connection_passive i round
    · exact connection_passive i round

theorem start_passive (call : ConnectionCall) : n.Passive (n.start call) := by
  have added : n.Passive (n.addTask call) := .same rfl rfl rfl
  unfold start
  cases call with
  | request _ | ensureConnected | reconnect =>
    exact added.trans (connection_passive n.nextTask .first)
  | switchEndpoint =>
    dsimp only
    split
    · exact added.trans (failover_passive n.nextTask _ .first)
    · exact added.trans (connection_passive n.nextTask .first)
  | connectionLost client => exact added.trans (failover_passive n.nextTask client .first)

theorem drop_passive (w : Switch) (client : ℕ) (rest : List EndpointName) :
    n.Passive (n.drop w client rest) :=
  (setLink_passive client (by decide)).retarget _ fun _ _ _ h => by cases h

theorem finishRelease_passive (client : ℕ) : n.Passive (n.finishRelease client) := by
  have given : n.Passive (n.giveUp client) := .same rfl rfl rfl
  unfold finishRelease
  dsimp only
  split
  · exact given.trans (.same rfl rfl rfl)
  · exact given.trans scheduleReconnect_passive

theorem disconnected_passive (client : ℕ) : n.Passive (n.disconnected client) := by
  have closed : n.Passive (n.setLink client .closed) := setLink_passive client (by decide)
  have others := closed.trans (finishRelease_passive client)
  unfold disconnected
  dsimp only
  split
  · split
    · split
      next alternate _ _ =>
        have preferred : (n.setLink client .closed).Passive
            { n.setLink client .closed with preferred := alternate } := .same rfl rfl rfl
        exact (closed.trans preferred).trans (connectInOrder_passive _ _)
      · exact others
    · split
      · exact closed.trans (connectInOrder_passive _ _)
      · exact others
    · exact others
  · exact others

/-- **Who becomes active.** An event lets a switch ask its first question, is an answer that the
bootstrap accepts, or changes nothing but that a client is left. -/
theorem step_passive {networkId : ℕ} {e : Event} (hstep : n.step networkId e = some n') :
    n.Passive n' ∨
    (∃ failed client rest, e = .connected ∧ n.switching = some ⟨failed, .connecting client rest⟩ ∧
      n' = { n.setClient client fun c => { c with link := .up, wasConnected := true } with
        switching := some ⟨failed, .asking client .serverInfo rest⟩ }) ∨
    ∃ failed client command rest answer, e = .answered answer ∧
      n.switching = some ⟨failed, .asking client command rest⟩ ∧
      answer.any (accepts networkId command) = true ∧
      n' = n.pass ⟨failed, .asking client command rest⟩ client command rest := by
  cases e with
  | request | switchEndpoint | ensureConnected =>
    obtain rfl := Option.some.inj hstep
    exact .inl (start_passive _)
  | transmit i | throw i =>
    simp only [Net.step] at hstep
    split at hstep <;> cases hstep
    exact .inl (.same rfl rfl rfl)
  | reply i r =>
    simp only [Net.step] at hstep
    split at hstep
    · split at hstep <;> cases hstep
      exact .inl (.same rfl rfl rfl)
    · cases hstep
  | fault i =>
    simp only [Net.step] at hstep
    split at hstep
    next q client round hi =>
      have marked : n.Passive (n.mark (.failed i client)) := .same rfl rfl rfl
      cases round with
      | first =>
        obtain rfl := Option.some.inj hstep
        exact .inl (marked.trans (failover_passive i client _))
      | second c =>
        dsimp only at hstep
        split at hstep <;> cases hstep
        · have staged : n.Passive ((n.mark (.failed i client)).setStage i (.releasing client)) :=
            .same rfl rfl rfl
          exact .inl (staged.trans release_passive)
        · exact .inl (marked.trans (.same rfl rfl rfl))
    · cases hstep
  | connected =>
    simp only [Net.step] at hstep
    split at hstep <;> cases hstep
    next failed client rest hw => exact .inr (.inl ⟨failed, client, rest, rfl, hw, rfl⟩)
  | refused =>
    simp only [Net.step] at hstep
    split at hstep <;> cases hstep
    exact .inl (drop_passive _ _ _)
  | answered answer =>
    simp only [Net.step] at hstep
    split at hstep
    next failed client command rest hw =>
      split at hstep <;> cases hstep
      next ha => exact .inr (.inr ⟨failed, client, command, rest, answer, rfl, hw, ha, rfl⟩)
      · exact .inl (drop_passive _ _ _)
    · cases hstep
  | disconnected client =>
    simp only [Net.step] at hstep
    split at hstep <;> cases hstep
    exact .inl (disconnected_passive client)
  | lost client =>
    have down : n.Passive (n.setLink client .down) := setLink_passive client (by decide)
    simp only [Net.step] at hstep
    split at hstep
    · split at hstep <;> cases hstep
      · exact .inl (down.trans (start_passive _))
      · exact .inl down
    · cases hstep
  | timer =>
    have fired : n.Passive n.fire := .same rfl rfl rfl
    simp only [Net.step] at hstep
    split at hstep <;> cases hstep
    exact .inl (fired.trans (start_passive _))
  | shutdown =>
    have destroyed : n.Passive n.destroy := .same rfl rfl rfl
    simp only [Net.step] at hstep
    split at hstep
    · cases hstep
    · split at hstep <;> cases hstep
      · exact .inl (destroyed.trans (.same rfl rfl rfl))
      · exact .inl (destroyed.trans finishShutdown_passive)

theorem settle_some_passive (e : ActiveEndpoint) :
    Passive { n with active := some e, switching := none } (n.settle (some e)) := by
  have resumed : Passive { n with active := some e, switching := none } { n with
      active := some e
      preferred := e.name
      reconnectAttempt := 0
      switching := none
      tasks := fun i => (n.tasks i).map (Task.resume (some e.client)) } := .same rfl rfl rfl
  unfold settle
  dsimp only
  split
  · exact resumed.trans finishShutdown_passive
  · exact resumed

/-- Only the active client is listened to. -/
def Attentive (n : Net) : Prop :=
  ∀ client, n.listens client = true → n.active.map (·.client) = some client

theorem Passive.attentive (h : n.Passive n') (hn : n.Attentive) : n'.Attentive := by
  intro client hl
  obtain ⟨e, he, rfl⟩ := Option.map_eq_some_iff.mp (hn client (h.listens client hl))
  obtain hsame | ⟨-, hleft⟩ := h.active
  · rw [hsame, he, Option.map_some]
  · cases hl.symm.trans (hleft e he)

/-- Another link, or another answer: the client is listened to only if its bootstrap is complete. -/
theorem listens_setClient {client : ℕ} {f : LedgerClient → LedgerClient} {d : ℕ}
    (hl : (n.setClient client f).listens d = true) :
    d = client ∧ (∃ c, n.clients client = some c ∧ (f c).passed = bootstrapCommands) ∨
      n.listens d = true := by
  by_cases hd : d = client
  · subst hd
    cases hc : n.clients d with
    | none => simp [listens, setClient, hc] at hl
    | some c => exact .inl ⟨rfl, c, rfl, by simp [listens, setClient, hc] at hl; exact hl.2⟩
  · refine .inr ?_
    simpa [listens, setClient, hd] using hl

/-- The client is at the beginning of its bootstrap. -/
theorem AtPhase.passed {client : ℕ} {c : LedgerClient}
    {p : EndpointName × Bool × List BootstrapCommand} (hp : n.profile client = some p)
    (hc : n.clients client = some c) : c.passed = p.2.2 := by
  rw [profile, hc, Option.map_some, Option.some.injEq] at hp
  rw [← hp]

theorem connected_attentive (hs : n.Served) (h : n.Attentive) {failed : Option ℕ} {client : ℕ}
    {rest : List EndpointName} (hw : n.switching = some ⟨failed, .connecting client rest⟩)
    {switching : Option Switch} :
    { n.setClient client fun c => { c with link := .up, wasConnected := true } with
      switching }.Attentive := by
  intro d hl
  obtain ⟨rfl, c, hc, hpassed⟩ | hl := listens_setClient (n := n) hl
  · obtain ⟨-, name, hp⟩ := hs.switching _ hw
    cases (AtPhase.passed hp hc).symm.trans hpassed
  · exact h d hl

/-- **An accepted answer**: the bootstrap goes on, or its client is the one that is listened to. -/
theorem pass_attentive (hs : n.Served) (h : n.Attentive) {failed : Option ℕ} {client : ℕ}
    {command : BootstrapCommand} {rest : List EndpointName}
    (hw : n.switching = some ⟨failed, .asking client command rest⟩) :
    (n.pass ⟨failed, .asking client command rest⟩ client command rest).Attentive := by
  obtain ⟨hnone, name, hp⟩ := hs.switching _ hw
  have silent (d : ℕ) : n.listens d = false := Bool.eq_false_iff.mpr fun hl => by
    cases hnone ▸ h d hl
  have passed (d : ℕ)
      (hl : (n.setClient client fun c => { c with passed := c.passed ++ [command] }).listens d) :
      d = client ∧ command.earlier ++ [command] = bootstrapCommands := by
    obtain ⟨rfl, c, hc, hpassed⟩ | hl := listens_setClient hl
    · exact ⟨rfl, (congrArg (· ++ [command]) (AtPhase.passed hp hc)).symm.trans hpassed⟩
    · cases (silent d).symm.trans hl
  cases command with
  | serverInfo | serverDefinitions =>
    intro d hl
    cases (passed d hl).2
  | subscribe =>
    obtain ⟨c, hc, -⟩ := Option.map_eq_some_iff.mp hp
    unfold pass
    simp only [hc, Option.map_some]
    refine (settle_some_passive _).attentive fun d hl => ?_
    exact congrArg some (passed d hl).1.symm

end Net

namespace Stream

variable {networkId : ℕ} {s s' : Stream} {e : Event}

/-- **What an event leaves**: an accepted answer, or only what it does to the manager. -/
theorem step_event (h : s.step networkId (.event e) = some s') :
    (∃ failed client command rest answer, e = .answered answer ∧
      s.net.switching = some ⟨failed, .asking client command rest⟩ ∧
      answer.any (accepts networkId command) = true ∧ s' = { s.accept client command answer with
        net := s.net.pass ⟨failed, .asking client command rest⟩ client command rest }) ∨
    (s' = { s with net := s'.net } ∧ (s.net.Passive s'.net ∨
      ∃ failed client rest, s.net.switching = some ⟨failed, .connecting client rest⟩ ∧
        s'.net = { s.net.setClient client fun c => { c with link := .up, wasConnected := true } with
          switching := some ⟨failed, .asking client .serverInfo rest⟩ })) := by
  obtain ⟨net, hnet, rfl⟩ := Option.map_eq_some_iff.mp h
  by_cases hacc : ∃ failed client command rest answer, e = .answered answer ∧
      s.net.switching = some ⟨failed, .asking client command rest⟩ ∧
      answer.any (accepts networkId command) = true
  · obtain ⟨failed, client, command, rest, answer, rfl, hw, ha⟩ := hacc
    refine .inl ⟨failed, client, command, rest, answer, rfl, hw, ha, ?_⟩
    simp only [Net.step, hw, ha, if_true] at hnet
    simp only [remember, hw, ha, if_true, Option.some.inj hnet]
  · have hsame : s.remember networkId e = s := by
      unfold remember
      split
      next answer =>
        split
        next failed client command rest hw =>
          exact if_neg fun ha => hacc ⟨failed, client, command, rest, answer, rfl, hw, ha⟩
        · rfl
      · rfl
    rw [hsame]
    refine .inr ⟨rfl, ?_⟩
    obtain hp | ⟨failed, client, rest, -, hw, hn⟩ |
        ⟨failed, client, command, rest, answer, he, hw, ha, -⟩ := Net.step_passive hnet
    · exact .inl hp
    · exact .inr ⟨failed, client, rest, hw, hn⟩
    · exact absurd ⟨failed, client, command, rest, answer, he, hw, ha⟩ hacc

/-- The ledgers that the stream of the client reported. -/
def ledgersOf (s : Stream) (client : ℕ) : List ℕ :=
  (s.reported.filter fun p => p.1 = client).map (·.2)

/-- The endpoint said so in its `server_info`, and was accepted for it. -/
def Accepted (networkId : ℕ) (info : Option ServerInfo) : Prop :=
  ∃ i, info = some i ∧ checkServerInfo networkId i = none

/-- It is what the client answered to `server_info`. -/
def SaidBy (said : List (ℕ × Record)) (client : ℕ) (info : Option ServerInfo) : Prop :=
  ∃ result, (client, result) ∈ said ∧ info = (parseServerInfo result).toOption

/-- What the manager remembers is of the client that it is on. -/
structure Current (networkId : ℕ) (s : Stream) : Prop where
  served : s.net.Served
  attentive : s.net.Attentive
  asked : ∀ failed client command rest,
    s.net.switching = some ⟨failed, .asking client command rest⟩ → command ≠ .serverInfo →
      Accepted networkId s.info ∧ SaidBy s.said client s.info
  reported : ∀ p ∈ s.reported, s.net.Bootstrapped p.1
  notified : s.notified = s.reported.map (·.2)
  endpoint : ∀ e, s.net.active = some e →
    Accepted networkId s.endpoint ∧ SaidBy s.said e.client s.endpoint
  latest : ∀ e, s.net.active = some e → ∃ info ledger, s.endpoint = some info ∧
    info.validatedLedger = some ledger ∧
    s.latestValidatedLedger = some ((s.ledgersOf e.client).foldl max ledger.index)

theorem highest_eq (latest ledgerIndex : ℕ) :
    (if latest < ledgerIndex then some ledgerIndex else some latest) =
      some (max latest ledgerIndex) := by
  split
  next h => rw [max_eq_right h.le]
  next h => rw [max_eq_left (Nat.le_of_not_lt h)]

/-- A ledger in the stream of the active client. -/
theorem Current.ledgerClosed (h : s.Current networkId) {client ledgerIndex : ℕ}
    (hs : s.step networkId (.ledgerClosed client ledgerIndex) = some s') :
    s'.Current networkId := by
  obtain ⟨hl, hs⟩ := Option.ite_none_right_eq_some.mp hs
  obtain ⟨e, he, rfl⟩ := Option.map_eq_some_iff.mp (h.attentive client hl)
  obtain rfl := Option.some.inj hs
  have hactive : ¬(s.net.active.map (·.client) ≠ some e.client) := by rw [he]; simp
  unfold handleValidatedLedger
  simp only [if_neg hactive]
  refine { h with reported := ?_, notified := ?_, latest := ?_ }
  · intro p hp
    obtain hp | hp := List.mem_append.mp hp
    · exact h.reported p hp
    · rw [List.mem_singleton.mp hp]
      exact ⟨_, h.served.active e he⟩
  · simp [h.notified]
  · intro e' he'
    obtain rfl : e = e' := Option.some.inj (he.symm.trans he')
    obtain ⟨info, ledger, hinfo, hledger, hlatest⟩ := h.latest e he
    refine ⟨info, ledger, hinfo, hledger, ?_⟩
    simp only [hlatest, highest_eq]
    simp [ledgersOf]

/-- The manager does something that leaves no other client active. -/
theorem Current.passive (h : s.Current networkId) {net : Net} (hserved : s.net.Advance net)
    (hp : s.net.Passive net) : Current networkId { s with net } where
  served := hserved.served
  attentive := hp.attentive h.attentive
  asked failed client command rest hw := h.asked failed client command rest (hp.asking _ _ _ _ hw)
  reported p hm := hserved.keeps.bootstrapped (h.reported p hm)
  notified := h.notified
  endpoint e he := by
    obtain hsame | ⟨hnone, -⟩ := hp.active
    · exact h.endpoint e (hsame ▸ he)
    · cases hnone.symm.trans he
  latest e he := by
    obtain hsame | ⟨hnone, -⟩ := hp.active
    · exact h.latest e (hsame ▸ he)
    · cases hnone.symm.trans he

/-- A client is connected: it is asked for its `server_info`. -/
theorem Current.connected (h : s.Current networkId) {failed : Option ℕ} {client : ℕ}
    {rest : List EndpointName} (hw : s.net.switching = some ⟨failed, .connecting client rest⟩)
    {net : Net} (hserved : s.net.Advance net)
    (hnet : net =
      { s.net.setClient client fun c => { c with link := .up, wasConnected := true } with
        switching := some ⟨failed, .asking client .serverInfo rest⟩ }) :
    Current networkId { s with net } := by
  subst hnet
  exact {
    served := hserved.served
    attentive := Net.connected_attentive h.served h.attentive hw
    asked := fun failed client command rest hw' hne => by
      cases hw'
      exact absurd rfl hne
    reported := fun p hm => hserved.keeps.bootstrapped (h.reported p hm)
    notified := h.notified
    endpoint := h.endpoint
    latest := h.latest }

theorem accept_info {result : Record} (ha : accepts networkId .serverInfo (.ok result) = true) :
    Accepted networkId (parseServerInfo result).toOption := by
  unfold accepts at ha
  cases hi : parseServerInfo result with
  | error => simp [hi] at ha
  | ok info => exact ⟨info, rfl, by simpa [hi] using ha⟩

/-- An accepted endpoint has a validated ledger. -/
theorem Accepted.ledger {info : Option ServerInfo} (h : Accepted networkId info) :
    ∃ i ledger, info = some i ∧ i.validatedLedger = some ledger := by
  obtain ⟨i, rfl, hi⟩ := h
  unfold checkServerInfo at hi
  split_ifs at hi
  cases hledger : i.validatedLedger with
  | none => simp [hledger] at hi
  | some ledger => exact ⟨i, ledger, rfl, hledger⟩

/-- **An answer that the bootstrap accepts.** -/
theorem Current.accepted (h : s.Current networkId) {failed : Option ℕ} {client : ℕ}
    {command : BootstrapCommand} {rest : List EndpointName} {answer : Option LedgerResponse}
    (hw : s.net.switching = some ⟨failed, .asking client command rest⟩)
    (ha : answer.any (accepts networkId command) = true) {net : Net}
    (hnet : net = s.net.pass ⟨failed, .asking client command rest⟩ client command rest)
    (hserved : s.net.Advance net) : Current networkId { s.accept client command answer with net } := by
  obtain ⟨hnone, name, hp⟩ := h.served.switching _ hw
  have attentive : net.Attentive := hnet ▸ Net.pass_attentive h.served h.attentive hw
  have reported (p : ℕ × ℕ) (hm : p ∈ s.reported) : net.Bootstrapped p.1 :=
    hserved.keeps.bootstrapped (h.reported p hm)
  obtain ⟨response, rfl, hresponse⟩ := (Option.any_eq_true _ _).mp ha
  cases command with
  | serverInfo =>
    cases response with
    | error => cases hresponse
    | ok result =>
      have hactive : net.active = none := hnet ▸ hnone
      exact {
        served := hserved.served
        attentive := attentive
        asked := fun _ _ _ _ hw' _ => by
          rw [hnet] at hw'
          cases hw'
          exact ⟨accept_info hresponse, result, by simp [accept], rfl⟩
        reported := reported
        notified := h.notified
        endpoint := fun e he => by cases hactive.symm.trans he
        latest := fun e he => by cases hactive.symm.trans he }
  | serverDefinitions =>
    have hactive : net.active = none := hnet ▸ hnone
    exact {
      served := hserved.served
      attentive := attentive
      asked := fun _ _ _ _ hw' _ => by
        rw [hnet] at hw'
        cases hw'
        exact h.asked _ _ _ _ hw (by decide)
      reported := reported
      notified := h.notified
      endpoint := fun e he => by cases hactive.symm.trans he
      latest := fun e he => by cases hactive.symm.trans he }
  | subscribe =>
    obtain ⟨hinfo, hsaid⟩ := h.asked _ _ _ _ hw (by decide)
    obtain ⟨c, hc, -⟩ := Option.map_eq_some_iff.mp hp
    have hsettle : net = (s.net.setClient client fun c =>
        { c with passed := c.passed ++ [.subscribe] }).settle (some ⟨c.name, client⟩) := by
      rw [hnet, Net.pass]
      simp only [hc, Option.map_some]
    have unheard : s.ledgersOf client = [] := by
      refine List.map_eq_nil_iff.mpr (List.filter_eq_nil_iff.mpr fun p hm heq => ?_)
      obtain ⟨name', hserves⟩ := h.reported p hm
      rw [of_decide_eq_true heq, Net.Serves, hp] at hserves
      cases hserves
    have ready (e : ActiveEndpoint) (he : net.active = some e) : e = ⟨c.name, client⟩ := by
      rw [hsettle] at he
      obtain he | ⟨he, -⟩ := Net.settle_active he
      · exact (Option.some.inj he).symm
      · cases he
    refine {
      served := hserved.served
      attentive := attentive
      asked := ?_
      reported := reported
      notified := h.notified
      endpoint := fun e he => ?_
      latest := fun e he => ?_ }
    · intro failed client command rest hw'
      change net.switching = _ at hw'
      rw [hsettle, (Net.settle_frame _).switching] at hw'
      cases hw'
    · obtain rfl := ready e he
      exact ⟨hinfo, hsaid⟩
    · obtain rfl := ready e he
      obtain ⟨info, ledger, hi, hledger⟩ := hinfo.ledger
      refine ⟨info, ledger, hi, hledger, ?_⟩
      change (s.info.bind (·.validatedLedger)).map (·.index) =
        some ((s.ledgersOf client).foldl max ledger.index)
      rw [unheard, hi, Option.bind_some, hledger]
      rfl

theorem Current.step {e : StreamEvent} (h : s.Current networkId)
    (hs : s.step networkId e = some s') : s'.Current networkId := by
  cases e with
  | ledgerClosed client ledgerIndex => exact h.ledgerClosed hs
  | event e =>
    obtain ⟨net, hnet, hs'⟩ := Option.map_eq_some_iff.mp hs
    have hserved : s.net.Advance s'.net := by
      rw [← hs']
      exact h.served.step hnet
    obtain ⟨failed, client, command, rest, answer, -, hw, ha, hs'⟩ |
      ⟨hs', hp | ⟨failed, client, rest, hw, hn⟩⟩ := step_event hs
    · rw [hs'] at hserved ⊢
      exact h.accepted hw ha rfl hserved
    · rw [hs']
      exact h.passive hserved hp
    · rw [hs']
      exact h.connected hw hserved hn

theorem current_init : Current networkId {} where
  served := Net.served_init
  attentive _ hl := by cases hl
  asked _ _ _ _ hw := by cases hw
  reported _ hp := by cases hp
  notified := rfl
  endpoint _ he := by cases he
  latest _ he := by cases he

end Stream

/-- **The invariant of every run.** -/
theorem stream_current {networkId : ℕ} {s : Stream}
    (h : (ledgerStream networkId).Reach Machine.anyEvent s) : s.Current networkId :=
  h.inv (fun _ hs => hs ▸ Stream.current_init) fun _ _ _ _ hs hstep _ => hs.step hstep

/-- The highest of the ledgers, starting with one. -/
theorem isGreatest_foldl_max (ledgers : List ℕ) (first : ℕ) :
    IsGreatest {i | i ∈ first :: ledgers} (ledgers.foldl max first) := by
  induction ledgers generalizing first with
  | nil => simp
  | cons ledger ledgers ih =>
    obtain ⟨hmem, hle⟩ := ih (max first ledger)
    refine ⟨?_, ?_⟩
    · obtain h | h := List.mem_cons.mp hmem
      · rw [List.foldl_cons, h]
        rcases le_total first ledger with h | h <;> simp [h]
      · exact List.mem_cons_of_mem _ (List.mem_cons_of_mem _ h)
    · have hmax : max first ledger ≤ ledgers.foldl max (max first ledger) :=
        hle List.mem_cons_self
      rintro i hi
      obtain rfl | hi := List.mem_cons.mp hi
      · exact (le_max_left _ _).trans hmax
      · obtain rfl | hi := List.mem_cons.mp hi
        · exact (le_max_right _ _).trans hmax
        · exact hle (List.mem_cons_of_mem _ hi)

/-- **The status is that of the endpoint in use.** In every run, with switches, lost connections and
ledgers of any client in any order: the service reports a connection exactly while it has an active
endpoint, whose client got through the whole bootstrap; it reports what this client answered to the
`server_info` of its bootstrap, which passed the check for the configured network; its validated
ledger is the highest of the one in that answer and those in the stream of this client, and of no
other. Only its stream is listened to, and the callbacks got every ledger of it. -/
theorem status_is_current (networkId : ℕ) (s : Stream)
    (h : (ledgerStream networkId).Reach Machine.anyEvent s) :
    ((s.status networkId).connected = false ↔ s.net.active = none) ∧
    (∀ e, s.net.active = some e → s.net.Serves e.client e.name ∧
      ∃ result info ledger highest, (e.client, result) ∈ s.said ∧
        parseServerInfo result = .ok info ∧ checkServerInfo networkId info = none ∧
        info.validatedLedger = some ledger ∧
        IsGreatest {i | i ∈ ledger.index :: s.ledgersOf e.client} highest ∧
        s.status networkId = ⟨true, some e.name, info.networkId, some info.buildVersion,
          some highest, true, true⟩) ∧
    (∀ client, s.net.listens client = true → s.net.active.map (·.client) = some client) ∧
    s.notified = s.reported.map (·.2) := by
  have current := stream_current h
  refine ⟨?_, fun e he => ⟨current.served.active e he, ?_⟩, current.attentive, current.notified⟩
  · cases hactive : s.net.active <;> simp [Stream.status, hactive]
  · obtain ⟨info, ledger, hinfo, hledger, hlatest⟩ := current.latest e he
    obtain ⟨⟨i, hi, hcheck⟩, result, hsaid, hparse⟩ := current.endpoint e he
    obtain rfl : info = i := Option.some.inj (hinfo.symm.trans hi)
    have hok : parseServerInfo result = .ok info := by
      rw [hinfo] at hparse
      cases hp : parseServerInfo result <;> simp_all [Except.toOption]
    refine ⟨result, info, ledger, _, hsaid, hok, hcheck, hledger, isGreatest_foldl_max _ _, ?_⟩
    have hnetwork : info.networkId = some networkId := by
      unfold checkServerInfo at hcheck
      split_ifs at hcheck with hne
      exact not_not.mp hne
    simp [Stream.status, he, hinfo, hlatest, hnetwork]

/-- A first ledger, and an older one after it. -/
theorem status_is_current_first : ∃ s, (ledgerStream 1).play {} ((Event.request .fee ::
      healthyAnswers).map .event ++ [.ledgerClosed 0 1005, .ledgerClosed 0 1003]) = some s ∧
    (s.status 1).validatedLedger = some 1005 ∧ s.notified = [1005, 1003] ∧
    s.net.Serves 0 .primary ∧ s.notified = s.reported.map (·.2) := by
  have reach : ∀ {s}, (ledgerStream 1).play {} ((Event.request .fee ::
      healthyAnswers).map .event ++ [.ledgerClosed 0 1005, .ledgerClosed 0 1003]) = some s →
      (ledgerStream 1).Reach Machine.anyEvent s := fun hp => .of_play rfl hp
  obtain ⟨-, hactive, -, hnotified⟩ := status_is_current 1 _ (reach rfl)
  exact ⟨_, rfl, rfl, rfl, (hactive ⟨.primary, 0⟩ rfl).1, hnotified⟩

end Orchestrator
