import Orchestrator.Connection.Manager

/-!
# What the manager knows of its clients

An invariant of every run: the active client, and each client that a call was given, has completed
the whole bootstrap; the client that is being bootstrapped has not.

* `Net.profile`, `Net.Serves`: what is fixed of a client once it serves;
* `Net.Served`, kept by `settle`, `connectInOrder`, `connection`, `failover`, `start`;
* **`Net.Served.step`**, **`served`**: kept by every event, true in every run.
-/

namespace Orchestrator

open Interleave

/-- The requests of the whole bootstrap. -/
def bootstrapCommands : List BootstrapCommand := [.serverInfo, .serverDefinitions, .subscribe]

/-- The requests of the bootstrap before this one. -/
def BootstrapCommand.earlier : BootstrapCommand → List BootstrapCommand
  | .serverInfo => []
  | .serverDefinitions => [.serverInfo]
  | .subscribe => [.serverInfo, .serverDefinitions]

/-- The client that failed the request, in the second round. -/
def Round.clients : Round → List ℕ
  | .first => []
  | .second failed => [failed]

theorem Round.first_clients {p : ℕ → Prop} : ∀ client ∈ Round.first.clients, p client :=
  fun _ hc => absurd hc List.not_mem_nil

/-- The clients that a call was given. -/
def Stage.clients : Stage → List ℕ
  | .waiting round => round.clients
  | .holding client round | .sent client round => client :: round.clients
  | .releasing client | .done (.response client _) => [client]
  | .done _ => []

namespace Net

/-- What is known of a client besides its link. -/
def profile (n : Net) (client : ℕ) : Option (EndpointName × Bool × List BootstrapCommand) :=
  (n.clients client).map fun c => (c.name, c.wasConnected, c.passed)

/-- The client was connected to the endpoint and completed the whole bootstrap. -/
def Serves (n : Net) (client : ℕ) (name : EndpointName) : Prop :=
  n.profile client = some (name, true, bootstrapCommands)

def Bootstrapped (n : Net) (client : ℕ) : Prop := ∃ name, n.Serves client name

/-- How far the tracked work has come with its client. -/
def AtPhase (n : Net) : Phase → Prop
  | .releasing client alternate => n.Serves client (otherEndpoint alternate)
  | .connecting client _ => ∃ name, n.profile client = some (name, false, [])
  | .asking client command _ => ∃ name, n.profile client = some (name, true, command.earlier)
  | .dropping client _ => ∃ p, n.profile client = some p ∧ p.2 ≠ (true, bootstrapCommands)

/-- Clients and calls are numbered, and the calls only know clients that serve. -/
structure Known (n : Net) : Prop where
  fresh : ∀ client, n.profile client ≠ none → client < n.nextClient
  numbered : ∀ i t, n.tasks i = some t → i < n.nextTask
  given : ∀ i t, n.tasks i = some t → ∀ client ∈ t.stage.clients, n.Bootstrapped client

/-- The invariant of the manager. -/
structure Served (n : Net) : Prop extends n.Known where
  active : ∀ e, n.active = some e → n.Serves e.client e.name
  switching : ∀ w, n.switching = some w → n.active = none ∧ n.AtPhase w.phase

/-- Both states have the same calls and trace, and know the same of the clients. -/
structure Frame (n n' : Net) : Prop where
  profile : n'.profile = n.profile
  nextClient : n'.nextClient = n.nextClient
  tasks : n'.tasks = n.tasks
  nextTask : n'.nextTask = n.nextTask
  switching : n'.switching = n.switching
  destroyed : n'.destroyed = n.destroyed
  trace : n'.trace = n.trace

/-- The clients that serve in one state serve in the other. -/
def Keeps (n n' : Net) : Prop := ∀ client name, n.Serves client name → n'.Serves client name

variable {n n' : Net}

/-! ## Parts of a step that leave the calls alone -/

theorem Frame.refl : n.Frame n := ⟨rfl, rfl, rfl, rfl, rfl, rfl, rfl⟩

theorem Frame.trans {n'' : Net} (h : n.Frame n') (h' : n'.Frame n'') : n.Frame n'' :=
  ⟨h'.profile.trans h.profile, h'.nextClient.trans h.nextClient, h'.tasks.trans h.tasks,
    h'.nextTask.trans h.nextTask, h'.switching.trans h.switching,
    h'.destroyed.trans h.destroyed, h'.trace.trans h.trace⟩

theorem profile_setClient_ne (client d : ℕ) (f : LedgerClient → LedgerClient) (h : d ≠ client) :
    (n.setClient client f).profile d = n.profile d := by
  simp [profile, setClient, Function.update_of_ne h]

@[simp] theorem profile_setLink (client : ℕ) (link : Link) :
    (n.setLink client link).profile = n.profile := by
  funext d
  by_cases h : d = client
  · subst h
    simp [profile, setLink, setClient, Option.map_map, Function.comp_def]
  · exact profile_setClient_ne _ _ _ h

theorem setLink_frame (client : ℕ) (link : Link) : n.Frame (n.setLink client link) :=
  ⟨profile_setLink _ _, rfl, rfl, rfl, rfl, rfl, rfl⟩

theorem scheduleReconnect_frame : n.Frame n.scheduleReconnect := by
  unfold scheduleReconnect
  split
  · exact .refl
  · exact ⟨rfl, rfl, rfl, rfl, rfl, rfl, rfl⟩

@[simp] theorem scheduleReconnect_active : n.scheduleReconnect.active = n.active := by
  unfold scheduleReconnect
  split <;> rfl

theorem release_frame : n.Frame n.release := by
  unfold release
  split
  · exact (setLink_frame _ _).trans ⟨rfl, rfl, rfl, rfl, rfl, rfl, rfl⟩
  · exact .refl

@[simp] theorem release_active : n.release.active = none := by
  unfold release
  split
  · rfl
  · assumption

theorem finishShutdown_frame : n.Frame n.finishShutdown := by
  unfold finishShutdown
  split
  · exact release_frame.trans ⟨rfl, rfl, rfl, rfl, rfl, rfl, rfl⟩
  · exact ⟨rfl, rfl, rfl, rfl, rfl, rfl, rfl⟩

@[simp] theorem finishShutdown_active : n.finishShutdown.active = none := by
  unfold finishShutdown
  split
  · exact release_active
  · assumption

/-- The end of the tracked work, for the calls. -/
theorem settle_frame (endpoint : Option ActiveEndpoint) :
    Frame { n with
      switching := none
      tasks := fun i => (n.tasks i).map (Task.resume (endpoint.map (·.client))) }
      (n.settle endpoint) := by
  have ended : ∀ m : Net, n.Frame m → Frame { n with
      switching := none
      tasks := fun i => (n.tasks i).map (Task.resume (endpoint.map (·.client))) } { m with
      switching := none
      tasks := fun i => (n.tasks i).map (Task.resume (endpoint.map (·.client))) } := fun m h =>
    ⟨h.profile, h.nextClient, rfl, h.nextTask, rfl, h.destroyed, h.trace⟩
  unfold settle
  cases endpoint with
  | none =>
    dsimp only
    split
    · exact (ended _ scheduleReconnect_frame).trans finishShutdown_frame
    · exact ended _ scheduleReconnect_frame
  | some e =>
    dsimp only
    split
    · exact (ended { n with active := some e, preferred := e.name, reconnectAttempt := 0 }
        ⟨rfl, rfl, rfl, rfl, rfl, rfl, rfl⟩).trans finishShutdown_frame
    · exact ended { n with active := some e, preferred := e.name, reconnectAttempt := 0 }
        ⟨rfl, rfl, rfl, rfl, rfl, rfl, rfl⟩

/-- Only the endpoint that the tracked work ended with can become active. -/
theorem settle_active {endpoint : Option ActiveEndpoint} {a : ActiveEndpoint}
    (h : (n.settle endpoint).active = some a) :
    endpoint = some a ∨ endpoint = none ∧ n.active = some a := by
  unfold settle at h
  dsimp only at h
  split at h
  · simp at h
  · cases endpoint with
    | none => exact .inr ⟨rfl, by simpa using h⟩
    | some e => exact .inl h

/-! ## What serves, goes on serving -/

theorem Keeps.refl : n.Keeps n := fun _ _ h => h

theorem Keeps.trans {n'' : Net} (h : n.Keeps n') (h' : n'.Keeps n'') : n.Keeps n'' :=
  fun _ _ hs => h' _ _ (h _ _ hs)

theorem Keeps.of_profile (h : n'.profile = n.profile) : n.Keeps n' := fun _ _ hs => by
  rwa [Serves, h]

theorem Keeps.bootstrapped (h : n.Keeps n') {client : ℕ} :
    n.Bootstrapped client → n'.Bootstrapped client := fun ⟨name, hs⟩ => ⟨name, h _ _ hs⟩

theorem Frame.keeps (h : n.Frame n') : n.Keeps n' := .of_profile h.profile

theorem Serves.ne {client d : ℕ} {name : EndpointName} (h : n.Serves client name)
    (hd : ¬ n.Bootstrapped d) : client ≠ d := fun he => hd ⟨name, he ▸ h⟩

/-- The client of the tracked work does not serve before its bootstrap is complete. -/
theorem AtPhase.connecting {client : ℕ} {rest : List EndpointName}
    (h : n.AtPhase (.connecting client rest)) : ¬ n.Bootstrapped client := by
  rintro ⟨name, hs⟩
  obtain ⟨_, h⟩ := h
  rw [Serves, h] at hs
  simp at hs

theorem AtPhase.asking {client : ℕ} {command : BootstrapCommand} {rest : List EndpointName}
    (h : n.AtPhase (.asking client command rest)) : ¬ n.Bootstrapped client := by
  rintro ⟨name, hs⟩
  obtain ⟨_, h⟩ := h
  rw [Serves, h] at hs
  cases command <;> simp [BootstrapCommand.earlier, bootstrapCommands] at hs

theorem keeps_setClient {client : ℕ} {f : LedgerClient → LedgerClient}
    (h : ¬ n.Bootstrapped client) : n.Keeps (n.setClient client f) := fun d name hs => by
  rwa [Serves, profile_setClient_ne _ _ _ (hs.ne h)]

theorem AtPhase.of_profile {p : Phase} (h : n.AtPhase p) (hp : n'.profile = n.profile) :
    n'.AtPhase p := by
  cases p <;> simpa only [AtPhase, Serves, hp] using h

/-! ## Known clients -/

theorem Known.fresh' (h : n.Known) : ¬ n.Bootstrapped n.nextClient := fun ⟨_, hs⟩ =>
  absurd (h.fresh n.nextClient (by rw [hs]; simp)) (Nat.lt_irrefl _)

/-- The calls move on, and what is known of the clients stays. -/
theorem Known.of_tasks (h : n.Known) (hp : n'.profile = n.profile)
    (hc : n'.nextClient = n.nextClient) (hn : n'.nextTask = n.nextTask)
    (ht : ∀ i t', n'.tasks i = some t' → ∃ t, n.tasks i = some t ∧
      ∀ client ∈ t'.stage.clients, client ∈ t.stage.clients ∨ n.Bootstrapped client) :
    n'.Known where
  fresh := by rw [hp, hc]; exact h.fresh
  numbered i t' hi := by
    obtain ⟨t, hi', -⟩ := ht i t' hi
    exact hn ▸ h.numbered i t hi'
  given i t' hi client hc := by
    obtain ⟨t, hi', hs⟩ := ht i t' hi
    exact (Keeps.of_profile hp).bootstrapped ((hs client hc).elim (h.given i t hi' client) id)

theorem Known.same (h : n.Known) (hp : n'.profile = n.profile) (hc : n'.nextClient = n.nextClient)
    (ht : n'.tasks = n.tasks) (hn : n'.nextTask = n.nextTask) : n'.Known :=
  h.of_tasks hp hc hn fun _ t' hi => ⟨t', ht ▸ hi, fun _ hc => .inl hc⟩

theorem Known.of_frame (h : n.Known) (hf : n.Frame n') : n'.Known :=
  h.same hf.profile hf.nextClient hf.tasks hf.nextTask

/-- What was done to one call. -/
theorem tasks_update {i j : ℕ} {f : Task → Task} {t' : Task}
    (h : Function.update n.tasks i ((n.tasks i).map f) j = some t') :
    j ≠ i ∧ n.tasks j = some t' ∨ j = i ∧ ∃ t, n.tasks i = some t ∧ t' = f t := by
  by_cases hij : j = i
  · subst hij
    obtain ⟨t, ht, rfl⟩ := by simpa using h
    exact .inr ⟨rfl, t, ht, rfl⟩
  · exact .inl ⟨hij, by simpa [Function.update_of_ne hij] using h⟩

/-- A call comes to another stage. -/
theorem Known.setStage (h : n.Known) (i : ℕ) {stage : Stage}
    (hs : ∀ client ∈ stage.clients, n.Bootstrapped client) : (n.setStage i stage).Known :=
  h.of_tasks rfl rfl rfl fun j t' hj => by
    obtain ⟨-, hj⟩ | ⟨rfl, t, ht, rfl⟩ := tasks_update hj
    · exact ⟨t', hj, fun _ hc => .inl hc⟩
    · exact ⟨t, ht, fun client hc => .inr (hs client hc)⟩

theorem addTask_tasks {call : ConnectionCall} {i : ℕ} {t : Task}
    (h : (n.addTask call).tasks i = some t) :
    i = n.nextTask ∧ t = ⟨call, .waiting .first⟩ ∨ i ≠ n.nextTask ∧ n.tasks i = some t := by
  by_cases hn : i = n.nextTask
  · subst hn
    exact .inl ⟨rfl, by simpa [Net.addTask] using h.symm⟩
  · exact .inr ⟨hn, by simpa [Net.addTask, Function.update_of_ne hn] using h⟩

/-- What was done to one client. -/
theorem Known.setClient (h : n.Known) {client : ℕ} {f : LedgerClient → LedgerClient}
    (hb : ¬ n.Bootstrapped client) : (n.setClient client f).Known where
  fresh d hd := h.fresh d fun hn => hd (by
    rw [profile, Option.map_eq_none_iff] at hn
    by_cases hc : d = client
    · subst hc
      simp [profile, Net.setClient, hn]
    · rwa [profile_setClient_ne _ _ _ hc, profile, Option.map_eq_none_iff])
  numbered := h.numbered
  given i t hi d hd := (keeps_setClient hb).bootstrapped (h.given i t hi d hd)

/-- A new call. -/
theorem Known.addTask (h : n.Known) (call : ConnectionCall) : (n.addTask call).Known where
  fresh := h.fresh
  numbered i t hi := by
    obtain ⟨rfl, -⟩ | ⟨-, hi⟩ := addTask_tasks hi
    · exact Nat.lt_succ_self _
    · exact Nat.lt_succ_of_lt (h.numbered i t hi)
  given i t hi := by
    obtain ⟨-, rfl⟩ | ⟨-, hi⟩ := addTask_tasks hi
    · simp [Stage.clients, Round.clients]
    · exact h.given i t hi

end Net

theorem Task.obtain_clients {round : Round} {client d : ℕ} {t : Task}
    (h : d ∈ (t.obtain round client).stage.clients) : d = client ∨ d ∈ round.clients := by
  unfold Task.obtain at h
  split at h
  · exact List.mem_cons.mp h
  · simp [Stage.clients] at h

theorem Task.resume_clients {result : Option ℕ} {d : ℕ} {t : Task}
    (h : d ∈ (t.resume result).stage.clients) : d ∈ result ∨ d ∈ t.stage.clients := by
  unfold Task.resume at h
  split at h
  next round hs =>
    split at h
    · obtain rfl | h := Task.obtain_clients h
      · exact .inl rfl
      · exact .inr (by rwa [hs])
    · simp [Stage.clients] at h
  next => exact .inr h

@[simp] theorem otherEndpoint_otherEndpoint (name : EndpointName) :
    otherEndpoint (otherEndpoint name) = name := by
  cases name <;> rfl

namespace Net

variable {n n' : Net}

/-! ## The methods keep the invariant -/

/-- The invariant holds afterwards, and no client that served is lost. -/
structure Advance (n n' : Net) : Prop where
  served : n'.Served
  keeps : n.Keeps n'

/-- Before that, only the calls and the trace changed. -/
theorem Advance.after {n'' : Net} (h : n'.Advance n'') (hp : n'.profile = n.profile) :
    n.Advance n'' :=
  ⟨h.served, (Keeps.of_profile hp).trans h.keeps⟩

theorem settle_advance (h : n.Known) {endpoint : Option ActiveEndpoint}
    (hn : endpoint = none → n.active = none)
    (he : ∀ e, endpoint = some e → n.Serves e.client e.name) : n.Advance (n.settle endpoint) := by
  have frame := settle_frame (n := n) endpoint
  have keeps : n.Keeps (n.settle endpoint) := .of_profile frame.profile
  refine ⟨⟨?_, fun a ha => ?_, fun w hw => ?_⟩, keeps⟩
  · refine h.of_tasks frame.profile frame.nextClient frame.nextTask fun i t' hi => ?_
    rw [frame.tasks] at hi
    obtain ⟨t, ht, rfl⟩ := Option.map_eq_some_iff.mp hi
    refine ⟨t, ht, fun client hc => ?_⟩
    obtain hc | hc := Task.resume_clients hc
    · obtain ⟨e, rfl, rfl⟩ := Option.map_eq_some_iff.mp hc
      exact .inr ⟨_, he e rfl⟩
    · exact .inl hc
  · obtain rfl | ⟨rfl, hold⟩ := settle_active ha
    · exact keeps _ _ (he a rfl)
    · rw [hn rfl] at hold
      cases hold
  · rw [frame.switching] at hw
    cases hw

theorem connectInOrder_advance (h : n.Known) (ha : n.active = none) (failed : Option ℕ)
    (order : List EndpointName) : n.Advance (n.connectInOrder failed order) := by
  have settled : n.Advance (n.settle none) := settle_advance h (fun _ => ha) (fun _ he => by cases he)
  unfold connectInOrder
  split
  · exact settled
  next name rest =>
    split
    · exact settled
    · set m : Net := { n with
        clients := Function.update n.clients n.nextClient (some ⟨name, .connecting, false, []⟩)
        nextClient := n.nextClient + 1
        switching := some ⟨failed, .connecting n.nextClient rest⟩ } with hm
      have profile_ne : ∀ d, d ≠ n.nextClient → m.profile d = n.profile d := fun d hd => by
        simp [Net.profile, hm, Function.update_of_ne hd]
      have profile_new : m.profile n.nextClient = some (name, false, []) := by
        simp [Net.profile, hm]
      have keeps : n.Keeps m := fun d name hs => by
        rwa [Serves, profile_ne d (hs.ne h.fresh')]
      refine ⟨⟨⟨fun d hd => ?_, h.numbered, fun i t hi c hc => ?_⟩, fun e he => ?_, fun w hw => ?_⟩,
        keeps⟩
      · by_cases hn : d = n.nextClient
        · exact hn ▸ Nat.lt_succ_self _
        · exact Nat.lt_succ_of_lt (h.fresh d (profile_ne d hn ▸ hd))
      · exact keeps.bootstrapped (h.given i t hi c hc)
      · rw [show m.active = none from ha] at he
        cases he
      · obtain rfl := Option.some.inj hw
        exact ⟨ha, name, profile_new⟩

theorem connection_advance (h : n.Served) (i : ℕ) {round : Round}
    (hr : ∀ client ∈ round.clients, n.Bootstrapped client) : n.Advance (n.connection i round) := by
  unfold connection
  split
  next e he =>
    refine ⟨⟨h.toKnown.of_tasks rfl rfl rfl fun j t' hj => ?_, h.active, h.switching⟩, .refl⟩
    obtain ⟨-, hj⟩ | ⟨rfl, t, ht, rfl⟩ := tasks_update hj
    · exact ⟨t', hj, fun _ hc => .inl hc⟩
    · refine ⟨t, ht, fun client hc => .inr ?_⟩
      obtain rfl | hc := Task.obtain_clients hc
      · exact ⟨_, h.active e he⟩
      · exact hr client hc
  next ha =>
    have waiting : (n.setStage i (.waiting round)).Known := h.toKnown.setStage i hr
    dsimp only
    split
    · exact ⟨⟨waiting, h.active, h.switching⟩, .refl⟩
    · have attempted : ((n.setStage i (.waiting round)).mark (.attempted i)).Known :=
        waiting.same rfl rfl rfl rfl
      exact (connectInOrder_advance attempted ha _ _).after rfl

theorem failover_advance (h : n.Served) (i : ℕ) {failed : ℕ} {round : Round}
    (hr : ∀ client ∈ round.clients, n.Bootstrapped client) :
    n.Advance (n.failover i failed round) := by
  have waiting : (n.setStage i (.waiting round)).Known := h.toKnown.setStage i hr
  unfold failover
  split
  · exact ⟨⟨waiting, h.active, h.switching⟩, .refl⟩
  · split
    next e he =>
      split
      next hf =>
        subst hf
        set m : Net := (n.setStage i (.waiting round)).mark (.left e.client i) with hm
        have frame : m.Frame m.release := release_frame
        refine ⟨⟨waiting.same frame.profile frame.nextClient frame.tasks frame.nextTask,
            fun a ha => ?_, fun w hw => ?_⟩,
          .of_profile frame.profile⟩
        · rw [show m.release.active = none from release_active] at ha
          cases ha
        · obtain rfl := Option.some.inj hw
          refine ⟨release_active, ?_⟩
          show m.release.profile e.client = _
          rw [frame.profile, otherEndpoint_otherEndpoint]
          exact h.active e he
      · exact connection_advance h i hr
    · exact connection_advance h i hr

theorem start_advance (h : n.Served) (call : ConnectionCall) : n.Advance (n.start call) := by
  have added : (n.addTask call).Served := ⟨h.toKnown.addTask call, h.active, h.switching⟩
  unfold start
  cases call with
  | request _ | ensureConnected | reconnect =>
    exact (connection_advance added _ Round.first_clients).after rfl
  | switchEndpoint =>
    dsimp only
    split
    · exact (failover_advance added _ Round.first_clients).after rfl
    · exact (connection_advance added _ Round.first_clients).after rfl
  | connectionLost client => exact (failover_advance added _ Round.first_clients).after rfl

/-- The bootstrap of a client that does not serve has failed. -/
theorem drop_advance (h : n.Served) {w : Switch} {client : ℕ} {rest : List EndpointName}
    (ha : n.active = none) (hc : n.profile client ≠ none) (hb : ¬ n.Bootstrapped client) :
    n.Advance (n.drop w client rest) := by
  obtain ⟨p, hp⟩ := Option.ne_none_iff_exists'.mp hc
  have frame : n.Frame (n.setLink client .closing) := setLink_frame _ _
  refine ⟨⟨h.toKnown.same frame.profile rfl rfl rfl,
    fun e he => ?_, fun w' hw => ?_⟩, .of_profile frame.profile⟩
  · rw [show (n.drop w client rest).active = none from ha] at he
    cases he
  · obtain rfl := Option.some.inj hw
    refine ⟨ha, p, ?_, fun hpb => hb ⟨p.1, ?_⟩⟩
    · exact (congrFun frame.profile client).trans hp
    · rw [Serves, hp, ← hpb]

/-- An answer of the bootstrap is acceptable. -/
theorem pass_advance (h : n.Served) {w : Switch} {client : ℕ} {command : BootstrapCommand}
    {rest old : List EndpointName} (hw : n.switching = some w)
    (hp : w.phase = .asking client command old) : n.Advance (n.pass w client command rest) := by
  obtain ⟨ha, hat⟩ := h.switching w hw
  rw [hp] at hat
  have not_serving := hat.asking
  obtain ⟨name, hname⟩ := hat
  set m : Net := n.setClient client fun c => { c with passed := c.passed ++ [command] } with hm
  have keeps : n.Keeps m := keeps_setClient not_serving
  have known : m.Known := h.toKnown.setClient not_serving
  have passed : m.profile client = some (name, true, command.earlier ++ [command]) := by
    obtain ⟨c, hc, he⟩ := Option.map_eq_some_iff.mp hname
    simp only [Prod.mk.injEq] at he
    simp [hm, profile, setClient, hc, he]
  have asks : ∀ next : BootstrapCommand, command.earlier ++ [command] = next.earlier →
      n.Advance { m with switching := some { w with phase := .asking client next rest } } :=
    fun next hn => by
      refine ⟨⟨known.same rfl rfl rfl rfl,
        fun e he => ?_, fun w' hw' => ?_⟩, keeps⟩
      · rw [show m.active = none from ha] at he
        cases he
      · obtain rfl := Option.some.inj hw'
        exact ⟨ha, name, passed.trans (by rw [hn])⟩
  cases command with
  | serverInfo => exact asks .serverDefinitions rfl
  | serverDefinitions => exact asks .subscribe rfl
  | subscribe =>
    have settled : m.Advance (m.settle ((n.clients client).map fun c => ⟨c.name, client⟩)) := by
      refine settle_advance known (fun _ => ha) fun e he => ?_
      obtain ⟨c, hc, rfl⟩ := Option.map_eq_some_iff.mp he
      have hname' : n.profile client = some (c.name, c.wasConnected, c.passed) := by
        simp [profile, hc]
      obtain rfl : c.name = name := (Prod.mk.inj (Option.some.inj (hname'.symm.trans hname))).1
      exact passed
    exact ⟨settled.served, keeps.trans settled.keeps⟩

/-- `connect()` has succeeded. -/
theorem connected_advance (h : n.Served) {failed : Option ℕ} {client : ℕ} {rest : List EndpointName}
    (hw : n.switching = some ⟨failed, .connecting client rest⟩) :
    n.Advance { n.setClient client fun c => { c with link := .up, wasConnected := true } with
      switching := some ⟨failed, .asking client .serverInfo rest⟩ } := by
  obtain ⟨ha, hat⟩ := h.switching _ hw
  have not_serving := hat.connecting
  obtain ⟨name, hname⟩ := hat
  refine ⟨⟨(h.toKnown.setClient not_serving).same rfl rfl rfl rfl, fun e he => ?_, fun w' hw' => ?_⟩,
    keeps_setClient not_serving⟩
  · rw [show n.active = some e from he] at ha
    cases ha
  · obtain rfl := Option.some.inj hw'
    obtain ⟨c, hc, he⟩ := Option.map_eq_some_iff.mp hname
    simp only [Prod.mk.injEq] at he
    exact ⟨ha, name, by simp [profile, setClient, hc, he, BootstrapCommand.earlier]⟩

theorem Served.of_frame (h : n.Served) (hf : n.Frame n') (ha : n'.active = n.active) : n'.Served where
  toKnown := h.toKnown.of_frame hf
  active e he := hf.keeps _ _ (h.active e (ha ▸ he))
  switching w hw := by
    obtain ⟨hn, hat⟩ := h.switching w (hf.switching ▸ hw)
    exact ⟨ha.trans hn, hat.of_profile hf.profile⟩

theorem finishRelease_advance (h : n.Served) (client : ℕ) : n.Advance (n.finishRelease client) := by
  have gaveUp : (n.giveUp client).Served := by
    refine ⟨h.toKnown.of_tasks rfl rfl rfl fun i t' hi => ?_, h.active, h.switching⟩
    obtain ⟨t, ht, rfl⟩ := Option.map_eq_some_iff.mp hi
    refine ⟨t, ht, fun d hd => ?_⟩
    split at hd
    · simp [Stage.clients] at hd
    · exact .inl hd
  unfold finishRelease
  dsimp only
  split
  · exact ⟨gaveUp.of_frame ⟨rfl, rfl, rfl, rfl, rfl, rfl, rfl⟩ rfl, .refl⟩
  · exact ⟨gaveUp.of_frame scheduleReconnect_frame scheduleReconnect_active,
      .of_profile scheduleReconnect_frame.profile⟩

theorem Served.release (h : n.Served) : n.release.Served where
  toKnown := h.toKnown.of_frame release_frame
  active e he := by
    rw [release_active] at he
    cases he
  switching w hw := by
    obtain ⟨-, hat⟩ := h.switching w (release_frame.switching ▸ hw)
    exact ⟨release_active, hat.of_profile release_frame.profile⟩

theorem finishShutdown_advance (h : n.Served) : n.Advance n.finishShutdown := by
  have frame : n.Frame n.finishShutdown := finishShutdown_frame
  refine ⟨⟨h.toKnown.of_frame frame, fun e he => ?_, fun w hw => ?_⟩, frame.keeps⟩
  · rw [finishShutdown_active] at he
    cases he
  · obtain ⟨-, hat⟩ := h.switching w (frame.switching ▸ hw)
    exact ⟨finishShutdown_active, hat.of_profile frame.profile⟩

theorem disconnected_advance (h : n.Served) (client : ℕ) : n.Advance (n.disconnected client) := by
  have frame : n.Frame (n.setLink client .closed) := setLink_frame _ _
  have closed : (n.setLink client .closed).Served := h.of_frame frame rfl
  have others : n.Advance ((n.setLink client .closed).finishRelease client) :=
    (finishRelease_advance closed client).after frame.profile
  have next : ∀ (m : Net) (failed : Option ℕ) (order : List EndpointName), m.Known →
      m.profile = n.profile → m.active = none → n.Advance (m.connectInOrder failed order) :=
    fun m failed order hk hp ha => (connectInOrder_advance hk ha failed order).after hp
  unfold disconnected
  dsimp only
  split
  next w hw =>
    obtain ⟨ha, -⟩ := closed.switching w hw
    split
    · split
      · refine next { n.setLink client .closed with preferred := _ } _ _ ?_ frame.profile ha
        exact closed.toKnown.same rfl rfl rfl rfl
      · exact others
    · split
      · exact next _ _ _ closed.toKnown frame.profile ha
      · exact others
    · exact others
  · exact others

/-! ## Every event keeps the invariant -/

/-- A step keeps the invariant, and the clients that serve go on serving. -/
theorem Served.step {networkId : ℕ} {e : Event} (h : n.Served)
    (hs : n.step networkId e = some n') : n.Advance n' := by
  have staged : ∀ i stage, (∀ client ∈ Stage.clients stage, n.Bootstrapped client) →
      (n.setStage i stage).Served := fun i stage hc =>
    ⟨h.toKnown.setStage i hc, h.active, h.switching⟩
  cases e with
  | request | switchEndpoint | ensureConnected =>
    obtain rfl := Option.some.inj hs
    exact start_advance h _
  | transmit i =>
    simp only [Net.step] at hs
    split at hs <;> cases hs
    next client round hi =>
      have sent := staged i (.sent client round) (h.given i _ hi)
      exact ⟨⟨sent.toKnown.same rfl rfl rfl rfl, sent.active, sent.switching⟩, .refl⟩
  | reply i r =>
    simp only [Net.step] at hs
    split at hs
    next client round hi =>
      split at hs <;> cases hs
      refine ⟨staged i _ fun d hd => h.given i _ hi d ?_, .refl⟩
      obtain rfl := List.mem_singleton.mp hd
      exact List.mem_cons_self
    · cases hs
  | fault i =>
    simp only [Net.step] at hs
    split at hs
    next client round hi =>
      have hb : n.Bootstrapped client := h.given i _ hi client List.mem_cons_self
      have marked : (n.mark (.failed i client)).Served :=
        ⟨h.toKnown.same rfl rfl rfl rfl, h.active, h.switching⟩
      split at hs
      · cases hs
        refine (failover_advance marked i fun d hd => ?_).after rfl
        obtain rfl := List.mem_singleton.mp hd
        exact hb
      · have left : ∀ stage, (∀ d ∈ Stage.clients stage, n.Bootstrapped d) →
            ((n.mark (.failed i client)).setStage i stage).Served := fun stage hd =>
          ⟨marked.toKnown.setStage i hd, h.active, h.switching⟩
        split at hs <;> cases hs
        · have releasing := left (.releasing client) fun d hd => by
            obtain rfl := List.mem_singleton.mp hd
            exact hb
          exact ⟨releasing.release, .of_profile release_frame.profile⟩
        · exact ⟨left _ fun d hd => by simp [Stage.clients] at hd, .refl⟩
    · cases hs
  | throw i =>
    simp only [Net.step] at hs
    split at hs <;> cases hs
    exact ⟨staged i _ fun d hd => by simp [Stage.clients] at hd, .refl⟩
  | connected =>
    simp only [Net.step] at hs
    split at hs <;> cases hs
    next hw => exact connected_advance h hw
  | refused =>
    simp only [Net.step] at hs
    split at hs <;> cases hs
    next hw =>
      obtain ⟨ha, hat⟩ := h.switching _ hw
      have hb := hat.connecting
      obtain ⟨name, hp⟩ := hat
      exact drop_advance h ha (by simp [hp]) hb
  | answered answer =>
    simp only [Net.step] at hs
    split at hs
    next hw =>
      split at hs <;> cases hs
      · exact pass_advance h hw rfl
      · obtain ⟨ha, hat⟩ := h.switching _ hw
        have hb := hat.asking
        obtain ⟨name, hp⟩ := hat
        exact drop_advance h ha (by simp [hp]) hb
    · cases hs
  | disconnected client =>
    simp only [Net.step] at hs
    split at hs <;> cases hs
    exact disconnected_advance h client
  | lost client =>
    simp only [Net.step] at hs
    have frame : n.Frame (n.setLink client .down) := setLink_frame _ _
    have down : (n.setLink client .down).Served := h.of_frame frame rfl
    split at hs
    · split at hs <;> cases hs
      · exact (start_advance down _).after frame.profile
      · exact ⟨down, frame.keeps⟩
    · cases hs
  | timer =>
    simp only [Net.step] at hs
    split at hs <;> cases hs
    have fired : n.fire.Served :=
      ⟨h.toKnown.same rfl rfl rfl rfl, h.active, h.switching⟩
    exact (start_advance fired .reconnect).after rfl
  | shutdown =>
    simp only [Net.step] at hs
    split at hs
    · cases hs
    · split at hs <;> cases hs
      · exact ⟨⟨h.toKnown.same rfl rfl rfl rfl, h.active, h.switching⟩, .refl⟩
      · have stopped : n.destroy.Served :=
          ⟨h.toKnown.same rfl rfl rfl rfl, h.active, h.switching⟩
        exact (finishShutdown_advance stopped).after rfl

theorem served_init : Served {} where
  fresh _ hc := absurd rfl hc
  numbered _ _ hi := by cases hi
  given _ _ hi := by cases hi
  active _ he := by cases he
  switching _ hw := by cases hw

end Net

/-- **The invariant of every run.** -/
theorem served {networkId : ℕ} {ok : Net → Event → Prop} {n : Net}
    (h : (manager networkId).Reach ok n) : n.Served :=
  h.inv (fun _ hn => hn ▸ Net.served_init) fun _ _ _ _ hs hstep _ => (hs.step hstep).served

/-- The answers to the bootstrap by a healthy endpoint, and the events of a completed one. -/
def healthyAnswers : List Event :=
  [.connected,
    .answered (some (.ok [("info", .obj [("network_id", .num 1), ("server_state", .str "full"),
      ("validated_ledger", .obj [("seq", .num 1000), ("age", .num 3)])])])),
    .answered (some (.ok [("TRANSACTION_FORMATS", .obj [("Payment", .arr []), ("TrustSet", .arr [])])])),
    .answered (some (.ok []))]

/-- A request whose first transmission fails, and its second one. -/
def retried : List Event :=
  [.request .fee] ++ healthyAnswers ++ [.transmit 0, .fault 0, .disconnected 0] ++ healthyAnswers ++
    [.transmit 0]

end Orchestrator
