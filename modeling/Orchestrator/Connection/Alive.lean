import Orchestrator.Connection.Single

/-!
# No dead connection state

Whenever the manager is left without an endpoint, something goes on that looks for one: a switch, a
release that will arm the timer, or the armed timer itself.

* `Net.Timed`: the field `reconnectTimer` accounts for the armed timeouts;
* `Net.Live`, `Net.Revives`: what every method but `release` leaves, kept by `settle`,
  `connectInOrder`, `connection`, `failover`, `start`, `disconnected`;
* `Net.Alive`, kept by every event (`Net.Alive.step`);
* **`no_dead_connection`**.
-/

namespace Orchestrator

open Interleave

namespace Net

/-- The armed timeouts are the one that the field holds, and the shutdown leaves none. -/
structure Timed (n : Net) : Prop where
  armed : n.timeouts = if n.reconnectTimer.isSome then 1 else 0
  stopped : n.destroyed = true → n.reconnectTimer = none
  ended : n.shutdown ≠ .running → n.destroyed = true

/-- An endpoint is active, or on its way. -/
def Live (n : Net) : Prop := n.active.isSome ∨ n.switching.isSome ∨ 0 < n.timeouts

/-- The timers are in order, an endpoint is there or on its way, and once the shutdown has begun no
client is created. -/
structure Revives (n n' : Net) : Prop where
  timed : n'.Timed
  live : n'.destroyed = false → n'.Live
  quiet : n.destroyed = true → n'.destroyed = true ∧ n'.nextClient = n.nextClient

/-- The invariant: what has tried to connect, and releases nothing, has an endpoint or looks for
one. -/
structure Alive (n : Net) : Prop extends n.Timed where
  live : n.destroyed = false → 0 < n.nextClient → (∀ client, ¬ n.Releases client) → n.Live

variable {n n' : Net}

/-! ## Timers -/

theorem Timed.zero (h : n.Timed) (hd : n.destroyed = true) : n.timeouts = 0 := by
  rw [h.armed, h.stopped hd]
  rfl

/-- `switching` and the calls are not what timers depend on. -/
theorem Timed.of_fields (h : n.Timed) (ht : n'.timeouts = n.timeouts)
    (hr : n'.reconnectTimer = n.reconnectTimer) (hd : n'.destroyed = n.destroyed)
    (hs : n'.shutdown = n.shutdown) : n'.Timed :=
  ⟨by rw [ht, hr, h.armed], by rw [hd, hr]; exact h.stopped, by rw [hs, hd]; exact h.ended⟩

theorem Timed.scheduleReconnect (h : n.Timed) : n.scheduleReconnect.Timed := by
  unfold Net.scheduleReconnect
  split
  · exact h
  next hno =>
    obtain ⟨hd, hr⟩ := by simpa using hno
    refine ⟨?_, fun hd' => ?_, h.ended⟩
    · rw [h.armed, hr]
      rfl
    · rw [show n.destroyed = true from hd'] at hd
      cases hd

/-- **The timer is armed**, unless the shutdown has begun. -/
theorem Timed.live_scheduleReconnect (h : n.Timed) (hd : n.scheduleReconnect.destroyed = false) :
    0 < n.scheduleReconnect.timeouts := by
  rw [scheduleReconnect_frame.destroyed] at hd
  unfold Net.scheduleReconnect
  split
  next hr =>
    rw [hd, Bool.false_or] at hr
    rw [h.armed, if_pos hr]
    exact Nat.one_pos
  · exact Nat.succ_pos _

theorem Timed.release (h : n.Timed) : n.release.Timed := by
  unfold Net.release
  split
  · exact h.of_fields rfl rfl rfl rfl
  · exact h

theorem Timed.finishShutdown (h : n.Timed) (hd : n.destroyed = true) : n.finishShutdown.Timed := by
  unfold Net.finishShutdown
  split
  · exact ⟨h.release.armed, h.release.stopped, fun _ => release_frame.destroyed.trans hd⟩
  · exact ⟨h.armed, h.stopped, fun _ => hd⟩

theorem Timed.fire (h : n.Timed) : n.fire.Timed := by
  refine ⟨?_, fun _ => rfl, h.ended⟩
  change n.timeouts - 1 = 0
  rw [h.armed]
  split <;> rfl

theorem Timed.destroy (h : n.Timed) : n.destroy.Timed := by
  refine ⟨?_, fun _ => rfl, fun _ => rfl⟩
  change (if n.reconnectTimer.isSome then n.timeouts - 1 else n.timeouts) = 0
  rw [h.armed]
  split <;> simp_all

/-! ## The methods leave an endpoint, or look for one -/

/-- Before that, neither the shutdown began nor a client was created. -/
theorem Revives.after {m : Net} (h : m.Revives n') (hd : m.destroyed = n.destroyed)
    (hc : m.nextClient = n.nextClient) : n.Revives n' :=
  ⟨h.timed, h.live, fun hs => (h.quiet (hd.trans hs)).imp id fun he => he.trans hc⟩

theorem settle_revives (h : n.Timed) (endpoint : Option ActiveEndpoint) :
    n.Revives (n.settle endpoint) := by
  have frame := settle_frame (n := n) endpoint
  have quiet : n.destroyed = true →
      (n.settle endpoint).destroyed = true ∧ (n.settle endpoint).nextClient = n.nextClient :=
    fun hd => ⟨frame.destroyed.trans hd, frame.nextClient⟩
  by_cases hw : n.shutdown = .waiting
  · have hd : n.destroyed = true := h.ended (by rw [hw]; simp)
    refine ⟨?_, fun hd' => absurd ((quiet hd).1.symm.trans hd') (by simp), quiet⟩
    unfold settle
    cases endpoint with
    | none =>
      simp only [if_pos hw]
      refine Timed.finishShutdown ?_ (scheduleReconnect_frame.destroyed.trans hd)
      exact h.scheduleReconnect.of_fields rfl rfl rfl rfl
    | some e =>
      simp only [if_pos hw]
      exact Timed.finishShutdown (h.of_fields rfl rfl rfl rfl) hd
  · cases endpoint with
    | none =>
      have heq : n.settle none = { n.scheduleReconnect with
          switching := none
          tasks := fun i => (n.tasks i).map (Task.resume none) } := if_neg hw
      rw [heq] at quiet ⊢
      exact ⟨h.scheduleReconnect.of_fields rfl rfl rfl rfl,
        fun hd => .inr (.inr (h.live_scheduleReconnect hd)), quiet⟩
    | some e =>
      have heq : n.settle (some e) = { n with
          active := some e
          preferred := e.name
          reconnectAttempt := 0
          switching := none
          tasks := fun i => (n.tasks i).map (Task.resume (some e.client)) } := if_neg hw
      rw [heq] at quiet ⊢
      exact ⟨h.of_fields rfl rfl rfl rfl, fun _ => .inl rfl, quiet⟩

theorem connectInOrder_revives (h : n.Timed) (failed : Option ℕ) (order : List EndpointName) :
    n.Revives (n.connectInOrder failed order) := by
  unfold connectInOrder
  split
  · exact settle_revives h none
  · split
    · exact settle_revives h none
    next hd =>
      exact ⟨h.of_fields rfl rfl rfl rfl, fun _ => .inr (.inl rfl), fun hd' => absurd hd' hd⟩

theorem connection_revives (h : n.Timed) (i : ℕ) (round : Round) :
    n.Revives (n.connection i round) := by
  unfold connection
  split
  next e he =>
    refine ⟨h.of_fields rfl rfl rfl rfl, fun _ => .inl ?_, fun hd => ⟨hd, rfl⟩⟩
    exact Option.isSome_iff_exists.mpr ⟨e, he⟩
  · dsimp only
    split
    next w hw =>
      refine ⟨h.of_fields rfl rfl rfl rfl, fun _ => .inr (.inl ?_), fun hd => ⟨hd, rfl⟩⟩
      exact Option.isSome_iff_exists.mpr ⟨w, hw⟩
    · have waiting : ((n.setStage i (.waiting round)).mark (.attempted i)).Timed :=
        h.of_fields rfl rfl rfl rfl
      exact (connectInOrder_revives waiting none _).after rfl rfl

theorem failover_revives (h : n.Timed) (i failed : ℕ) (round : Round) :
    n.Revives (n.failover i failed round) := by
  unfold failover
  split
  next w hw =>
    refine ⟨h.of_fields rfl rfl rfl rfl, fun _ => .inr (.inl ?_), fun hd => ⟨hd, rfl⟩⟩
    exact Option.isSome_iff_exists.mpr ⟨w, hw⟩
  · split
    · split
      · have waiting : ((n.setStage i (.waiting round)).mark (.left failed i)).Timed :=
          h.of_fields rfl rfl rfl rfl
        exact ⟨waiting.release.of_fields rfl rfl rfl rfl, fun _ => .inr (.inl rfl),
          fun hd => ⟨release_frame.destroyed.trans hd, release_frame.nextClient⟩⟩
      · exact connection_revives h i round
    · exact connection_revives h i round

theorem start_revives (h : n.Timed) (call : ConnectionCall) : n.Revives (n.start call) := by
  have added : (n.addTask call).Timed := h.of_fields rfl rfl rfl rfl
  unfold start
  cases call with
  | request _ | ensureConnected | reconnect =>
    exact (connection_revives added n.nextTask .first).after rfl rfl
  | switchEndpoint =>
    dsimp only
    split
    · exact (failover_revives added n.nextTask _ .first).after rfl rfl
    · exact (connection_revives added n.nextTask .first).after rfl rfl
  | connectionLost client => exact (failover_revives added n.nextTask client .first).after rfl rfl

/-- The tracked work goes on with its client. -/
theorem revives_tracked (h : n.Timed) {w : Switch} (hm : n'.toManager = { n.toManager with
      switching := some w }) (ht : n'.timeouts = n.timeouts) (hs : n'.shutdown = n.shutdown)
    (hc : n'.nextClient = n.nextClient) : n.Revives n' where
  timed := ⟨by rw [ht, hm, h.armed], by rw [hm]; exact h.stopped, by rw [hs, hm]; exact h.ended⟩
  live _ := .inr (.inl (by rw [hm]; rfl))
  quiet hd := ⟨by rw [hm]; exact hd, hc⟩

theorem pass_revives (h : n.Timed) (w : Switch) (client : ℕ) (command : BootstrapCommand)
    (rest : List EndpointName) : n.Revives (n.pass w client command rest) := by
  cases command with
  | serverInfo | serverDefinitions => exact revives_tracked h rfl rfl rfl rfl
  | subscribe =>
    have passed : (n.setClient client fun c => { c with passed := c.passed ++ [.subscribe] }).Timed :=
      h.of_fields rfl rfl rfl rfl
    exact (settle_revives passed _).after rfl rfl

theorem finishRelease_revives (h : n.Timed) (client : ℕ) :
    n.Revives (n.finishRelease client) := by
  have gaveUp : (n.giveUp client).Timed := h.of_fields rfl rfl rfl rfl
  unfold finishRelease
  dsimp only
  split
  next hs =>
    have hd : n.destroyed = true := h.ended (by rw [show n.shutdown = _ from hs]; simp)
    exact ⟨⟨h.armed, h.stopped, fun _ => hd⟩,
      fun hd' => absurd (hd.symm.trans hd') (by simp), fun _ => ⟨hd, rfl⟩⟩
  · exact ⟨gaveUp.scheduleReconnect, fun hd => .inr (.inr (gaveUp.live_scheduleReconnect hd)),
      fun hd => ⟨scheduleReconnect_frame.destroyed.trans hd, scheduleReconnect_frame.nextClient⟩⟩

theorem disconnected_revives (h : n.Timed) (client : ℕ) : n.Revives (n.disconnected client) := by
  have closed : (n.setLink client .closed).Timed := h.of_fields rfl rfl rfl rfl
  have others : n.Revives ((n.setLink client .closed).finishRelease client) :=
    (finishRelease_revives closed client).after rfl rfl
  unfold disconnected
  dsimp only
  split
  · split
    next old alternate _ =>
      split
      · have preferred : Timed { n.setLink client .closed with preferred := alternate } :=
          closed.of_fields rfl rfl rfl rfl
        exact (connectInOrder_revives preferred _ _).after rfl rfl
      · exact others
    · split
      · exact (connectInOrder_revives closed _ _).after rfl rfl
      · exact others
    · exact others
  · exact others

/-! ## Every event keeps the invariant -/

theorem Revives.alive (h : n.Revives n') : n'.Alive := ⟨h.timed, fun hd _ _ => h.live hd⟩

/-- Nothing but calls, links and the trace changes, and no release. -/
theorem Alive.same (h : n.Alive) (hm : n'.toManager = n.toManager)
    (ht : n'.timeouts = n.timeouts) (hs : n'.shutdown = n.shutdown)
    (hc : n'.nextClient = n.nextClient) (hr : ∀ c, n'.Releases c ↔ n.Releases c) : n'.Alive where
  toTimed := h.toTimed.of_fields ht (congrArg (·.reconnectTimer) hm) (congrArg (·.destroyed) hm) hs
  live hd hn hcalm := by
    have live := h.live (by rw [← hm]; exact hd) (hc ▸ hn) fun c hc => hcalm c ((hr c).mpr hc)
    rwa [Live, hm, ht]

/-- A call that releases nothing comes to a stage that releases nothing. -/
theorem Alive.setStage (h : n.Alive) {i : ℕ} {t : Task} {stage : Stage} (hi : n.tasks i = some t)
    (ht : ∀ c, t.stage ≠ .releasing c) (hs : ∀ c, stage ≠ .releasing c) :
    (n.setStage i stage).Alive :=
  h.same rfl rfl rfl rfl fun c => releases_update rfl rfl fun _ ht' =>
    ⟨Option.some.inj (hi.symm.trans ht') ▸ ht c, hs c⟩

/-- **Every event keeps the invariant**, and once the shutdown has begun creates no client. -/
theorem Alive.step {networkId : ℕ} {e : Event} (h : n.Alive)
    (hstep : n.step networkId e = some n') :
    n'.Alive ∧ (n.destroyed = true → n'.destroyed = true ∧ n'.nextClient = n.nextClient) := by
  have revives : n.Revives n' → n'.Alive ∧
      (n.destroyed = true → n'.destroyed = true ∧ n'.nextClient = n.nextClient) :=
    fun hr => ⟨hr.alive, hr.quiet⟩
  cases e with
  | request | switchEndpoint | ensureConnected =>
    obtain rfl := Option.some.inj hstep
    exact revives (start_revives h.toTimed _)
  | transmit i =>
    simp only [Net.step] at hstep
    split at hstep <;> cases hstep
    next q client round hi =>
      have sent : (n.setStage i (.sent client round)).Alive :=
        h.setStage hi (by simp) (by simp)
      exact ⟨sent.same rfl rfl rfl rfl fun _ => Iff.rfl, fun hd => ⟨hd, rfl⟩⟩
  | reply i r =>
    simp only [Net.step] at hstep
    split at hstep
    next hi =>
      split at hstep <;> cases hstep
      exact ⟨h.setStage hi (by simp) (by simp), fun hd => ⟨hd, rfl⟩⟩
    · cases hstep
  | fault i =>
    simp only [Net.step] at hstep
    split at hstep
    next q client round hi =>
      have marked : (n.mark (.failed i client)).Alive := h.same rfl rfl rfl rfl fun _ => Iff.rfl
      cases round with
      | first =>
        obtain rfl := Option.some.inj hstep
        exact revives ((failover_revives marked.toTimed i client _).after rfl rfl)
      | second c =>
        dsimp only at hstep
        split at hstep <;> cases hstep
        · -- the release arms the timer when it completes
          set m : Net := (n.mark (.failed i client)).setStage i (.releasing client) with hm
          have timed : m.Timed := marked.toTimed.of_fields rfl rfl rfl rfl
          refine ⟨⟨timed.release, fun _ _ hcalm => absurd (.inl ⟨i, ?_⟩) (hcalm client)⟩,
            fun hd => ⟨release_frame.destroyed.trans hd, release_frame.nextClient⟩⟩
          refine ⟨⟨.request q, .releasing client⟩, ?_, rfl⟩
          rw [release_frame.tasks]
          simp [hm, Net.setStage, Net.mark, hi]
        · exact ⟨marked.setStage hi (by simp) (by simp), fun hd => ⟨hd, rfl⟩⟩
    · cases hstep
  | throw i =>
    simp only [Net.step] at hstep
    split at hstep <;> cases hstep
    next hi => exact ⟨h.setStage hi (by simp) (by simp), fun hd => ⟨hd, rfl⟩⟩
  | connected | refused =>
    simp only [Net.step] at hstep
    split at hstep <;> cases hstep
    exact revives (revives_tracked h.toTimed rfl rfl rfl rfl)
  | answered answer =>
    simp only [Net.step] at hstep
    split at hstep
    · split at hstep <;> cases hstep
      · exact revives (pass_revives h.toTimed _ _ _ _)
      · exact revives (revives_tracked h.toTimed rfl rfl rfl rfl)
    · cases hstep
  | disconnected client =>
    simp only [Net.step] at hstep
    split at hstep <;> cases hstep
    exact revives (disconnected_revives h.toTimed client)
  | lost client =>
    simp only [Net.step] at hstep
    split at hstep
    · have down : (n.setLink client .down).Timed := h.toTimed.of_fields rfl rfl rfl rfl
      split at hstep <;> cases hstep
      · exact revives ((start_revives down _).after rfl rfl)
      · exact ⟨h.same rfl rfl rfl rfl fun _ => Iff.rfl, fun hd => ⟨hd, rfl⟩⟩
    · cases hstep
  | timer =>
    simp only [Net.step] at hstep
    split at hstep <;> cases hstep
    exact revives ((start_revives h.toTimed.fire _).after rfl rfl)
  | shutdown =>
    simp only [Net.step] at hstep
    split at hstep
    · cases hstep
    · have stopped : n.destroy.Timed := h.toTimed.destroy
      split at hstep <;> cases hstep
      · exact ⟨⟨⟨stopped.armed, stopped.stopped, fun _ => rfl⟩, fun hd => by cases hd⟩,
          fun _ => ⟨rfl, rfl⟩⟩
      · have hd : n.destroy.finishShutdown.destroyed = true := finishShutdown_frame.destroyed
        exact ⟨⟨stopped.finishShutdown rfl, fun hd' => absurd (hd.symm.trans hd') (by simp)⟩,
          fun _ => ⟨hd, finishShutdown_frame.nextClient⟩⟩

theorem alive_init : Alive {} where
  armed := rfl
  stopped _ := rfl
  ended hs := absurd rfl hs
  live _ hc := absurd hc (Nat.lt_irrefl 0)

end Net

theorem alive {networkId : ℕ} {ok : Net → Event → Prop} {n : Net}
    (h : (manager networkId).Reach ok n) : n.Alive :=
  h.inv (fun _ hn => hn ▸ Net.alive_init) fun _ _ _ _ hi hstep _ => (hi.step hstep).1

/-- Once the shutdown has begun, no timer is armed and no client is created. -/
theorem quiet_after_shutdown {networkId : ℕ} {n n' : Net} {es : List Event}
    (h : n.Alive) (hd : n.destroyed = true)
    (hr : (manager networkId).Runs Machine.anyEvent n es n') :
    n'.Alive ∧ n'.destroyed = true ∧ n'.nextClient = n.nextClient := by
  induction hr with
  | refl => exact ⟨h, hd, rfl⟩
  | step _ hs _ ih =>
    obtain ⟨halive, hd', hc⟩ := ih
    obtain ⟨halive', hquiet⟩ := halive.step hs
    exact ⟨halive', (hquiet hd').1, (hquiet hd').2.trans hc⟩

/-- **No dead connection state.** In every run: once a client was created and before the shutdown,
a manager that neither switches nor releases has an active endpoint or an armed timer; at most one
timer is armed; and from the shutdown on none is, and no client is created. -/
theorem no_dead_connection (networkId : ℕ) (n : Net)
    (h : (manager networkId).Reach Machine.anyEvent n) :
    (0 < n.nextClient → n.destroyed = false → n.switching = none →
      (∀ client, ¬ n.Releases client) → n.active.isSome ∨ 0 < n.timeouts) ∧
    n.timeouts ≤ 1 ∧
    (n.destroyed = true → ∀ es n', (manager networkId).Runs Machine.anyEvent n es n' →
      n'.timeouts = 0 ∧ n'.nextClient = n.nextClient) := by
  have halive := alive h
  refine ⟨fun hc hd hw hcalm => ?_, ?_, fun hd es n' hr => ?_⟩
  · obtain ha | hs | ht := halive.live hd hc hcalm
    · exact .inl ha
    · rw [hw] at hs
      cases hs
    · exact .inr ht
  · rw [halive.armed]
    split <;> decide
  · obtain ⟨halive', hd', hc⟩ := quiet_after_shutdown halive hd hr
    exact ⟨halive'.toTimed.zero hd', hc⟩

/-- Neither endpoint lets the first request connect. -/
def bothRefused : List Event :=
  [.request .fee, .refused, .disconnected 0, .refused, .disconnected 1]

theorem no_dead_connection_refused : ∃ n, (manager 1).play {} bothRefused = some n ∧
    n.switching = none ∧ n.active = none ∧ 0 < n.timeouts := by
  have reach : ∀ {n}, (manager 1).play {} bothRefused = some n →
      (manager 1).Reach Machine.anyEvent n := fun hp => .of_play rfl hp
  have calm : ∀ {n : Net}, n.Known → n.nextTask = 1 → n.shutdown = .running →
      n.tasks 0 = some ⟨.request .fee, .done .unavailable⟩ → ∀ c, ¬ n.Releases c := by
    rintro n known hn hs ht c (⟨i, t, hi, hst⟩ | hc)
    · obtain rfl : i = 0 := by have := known.numbered i t hi; omega
      obtain rfl := Option.some.inj (ht.symm.trans hi)
      cases hst
    · cases hs.symm.trans hc
  refine ⟨_, rfl, rfl, rfl, ?_⟩
  have live := (no_dead_connection 1 _ (reach rfl)).1 (by decide) rfl rfl
    (calm (served (reach rfl)).toKnown rfl rfl rfl)
  exact live.resolve_left nofun

end Orchestrator
