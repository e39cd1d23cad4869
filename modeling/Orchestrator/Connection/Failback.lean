import Orchestrator.Connection.Delivery

/-!
# No automatic failback

The manager leaves the endpoint it is on for a reason, and then for the other one.

* `Net.Abandons`: the events that make it leave;
* `stays_step`, `leaves_step`: the others, and these;
* **`no_automatic_failback`**.
-/

namespace Orchestrator

open Interleave

namespace Net

variable {n n' : Net} {networkId : ℕ} {ev : Event} {e : ActiveEndpoint}

/-- What makes the manager leave the endpoint: a request that failed on it, its connection is lost,
a caller asks for a switch, or the shutdown. -/
def Abandons (n : Net) : Event → Prop
  | .fault i => ∃ call client round, n.tasks i = some ⟨call, .sent client round⟩ ∧
      n.active.map (·.client) = some client
  | .lost client => n.active.map (·.client) = some client
  | .switchEndpoint | .shutdown => True
  | _ => False

/-- The endpoint, the preference for it, and the clients that were created. -/
structure Stays (n n' : Net) : Prop where
  active : n'.active = n.active
  preferred : n'.preferred = n.preferred
  nextClient : n'.nextClient = n.nextClient
  switching : n'.switching = n.switching

theorem connection_stays (he : n.active = some e) (i : ℕ) (round : Round) :
    n.Stays (n.connection i round) := by
  unfold connection
  simp only [he]
  exact ⟨he.symm ▸ rfl, rfl, rfl, rfl⟩

/-- **Every other event** leaves it there. -/
theorem stays_step (he : n.active = some e) (hw : n.switching = none) (hev : ¬ n.Abandons ev)
    (hstep : n.step networkId ev = some n') : n.Stays n' := by
  have started (m : Net) (hm : n.Stays m) (call : ConnectionCall) (i : ℕ) (round : Round) :
      n.Stays ((m.addTask call).connection i round) := by
    have he' : (m.addTask call).active = some e := hm.active.trans he
    have h := connection_stays he' i round
    exact ⟨h.active.trans hm.active, h.preferred.trans hm.preferred,
      h.nextClient.trans hm.nextClient, h.switching.trans hm.switching⟩
  have same : n.Stays n := ⟨rfl, rfl, rfl, rfl⟩
  cases ev with
  | request | ensureConnected =>
    obtain rfl := Option.some.inj hstep
    exact started n same _ _ _
  | timer =>
    simp only [Net.step] at hstep
    split at hstep <;> cases hstep
    exact started n.fire ⟨rfl, rfl, rfl, rfl⟩ _ _ _
  | switchEndpoint | shutdown => exact absurd trivial hev
  | transmit i | throw i =>
    simp only [Net.step] at hstep
    split at hstep <;> cases hstep
    exact ⟨rfl, rfl, rfl, rfl⟩
  | reply i r =>
    simp only [Net.step] at hstep
    split at hstep
    · split at hstep <;> cases hstep
      exact ⟨rfl, rfl, rfl, rfl⟩
    · cases hstep
  | fault i =>
    simp only [Net.step] at hstep
    split at hstep
    next q client round hi =>
      have hne : n.active.map (·.client) ≠ some client := fun h => hev ⟨_, client, round, hi, h⟩
      have hother : e.client ≠ client := fun h => hne (by rw [he, ← h]; rfl)
      cases round with
      | first =>
        obtain rfl := Option.some.inj hstep
        have hw' : (n.mark (.failed i client)).switching = none := hw
        have he' : (n.mark (.failed i client)).active = some e := he
        unfold failover
        simp only [hw', he', if_neg hother]
        have h := connection_stays he' i (.second client)
        exact ⟨h.active, h.preferred, h.nextClient, h.switching⟩
      | second c =>
        have hbusy : ¬ (Option.map (·.client) (n.mark (.failed i client)).active = some client ∧
            (n.mark (.failed i client)).switching = none) := fun h => hne h.1
        simp only [if_neg hbusy] at hstep
        cases hstep
        exact ⟨rfl, rfl, rfl, rfl⟩
    · cases hstep
  | connected | refused | answered answer => simp [Net.step, hw] at hstep
  | disconnected client =>
    simp only [Net.step] at hstep
    split at hstep <;> cases hstep
    have hw' : (n.setLink client .closed).switching = none := hw
    unfold disconnected
    simp only [hw']
    unfold finishRelease
    dsimp only
    split
    · exact ⟨rfl, rfl, rfl, rfl⟩
    · unfold scheduleReconnect
      split <;> exact ⟨rfl, rfl, rfl, rfl⟩
  | lost client =>
    simp only [Net.step] at hstep
    split at hstep
    · have hne : ¬ Option.map (·.client) (n.setLink client .down).active = some client := hev
      rw [if_neg hne] at hstep
      cases hstep
      exact ⟨rfl, rfl, rfl, rfl⟩
    · cases hstep

/-- The manager is on no endpoint and switches to the other one. -/
def SwitchesFrom (e : ActiveEndpoint) (n' : Net) : Prop :=
  n'.active = none ∧
    n'.switching = some ⟨some e.client, .releasing e.client (otherEndpoint e.name)⟩

theorem failover_switches (he : n.active = some e) (hw : n.switching = none) (i : ℕ)
    (round : Round) : SwitchesFrom e (n.failover i e.client round) := by
  unfold failover
  simp only [hw, he, if_true]
  exact ⟨release_active, rfl⟩

/-- **What makes it leave** takes it to the other endpoint; a request that had failed before, or the
shutdown, to none. -/
theorem leaves_step (he : n.active = some e) (hw : n.switching = none) (hev : n.Abandons ev)
    (hstep : n.step networkId ev = some n') :
    SwitchesFrom e n' ∨ n'.active = none ∧ n'.switching = none ∧
      (ev = .shutdown ∨ ∃ i q failed, ev = .fault i ∧
        n.tasks i = some ⟨.request q, .sent e.client (.second failed)⟩) := by
  cases ev with
  | switchEndpoint =>
    obtain rfl := Option.some.inj hstep
    unfold start
    simp only [he]
    exact .inl (failover_switches (n := n.addTask _) he hw _ _)
  | fault i =>
    obtain ⟨call, client, round, hi, hclient⟩ := hev
    obtain rfl : e.client = client := by simpa [he] using hclient
    simp only [Net.step] at hstep
    split at hstep
    next q client' round' hi' =>
      obtain ⟨rfl, hstage⟩ := Task.mk.inj (Option.some.inj (hi.symm.trans hi'))
      obtain ⟨rfl, rfl⟩ := Stage.sent.inj hstage
      cases round with
      | first =>
        obtain rfl := Option.some.inj hstep
        exact .inl (failover_switches (n := n.mark (.failed i e.client)) he hw _ _)
      | second failed =>
        have hbusy : Option.map (·.client) (n.mark (.failed i e.client)).active = some e.client ∧
            (n.mark (.failed i e.client)).switching = none := ⟨hclient, hw⟩
        simp only [if_pos hbusy] at hstep
        cases hstep
        refine .inr ⟨release_active, release_frame.switching.trans hw, .inr ⟨i, _, failed, rfl, hi⟩⟩
    · cases hstep
  | lost client =>
    obtain rfl : e.client = client := by simpa [Abandons, he] using hev
    simp only [Net.step] at hstep
    split at hstep
    · have hactive : Option.map (·.client) (n.setLink e.client .down).active = some e.client := hev
      rw [if_pos hactive] at hstep
      cases hstep
      exact .inl (failover_switches
        (n := (n.setLink e.client .down).addTask (.connectionLost e.client)) he hw _ _)
    · cases hstep
  | shutdown =>
    have hnone : ¬ n.switching.isSome = true := by simp [hw]
    simp only [Net.step, if_neg hnone] at hstep
    split at hstep <;> cases hstep
    exact .inr ⟨finishShutdown_active, finishShutdown_frame.switching.trans hw, .inl rfl⟩
  | request | ensureConnected | transmit | reply | throw | connected | refused | answered
  | disconnected | timer => exact absurd hev id

/-- A request in its second round failed on another client in the first. -/
theorem Delivery.retried (h : n.Delivery) {i : ℕ} {q : LedgerRequest} {client failed : ℕ}
    (hi : n.tasks i = some ⟨.request q, .sent client (.second failed)⟩) :
    failed ≠ client ∧ n.Bootstrapped failed ∧ .failed i failed ∈ n.trace := by
  obtain ⟨hlog, hnew⟩ := h.fits i _ hi
  have mem (m : Mark) (hm : m ∈ (Round.second failed).log i q) : m ∈ n.trace :=
    (List.mem_filter.mp (hlog ▸ List.mem_append_left _ hm : m ∈ n.logOf i)).1
  refine ⟨fun he => hnew ?_, h.sent i q failed (mem _ ?_), mem _ ?_⟩ <;>
    simp [Round.clients, Round.log, *]

end Net

/-- **No automatic failback.** In every run, an endpoint that is in use stays in use, with no other
client created, however many requests, answers, timers and late disconnects come, until a request
fails on it, its connection is lost, a switch is asked for, or the service is shut down. Then it is
left at once for the other endpoint; only the shutdown leaves the service without one, or a request
whose first transmission had failed on another client before. -/
theorem no_automatic_failback (networkId : ℕ) (n : Net)
    (hn : (manager networkId).Reach Machine.anyEvent n) (e : ActiveEndpoint)
    (he : n.active = some e) :
    (∀ es n', (manager networkId).Runs (fun n ev => ¬ n.Abandons ev) n es n' →
      n'.active = some e ∧ n'.preferred = n.preferred ∧ n'.nextClient = n.nextClient) ∧
    ∀ ev n', n.step networkId ev = some n' → n.Abandons ev →
      Net.SwitchesFrom e n' ∨ n'.active = none ∧ n'.switching = none ∧ (ev = .shutdown ∨
        ∃ i q failed, ev = .fault i ∧
          n.tasks i = some ⟨.request q, .sent e.client (.second failed)⟩ ∧
          failed ≠ e.client ∧ n.Bootstrapped failed ∧ .failed i failed ∈ n.trace) := by
  have hw : n.switching = none := Option.eq_none_iff_forall_ne_some.mpr fun w hw => by
    cases he.symm.trans ((served hn).switching w hw).1
  refine ⟨fun es n' hr => ?_, fun ev n' hs hev => ?_⟩
  · suffices n.Stays n' from ⟨this.active.trans he, this.preferred, this.nextClient⟩
    induction hr with
    | refl => exact ⟨rfl, rfl, rfl, rfl⟩
    | step _ hs hev ih =>
      have h := Net.stays_step (ih.active.trans he) (ih.switching.trans hw) hev hs
      exact ⟨h.active.trans ih.active, h.preferred.trans ih.preferred,
        h.nextClient.trans ih.nextClient, h.switching.trans ih.switching⟩
  · refine (Net.leaves_step he hw hev hs).imp id fun ⟨h1, h2, h3⟩ => ⟨h1, h2, h3.imp id ?_⟩
    rintro ⟨i, q, failed, rfl, hi⟩
    exact ⟨i, q, failed, rfl, hi, (delivery hn).retried hi⟩

/-- After a failover, the other endpoint is in use. -/
theorem no_automatic_failback_secondary : ∃ n, (manager 1).play {} (.request .fee ::
      healthyAnswers ++ [.transmit 0, .fault 0, .disconnected 0] ++ healthyAnswers) = some n ∧
    n.active = some ⟨.secondary, 1⟩ ∧
    ∀ es n', (manager 1).Runs (fun n ev => ¬ n.Abandons ev) n es n' →
      n'.active = some ⟨.secondary, 1⟩ := by
  have reach : ∀ {n}, (manager 1).play {} (.request .fee ::
      healthyAnswers ++ [.transmit 0, .fault 0, .disconnected 0] ++ healthyAnswers) = some n →
      (manager 1).Reach Machine.anyEvent n := fun hp => .of_play rfl hp
  have stays := (no_automatic_failback 1 _ (reach rfl) ⟨.secondary, 1⟩ rfl).1
  exact ⟨_, rfl, rfl, fun es n' hr => (stays es n' hr).1⟩

end Orchestrator
