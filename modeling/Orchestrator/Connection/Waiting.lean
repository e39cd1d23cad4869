import Orchestrator.Connection.Single

/-!
# Calls that wait for a switch

A call that needs an endpoint awaits the shared promise `switching`. It waits for a bounded number
of steps of the switch, whatever else happens meanwhile.

* `Phase.rank`, `Phase.Awaits`: what is left of a switch, and what it awaits;
* **`switch_step`**: what it awaits lowers the rank, and nothing else moves it;
* `Net.Attended`, `attended`: a call waits only for a switch in progress, whose promise is pending;
* `Net.Waiting`, **`waiting_is_bounded`**.
-/

namespace Orchestrator

open Interleave

/-- A bound on the steps of the switch from here on. -/
def Phase.rank : Phase → ℕ
  | .releasing _ _ => 6
  | .connecting _ rest => 5 * rest.length + 5
  | .asking _ .serverInfo rest => 5 * rest.length + 4
  | .asking _ .serverDefinitions rest => 5 * rest.length + 3
  | .asking _ .subscribe rest => 5 * rest.length + 2
  | .dropping _ rest => 5 * rest.length + 1

/-- The event settles the promise that the switch is at. -/
def Phase.Awaits : Phase → Event → Bool
  | .connecting _ _, .connected | .connecting _ _, .refused | .asking _ _ _, .answered _ => true
  | .releasing client _, .disconnected d | .dropping client _, .disconnected d => client == d
  | _, _ => false

/-- The client whose `disconnect()` the switch is at. -/
def Phase.leaves : Phase → Option ℕ
  | .releasing client _ | .dropping client _ => some client
  | .connecting _ _ | .asking _ _ _ => none

/-- The call waits for the switch. -/
def Task.Waits (t : Task) : Prop := ∃ round, t.stage = .waiting round

theorem Task.obtain_waits (round : Round) (client : ℕ) (t : Task) :
    ¬ (t.obtain round client).Waits := by
  rintro ⟨round', h⟩
  unfold Task.obtain at h
  split at h <;> cases h

theorem Task.resume_waits (result : Option ℕ) (t : Task) : ¬ (t.resume result).Waits := by
  unfold Task.resume
  split
  · split
    · exact t.obtain_waits _ _
    · rintro ⟨round, h⟩
      cases h
  next hs => exact fun ⟨round, h⟩ => hs round h

namespace Net

variable {n n' : Net} {networkId : ℕ} {e : Event}

/-! ## The switch -/

theorem connectInOrder_rank (failed : Option ℕ) (order : List EndpointName) :
    (n.connectInOrder failed order).switching = none ∨
      ∃ w, (n.connectInOrder failed order).switching = some w ∧ w.phase.leaves = none ∧
        w.phase.rank ≤ 5 * order.length := by
  unfold connectInOrder
  split
  · exact .inl (settle_frame none).switching
  next name rest =>
    split
    · exact .inl (settle_frame none).switching
    · refine .inr ⟨_, rfl, rfl, ?_⟩
      simp [Phase.rank]
      omega

/-- A new call does not disturb the switch. -/
theorem connection_switching {w : Switch} (hw : n.switching = some w) (i : ℕ) (round : Round) :
    (n.connection i round).switching = some w := by
  unfold connection
  split
  · exact hw
  · simp only [hw]
    exact hw

theorem failover_switching {w : Switch} (hw : n.switching = some w) (i failed : ℕ) (round : Round) :
    (n.failover i failed round).switching = some w := by
  unfold failover
  simp only [hw]
  exact hw

theorem start_switching {w : Switch} (hw : n.switching = some w) (call : ConnectionCall) :
    (n.start call).switching = some w := by
  have hw' : (n.addTask call).switching = some w := hw
  unfold start
  cases call with
  | request | ensureConnected | reconnect => exact connection_switching hw' _ _
  | switchEndpoint =>
    dsimp only
    split
    · exact failover_switching hw' _ _ _
    · exact connection_switching hw' _ _
  | connectionLost client => exact failover_switching hw' _ _ _

theorem finishRelease_switching (client : ℕ) :
    (n.finishRelease client).switching = n.switching := by
  unfold finishRelease
  dsimp only
  split
  · rfl
  · exact scheduleReconnect_frame.switching

/-- The switch has ended, or less is left of it. -/
def Lowers (w : Switch) (n' : Net) : Prop :=
  n'.switching = none ∨ ∃ w', n'.switching = some w' ∧ w'.phase.rank < w.phase.rank

theorem connectInOrder_lowers {w : Switch} (failed : Option ℕ) {order : List EndpointName}
    (h : 5 * order.length < w.phase.rank) : Lowers w (n.connectInOrder failed order) :=
  (connectInOrder_rank failed order).imp_right fun ⟨w', hw', _, hr⟩ => ⟨w', hw', by omega⟩

theorem disconnected_switching {w : Switch} (hw : n.switching = some w) (client : ℕ) :
    if w.phase.leaves = some client then Lowers w (n.disconnected client)
    else (n.disconnected client).switching = some w := by
  have others : ((n.setLink client .closed).finishRelease client).switching = some w :=
    (finishRelease_switching client).trans hw
  have hw' : (n.setLink client .closed).switching = some w := hw
  unfold disconnected
  simp only [hw']
  cases hphase : w.phase with
  | releasing old alternate =>
    by_cases ho : old = client
    · simp only [Phase.leaves, ho, if_true]
      exact connectInOrder_lowers _ (by simp [hphase, Phase.rank])
    · simp only [Phase.leaves, Option.some.injEq, if_neg ho]
      exact others
  | dropping dropped rest =>
    by_cases ho : dropped = client
    · simp only [Phase.leaves, ho, if_true]
      exact connectInOrder_lowers _ (by simp [hphase, Phase.rank])
    · simp only [Phase.leaves, Option.some.injEq, if_neg ho]
      exact others
  | connecting | asking => simpa [Phase.leaves] using others

/-- **What the switch awaits** takes it further, and every other event leaves it where it is. -/
theorem switch_step (hs : n.Served) {w : Switch} (hw : n.switching = some w)
    (hstep : n.step networkId e = some n') :
    if w.phase.Awaits e then Lowers w n' else n'.switching = some w := by
  have ha : n.active = none := (hs.switching w hw).1
  obtain ⟨failed, phase⟩ := w
  cases e with
  | request | switchEndpoint | ensureConnected =>
    obtain rfl := Option.some.inj hstep
    rw [if_neg (by cases phase <;> simp [Phase.Awaits])]
    exact start_switching hw _
  | transmit i | throw i =>
    rw [if_neg (by cases phase <;> simp [Phase.Awaits])]
    simp only [Net.step] at hstep
    split at hstep <;> cases hstep
    exact hw
  | reply i r =>
    rw [if_neg (by cases phase <;> simp [Phase.Awaits])]
    simp only [Net.step] at hstep
    split at hstep
    · split at hstep <;> cases hstep
      exact hw
    · cases hstep
  | fault i =>
    rw [if_neg (by cases phase <;> simp [Phase.Awaits])]
    simp only [Net.step] at hstep
    split at hstep
    next q client round hi =>
      have hw' : (n.mark (.failed i client)).switching = some ⟨failed, phase⟩ := hw
      cases round with
      | first =>
        obtain rfl := Option.some.inj hstep
        exact failover_switching hw' _ _ _
      | second c =>
        dsimp only at hstep
        split at hstep <;> cases hstep
        next hbusy => cases hw'.symm.trans hbusy.2
        · exact hw
    · cases hstep
  | connected =>
    simp only [Net.step, hw] at hstep
    split at hstep <;> cases hstep
    next client rest hphase =>
      obtain ⟨rfl, rfl⟩ := Switch.mk.inj (Option.some.inj hphase)
      simp only [Phase.Awaits, if_true]
      exact .inr ⟨_, rfl, by simp [Phase.rank]⟩
  | refused =>
    simp only [Net.step, hw] at hstep
    split at hstep <;> cases hstep
    next client rest hphase =>
      obtain ⟨rfl, rfl⟩ := Switch.mk.inj (Option.some.inj hphase)
      simp only [Phase.Awaits, if_true]
      exact .inr ⟨_, rfl, by simp [Phase.rank]⟩
  | answered answer =>
    simp only [Net.step, hw] at hstep
    split at hstep
    next client command rest hphase =>
      obtain ⟨rfl, rfl⟩ := Switch.mk.inj (Option.some.inj hphase)
      simp only [Phase.Awaits, if_true]
      split at hstep <;> cases hstep
      · cases command with
        | serverInfo | serverDefinitions => exact .inr ⟨_, rfl, by simp [Phase.rank]⟩
        | subscribe => exact .inl (settle_frame _).switching
      · refine .inr ⟨_, rfl, ?_⟩
        cases command <;> simp [Phase.rank]
    · cases hstep
  | disconnected client =>
    simp only [Net.step] at hstep
    split at hstep <;> cases hstep
    have h := disconnected_switching hw client
    cases phase <;> simpa [Phase.Awaits, Phase.leaves] using h
  | lost client =>
    rw [if_neg (by cases phase <;> simp [Phase.Awaits])]
    simp only [Net.step] at hstep
    split at hstep
    · split at hstep <;> cases hstep
      · exact start_switching (n := n.setLink client .down) hw _
      · exact hw
    · cases hstep
  | timer =>
    rw [if_neg (by cases phase <;> simp [Phase.Awaits])]
    simp only [Net.step] at hstep
    split at hstep <;> cases hstep
    exact start_switching (n := n.fire) hw _
  | shutdown =>
    rw [if_neg (by cases phase <;> simp [Phase.Awaits])]
    have hsome : n.switching.isSome = true := by simp [hw]
    simp only [Net.step, hsome, if_true] at hstep
    split at hstep <;> cases hstep
    exact hw

/-! ## Nothing is awaited in vain -/

/-- The switch has a bound, and the client that it leaves is being disconnected. -/
structure Tended (n : Net) : Prop where
  rank : ∀ w, n.switching = some w → w.phase.rank ≤ 10
  leaves : ∀ w client, n.switching = some w → w.phase.leaves = some client →
    n.linkOf client = some .closing

/-- And a call waits only while there is one. -/
structure Attended (n : Net) : Prop extends n.Tended where
  waits : ∀ i t, n.tasks i = some t → t.Waits → n.switching.isSome = true

theorem Tended.same (h : n.Tended) (hw : n'.switching = n.switching)
    (hl : ∀ client, n.linkOf client = some .closing → n'.linkOf client = some .closing) :
    n'.Tended :=
  ⟨fun w hw' => h.rank w (hw ▸ hw'),
    fun w client hw' hc => hl client (h.leaves w client (hw ▸ hw') hc)⟩

/-- No call waits any more, or those that wait did so before. -/
theorem Attended.same (h : n.Attended) (hw : n'.switching = n.switching)
    (hl : ∀ client, n.linkOf client = some .closing → n'.linkOf client = some .closing)
    (ht : ∀ i t, n'.tasks i = some t → t.Waits → ∃ t, n.tasks i = some t ∧ t.Waits) :
    n'.Attended where
  toTended := h.toTended.same hw hl
  waits i t hi hwaits := by
    obtain ⟨t', hi', hwaits'⟩ := ht i t hi hwaits
    rw [hw]
    exact h.waits i t' hi' hwaits'

/-- There is a switch. -/
theorem Tended.attended (h : n.Tended) (hw : n.switching.isSome = true) : n.Attended :=
  ⟨h, fun _ _ _ _ => hw⟩

/-- A switch that awaits no `disconnect()`. -/
theorem attended_of_phase {w : Switch} (hw : n.switching = some w) (hr : w.phase.rank ≤ 10)
    (hl : w.phase.leaves = none) : n.Attended := by
  refine Tended.attended ⟨fun w' hw' => ?_, fun w' client hw' hc => ?_⟩ (by simp [hw])
  · obtain rfl := Option.some.inj (hw.symm.trans hw')
    exact hr
  · obtain rfl := Option.some.inj (hw.symm.trans hw')
    cases hl.symm.trans hc

/-- No switch, and no call that waits. -/
theorem attended_of_none (hw : n.switching = none)
    (ht : ∀ i t, n.tasks i = some t → ¬ t.Waits) : n.Attended :=
  ⟨⟨fun w hw' => by (cases hw.symm.trans hw'), fun w client hw' => by (cases hw.symm.trans hw')⟩,
    fun i t hi hwaits => absurd hwaits (ht i t hi)⟩

/-- **The end of a switch** wakes every call. -/
theorem settle_attended (endpoint : Option ActiveEndpoint) : (n.settle endpoint).Attended := by
  have frame := settle_frame (n := n) endpoint
  refine attended_of_none frame.switching fun i t hi => ?_
  rw [frame.tasks] at hi
  obtain ⟨t, -, rfl⟩ := Option.map_eq_some_iff.mp hi
  exact Task.resume_waits _ t

theorem connectInOrder_attended (failed : Option ℕ) {order : List EndpointName}
    (ho : order.length ≤ 2) : (n.connectInOrder failed order).Attended := by
  unfold connectInOrder
  split
  · exact settle_attended none
  · split
    · exact settle_attended none
    · refine attended_of_phase rfl ?_ rfl
      simp only [Phase.rank, List.length_cons] at ho ⊢
      omega

/-- A call, which may begin to wait. -/
theorem connection_attended (h : n.Tended) (i : ℕ) (round : Round)
    (ht : ∀ j t, j ≠ i → n.tasks j = some t → t.Waits → n.switching.isSome = true) :
    (n.connection i round).Attended := by
  unfold connection
  split
  next e he =>
    refine ⟨h.same rfl fun _ hl => hl, fun j t hj hwaits => ?_⟩
    obtain ⟨hne, hj⟩ | ⟨-, t', -, rfl⟩ := tasks_update hj
    · exact ht j t hne hj hwaits
    · exact absurd hwaits (t'.obtain_waits _ _)
  · dsimp only
    split
    next w hw =>
      have waiting : (n.setStage i (.waiting round)).Tended := h.same rfl fun _ hl => hl
      exact waiting.attended (Option.isSome_iff_exists.mpr ⟨w, hw⟩)
    · exact connectInOrder_attended _ (by simp)

theorem failover_attended (hs : n.Served) (h : n.Tended) (i failed : ℕ) (round : Round)
    (ht : ∀ j t, j ≠ i → n.tasks j = some t → t.Waits → n.switching.isSome = true) :
    (n.failover i failed round).Attended := by
  have waiting : (n.setStage i (.waiting round)).Tended := h.same rfl fun _ hl => hl
  unfold failover
  split
  next w hw => exact waiting.attended (Option.isSome_iff_exists.mpr ⟨w, hw⟩)
  · split
    next e he =>
      split
      next hf =>
        subst hf
        have hserves := hs.active e he
        refine Tended.attended ⟨fun w hw => ?_, fun w client hw hc => ?_⟩ rfl
        · obtain rfl := Option.some.inj hw
          simp [Phase.rank]
        · obtain rfl := Option.some.inj hw
          obtain rfl : e.client = client := Option.some.inj hc
          have hclosing : (n.setLink e.client .closing).linkOf e.client = some .closing :=
            linkOf_closing (by rw [hserves]; simp)
          have he' : ((n.setStage i (.waiting round)).mark (.left e.client i)).active = some e := he
          exact (congrFun (release_linkOf he') e.client).trans hclosing
      · exact connection_attended h i round ht
    · exact connection_attended h i round ht

/-- A new call. -/
theorem start_attended (hs : n.Served) (h : n.Attended) (call : ConnectionCall) :
    (n.start call).Attended := by
  have added : (n.addTask call).Tended := h.toTended.same rfl fun _ hl => hl
  have hserved : (n.addTask call).Served := ⟨hs.toKnown.addTask call, hs.active, hs.switching⟩
  have others (j : ℕ) (t : Task) (hne : j ≠ n.nextTask) (hj : (n.addTask call).tasks j = some t)
      (hwaits : t.Waits) : (n.addTask call).switching.isSome = true := by
    obtain ⟨rfl, -⟩ | ⟨-, hj⟩ := addTask_tasks hj
    · exact absurd rfl hne
    · exact h.waits j t hj hwaits
  unfold start
  cases call with
  | request | ensureConnected | reconnect => exact connection_attended added _ _ others
  | switchEndpoint =>
    dsimp only
    split
    · exact failover_attended hserved added _ _ _ others
    · exact connection_attended added _ _ others
  | connectionLost client => exact failover_attended hserved added _ _ _ others

/-- The bootstrap failed, and its client is being disconnected. -/
theorem drop_attended (h : n.Tended) {failed : Option ℕ} {phase : Phase} {client : ℕ}
    {rest : List EndpointName} (hw : n.switching = some ⟨failed, phase⟩)
    (hr : (Phase.dropping client rest).rank < phase.rank) (hp : n.profile client ≠ none) :
    (n.drop ⟨failed, phase⟩ client rest).Attended := by
  have hrank := h.rank _ hw
  refine Tended.attended ⟨fun w hw' => ?_, fun w d hw' hd => ?_⟩ rfl
  · obtain rfl := Option.some.inj hw'
    dsimp only at hrank ⊢
    omega
  · obtain rfl := Option.some.inj hw'
    obtain rfl : client = d := Option.some.inj hd
    exact linkOf_closing hp

/-- An accepted answer. -/
theorem pass_attended (h : n.Tended) {failed : Option ℕ} {client : ℕ} {command : BootstrapCommand}
    {rest : List EndpointName} (hw : n.switching = some ⟨failed, .asking client command rest⟩) :
    (n.pass ⟨failed, .asking client command rest⟩ client command rest).Attended := by
  have hrank := h.rank _ hw
  cases command with
  | serverInfo | serverDefinitions =>
    refine attended_of_phase rfl ?_ rfl
    simp only [Phase.rank] at hrank ⊢
    omega
  | subscribe => exact settle_attended _

theorem finishRelease_attended (h : n.Attended) (client : ℕ) :
    (n.finishRelease client).Attended := by
  have given : (n.giveUp client).Attended := h.same rfl (fun _ hl => hl) fun i t hi hwaits => by
    obtain ⟨t', hi', rfl⟩ := Option.map_eq_some_iff.mp hi
    refine ⟨t', hi', ?_⟩
    split at hwaits
    · obtain ⟨round, hs⟩ := hwaits
      cases hs
    · exact hwaits
  unfold finishRelease
  dsimp only
  split
  · exact given.same rfl (fun _ hl => hl) fun i t hi hwaits => ⟨t, hi, hwaits⟩
  · unfold scheduleReconnect
    split
    · exact given
    · exact given.same rfl (fun _ hl => hl) fun i t hi hwaits => ⟨t, hi, hwaits⟩

/-- Some client has been disconnected: the one that the switch leaves, or another. -/
theorem disconnected_attended (h : n.Attended) (client : ℕ) : (n.disconnected client).Attended := by
  have others (hne : ∀ w, n.switching = some w → w.phase.leaves ≠ some client) :
      ((n.setLink client .closed).finishRelease client).Attended := by
    have closed : (n.setLink client .closed).Attended := by
      refine ⟨⟨h.rank, fun w d hw hd => ?_⟩, h.waits⟩
      have hdc : d ≠ client := fun hdc => hne w hw (hdc ▸ hd)
      exact (linkOf_setLink_ne hdc).trans (h.leaves w d hw hd)
    exact finishRelease_attended closed client
  unfold disconnected
  dsimp only
  split
  next w hw =>
    have hw' : n.switching = some w := hw
    have hrank := h.rank w hw'
    have elsewhere (hl : w.phase.leaves ≠ some client) :
        ((n.setLink client .closed).finishRelease client).Attended :=
      others fun w' hw'' => by
        obtain rfl := Option.some.inj (hw'.symm.trans hw'')
        exact hl
    split
    next old alternate hphase =>
      split
      · exact connectInOrder_attended _ (by simp)
      next hne => exact elsewhere (by simpa [hphase, Phase.leaves] using hne)
    next dropped rest hphase =>
      split
      · refine connectInOrder_attended _ ?_
        rw [hphase, Phase.rank] at hrank
        omega
      next hne => exact elsewhere (by simpa [hphase, Phase.leaves] using hne)
    next hreleasing hdropping =>
      refine elsewhere ?_
      cases hphase : w.phase with
      | releasing old alternate => exact absurd hphase (hreleasing _ _)
      | dropping dropped rest => exact absurd hphase (hdropping _ _)
      | connecting | asking => simp [Phase.leaves]
  next hw =>
    refine others fun w hw' => ?_
    cases hw'.symm.trans hw

/-- **Every event** keeps it. -/
theorem Attended.step (hs : n.Served) (h : n.Attended) (hstep : n.step networkId e = some n') :
    n'.Attended := by
  have staged {m : Net} {i : ℕ} {stage : Stage} (hm : m.Attended)
      (hstage : ∀ round, stage ≠ .waiting round) : (m.setStage i stage).Attended :=
    hm.same rfl (fun _ hl => hl) fun j t hj hwaits => by
      obtain ⟨-, hj⟩ | ⟨-, t', -, rfl⟩ := tasks_update hj
      · exact ⟨t, hj, hwaits⟩
      · obtain ⟨round, hr⟩ := hwaits
        exact absurd hr (hstage round)
  cases e with
  | request | switchEndpoint | ensureConnected =>
    obtain rfl := Option.some.inj hstep
    exact start_attended hs h _
  | transmit i =>
    simp only [Net.step] at hstep
    split at hstep <;> cases hstep
    next client round hi =>
      have sent : (n.setStage i (.sent client round)).Attended := staged h fun _ hc => by cases hc
      exact sent.same rfl (fun _ hl => hl) fun j t hj hwaits => ⟨t, hj, hwaits⟩
  | reply i r =>
    simp only [Net.step] at hstep
    split at hstep
    · split at hstep <;> cases hstep
      exact staged h fun _ hc => by cases hc
    · cases hstep
  | fault i =>
    simp only [Net.step] at hstep
    split at hstep
    next q client round hi =>
      have marked : (n.mark (.failed i client)).Attended :=
        h.same rfl (fun _ hl => hl) fun j t hj hwaits => ⟨t, hj, hwaits⟩
      have hserved : (n.mark (.failed i client)).Served :=
        ⟨hs.toKnown.same rfl rfl rfl rfl, hs.active, hs.switching⟩
      cases round with
      | first =>
        obtain rfl := Option.some.inj hstep
        exact failover_attended hserved marked.toTended _ _ _ fun j t _ hj => marked.waits j t hj
      | second c =>
        dsimp only at hstep
        split at hstep <;> cases hstep
        next hbusy =>
          have releasing : ((n.mark (.failed i client)).setStage i (.releasing client)).Attended :=
            staged marked fun _ hc => by cases hc
          have hnone : ((n.mark (.failed i client)).setStage i
              (.releasing client)).release.switching = none := release_frame.switching.trans hbusy.2
          refine attended_of_none hnone fun j t hj hwaits => ?_
          rw [release_frame.tasks] at hj
          cases hbusy.2 ▸ releasing.waits j t hj hwaits
        · exact staged marked fun _ hc => by cases hc
    · cases hstep
  | throw i =>
    simp only [Net.step] at hstep
    split at hstep <;> cases hstep
    exact staged h fun _ hc => by cases hc
  | connected =>
    simp only [Net.step] at hstep
    split at hstep <;> cases hstep
    next failed client rest hw =>
      have hrank := h.rank _ hw
      refine attended_of_phase rfl ?_ rfl
      simp only [Phase.rank] at hrank ⊢
      omega
  | refused =>
    simp only [Net.step] at hstep
    split at hstep <;> cases hstep
    next failed client rest hw =>
      obtain ⟨-, name, hp⟩ := hs.switching _ hw
      exact drop_attended h.toTended hw (by simp [Phase.rank]) (by simp [hp])
  | answered answer =>
    simp only [Net.step] at hstep
    split at hstep
    next failed client command rest hw =>
      split at hstep <;> cases hstep
      · exact pass_attended h.toTended hw
      · obtain ⟨-, name, hp⟩ := hs.switching _ hw
        exact drop_attended h.toTended hw (by cases command <;> simp [Phase.rank]) (by simp [hp])
    · cases hstep
  | disconnected client =>
    simp only [Net.step] at hstep
    split at hstep <;> cases hstep
    exact disconnected_attended h client
  | lost client =>
    simp only [Net.step] at hstep
    split at hstep
    next hup =>
      have down : (n.setLink client .down).Attended :=
        h.same rfl (fun d hd => by
          have hne : d ≠ client := by rintro rfl; cases hd.symm.trans hup
          exact (linkOf_setLink_ne hne).trans hd) fun j t hj hwaits => ⟨t, hj, hwaits⟩
      have hserved : (n.setLink client .down).Served := hs.of_frame (setLink_frame _ _) rfl
      split at hstep <;> cases hstep
      · exact start_attended hserved down _
      · exact down
    · cases hstep
  | timer =>
    simp only [Net.step] at hstep
    split at hstep <;> cases hstep
    have fired : n.fire.Attended := h.same rfl (fun _ hl => hl) fun j t hj hwaits => ⟨t, hj, hwaits⟩
    have hserved : n.fire.Served := ⟨hs.toKnown.same rfl rfl rfl rfl, hs.active, hs.switching⟩
    exact start_attended hserved fired _
  | shutdown =>
    simp only [Net.step] at hstep
    have destroyed : n.destroy.Attended :=
      h.same rfl (fun _ hl => hl) fun j t hj hwaits => ⟨t, hj, hwaits⟩
    split at hstep
    · cases hstep
    · split at hstep <;> cases hstep
      · exact destroyed.same rfl (fun _ hl => hl) fun j t hj hwaits => ⟨t, hj, hwaits⟩
      next hw =>
        have hnone : n.destroy.switching = none := Option.not_isSome_iff_eq_none.mp hw
        refine attended_of_none (finishShutdown_frame.switching.trans hnone) fun j t hj hwaits => ?_
        rw [finishShutdown_frame.tasks] at hj
        cases hnone ▸ destroyed.waits j t hj hwaits

theorem attended_init : Attended {} := attended_of_none rfl fun _ _ hi => by cases hi

end Net

/-- **The invariant of every run.** -/
theorem attended {networkId : ℕ} {ok : Net → Event → Prop} {n : Net}
    (h : (manager networkId).Reach ok n) : n.Attended :=
  h.inv (fun _ hn => hn ▸ Net.attended_init) fun _ _ _ hk ih hs _ => ih.step (served hk) hs

namespace Net

variable {networkId : ℕ} {n n' : Net} {i k : ℕ}

/-- A run in which call `i` waits in every state, with the number of the events that the switch in
progress awaited. -/
inductive Waiting (networkId i : ℕ) (n : Net) : ℕ → Net → Prop
  | refl {t} : n.tasks i = some t → t.Waits → Waiting networkId i n 0 n
  | step {k n' e n'' t} : Waiting networkId i n k n' → n'.step networkId e = some n'' →
      n''.tasks i = some t → t.Waits →
      Waiting networkId i n (if n'.switching.any (·.phase.Awaits e) then k + 1 else k) n''

/-- What the switch awaits can happen. -/
theorem Tended.awaits (h : n.Tended) {w : Switch} (hw : n.switching = some w) :
    ∃ e, w.phase.Awaits e = true ∧ (n.step networkId e).isSome = true := by
  obtain ⟨failed, phase⟩ := w
  cases phase with
  | connecting client rest => exact ⟨.refused, rfl, by simp [Net.step, hw]⟩
  | asking client command rest => exact ⟨.answered none, rfl, by simp [Net.step, hw]⟩
  | releasing client alternate | dropping client rest =>
    have hl := h.leaves _ client hw rfl
    exact ⟨.disconnected client, by simp [Phase.Awaits], by simp [Net.step, hl]⟩

/-- The run lemma: what was awaited is no longer left. -/
theorem Waiting.rank (hn : (manager networkId).Reach Machine.anyEvent n)
    (h : Waiting networkId i n k n') : (manager networkId).Reach Machine.anyEvent n' ∧
      ∀ w, n.switching = some w → ∃ w', n'.switching = some w' ∧
        k + w'.phase.rank ≤ w.phase.rank := by
  induction h with
  | refl => exact ⟨hn, fun w hw => ⟨w, hw, (Nat.zero_add _).le⟩⟩
  | @step k n' e n'' t _ hs ht hwaits ih =>
    obtain ⟨hn', hrank⟩ := ih
    have hn'' := hn'.step hs trivial
    refine ⟨hn'', fun w hw => ?_⟩
    obtain ⟨w', hw', hle⟩ := hrank w hw
    obtain ⟨w'', hw''⟩ := Option.isSome_iff_exists.mp ((attended hn'').waits i t ht hwaits)
    have hstep := switch_step (served hn') hw' hs
    simp only [hw', Option.any_some]
    split at hstep
    next hawaits =>
      rw [if_pos hawaits]
      obtain hnone | ⟨w₁, hw₁, hlt⟩ := hstep
      · cases hnone.symm.trans hw''
      · exact ⟨w₁, hw₁, by omega⟩
    next hawaits =>
      rw [if_neg hawaits]
      exact ⟨w', hstep, hle⟩

end Net

/-- **A call waits for a bounded time.** In every run, a call that waits for an endpoint waits for a
switch in progress, whose next promise is pending and can settle. While the call waits, at most ten
such promises settle, however many calls, answers, lost connections, timers and a shutdown come in
between: after that the call has been given an endpoint, or has been told that there is none. -/
theorem waiting_is_bounded (networkId : ℕ) (n : Net)
    (hn : (manager networkId).Reach Machine.anyEvent n) (i : ℕ) (t : Task)
    (ht : n.tasks i = some t) (hwaits : t.Waits) :
    (∃ w e, n.switching = some w ∧ w.phase.Awaits e = true ∧
      (n.step networkId e).isSome = true) ∧
    ∀ k n', Net.Waiting networkId i n k n' → k ≤ 10 := by
  have hattended := attended hn
  obtain ⟨w, hw⟩ := Option.isSome_iff_exists.mp (hattended.waits i t ht hwaits)
  refine ⟨?_, fun k n' h => ?_⟩
  · obtain ⟨e, hawaits, hstep⟩ := hattended.awaits hw
    exact ⟨w, e, hw, hawaits, hstep⟩
  · obtain ⟨w', -, hle⟩ := (h.rank hn).2 w hw
    have hten := hattended.rank w hw
    omega

/-- A request on a service that has no connection yet. -/
theorem waiting_is_bounded_first : ∃ n, (manager 1).play {} [.request .fee] = some n ∧
    (∃ w e, n.switching = some w ∧ w.phase.Awaits e = true ∧ (n.step 1 e).isSome = true) ∧
    ∀ k n', Net.Waiting 1 0 n k n' → k ≤ 10 :=
  ⟨_, rfl, waiting_is_bounded 1 _ (.of_play rfl (show (manager 1).play {} [.request .fee] = some _
    from rfl)) 0 ⟨.request .fee, .waiting .first⟩ rfl ⟨.first, rfl⟩⟩

end Orchestrator
