import Orchestrator.Connection.Served

/-!
# At most one connected client

A request that failed on both endpoints releases its second client while nothing keeps another
call from starting to connect. As long as no call does so, every client that is not closed has
one owner: it is the active one, the one of the switch in progress, or the one being released.

* `Net.Releasing`, `Net.Attempts`, `Net.orderly`: the release, an attempt to connect, no attempt
  during a release;
* `Net.Single`, kept by every orderly event (`Net.Single.step`);
* **`one_connection`**, and **`two_connected`**: an attempt during a release.
-/

namespace Orchestrator

open Interleave

/-- The client that the tracked work is at. -/
def Phase.client : Phase → ℕ
  | .releasing client _ | .connecting client _ | .asking client _ _ | .dropping client _ => client

namespace Net

/-- A request that failed on both endpoints awaits the `disconnect()` of its client. -/
def Releasing (n : Net) : Prop := ∃ i t client, n.tasks i = some t ∧ t.stage = .releasing client

/-- The event makes a call start to connect. -/
def Attempts (n : Net) (e : Event) : Prop :=
  n.active = none ∧ n.switching = none ∧ n.destroyed = false ∧
    match e with
    | .request _ | .switchEndpoint | .ensureConnected => True
    | .timer => 0 < n.timeouts
    | .fault i => ∃ q client, n.tasks i = some ⟨.request q, .sent client .first⟩
    | _ => False

/-- No call starts to connect during the release of a request that failed on both endpoints. -/
def orderly (n : Net) (e : Event) : Prop := n.Attempts e → ¬ n.Releasing

/-- `disconnect()` of the client has not completed. -/
def Open (n : Net) (client : ℕ) : Prop := ∃ link, n.linkOf client = some link ∧ link ≠ .closed

/-- The client was connected and its `disconnect()` has not completed. -/
def Connected (n : Net) (client : ℕ) : Prop :=
  ∃ c, n.clients client = some c ∧ c.wasConnected = true ∧ c.link ≠ .closed

/-- The client is released, by a request that failed on both endpoints or at the shutdown. -/
def Releases (n : Net) (client : ℕ) : Prop :=
  (∃ i t, n.tasks i = some t ∧ t.stage = .releasing client) ∨ n.shutdown = .releasing client

/-- No other client is open, and none is released. -/
structure Owned (n : Net) (client : ℕ) : Prop where
  only : ∀ d, n.Open d → d = client
  calm : ∀ d, ¬ n.Releases d

/-- What is released is one client, which is closing. -/
structure Closing (n : Net) : Prop where
  link : ∀ client, n.Releases client → n.linkOf client = some .closing
  one : ∀ c d, n.Releases c → n.Releases d → c = d
  stopped : n.shutdown ≠ .running → n.destroyed = true

/-- Every open client has one owner. -/
structure Single (n : Net) : Prop extends n.Closing where
  active : ∀ e, n.active = some e → n.Owned e.client
  switching : ∀ w, n.switching = some w → n.Owned w.phase.client
  idle : n.active = none → n.switching = none → ∀ client, n.Open client → n.Releases client

variable {n n' : Net}

/-! ## Links -/

theorem linkOf_setClient (client d : ℕ) (f : LedgerClient → LedgerClient) :
    (n.setClient client f).linkOf d =
      if d = client then (n.clients client).map fun c => (f c).link else n.linkOf d := by
  by_cases h : d = client
  · subst h
    simp [linkOf, setClient, Option.map_map, Function.comp_def]
  · simp [linkOf, setClient, h]

theorem linkOf_setLink (client d : ℕ) (link : Link) : (n.setLink client link).linkOf d =
    if d = client then (n.linkOf client).map fun _ => link else n.linkOf d := by
  rw [setLink, linkOf_setClient]
  split
  · simp [linkOf, Option.map_map, Function.comp_def]
  · rfl

theorem linkOf_setLink_ne {client d : ℕ} {link : Link} (h : d ≠ client) :
    (n.setLink client link).linkOf d = n.linkOf d := by
  rw [linkOf_setLink, if_neg h]

theorem Open.of_eq {d : ℕ} (h : n'.Open d) (hl : n'.linkOf d = n.linkOf d) : n.Open d := by
  rwa [Open, hl] at h

theorem Connected.open {d : ℕ} (h : n.Connected d) : n.Open d := by
  obtain ⟨c, hc, -, hl⟩ := h
  exact ⟨c.link, by simp [linkOf, hc], hl⟩

/-- The client is closed now, and the others are as they were. -/
theorem Open.of_closed {client d : ℕ} (h : (n.setLink client .closed).Open d) :
    d ≠ client ∧ n.Open d := by
  by_cases hd : d = client
  · subst hd
    obtain ⟨l, hl, hne⟩ := h
    rw [linkOf_setLink, if_pos rfl, Option.map_eq_some_iff] at hl
    obtain ⟨-, -, rfl⟩ := hl
    exact absurd rfl hne
  · exact ⟨hd, h.of_eq (linkOf_setLink_ne hd)⟩

theorem Open.of_setLink {client d : ℕ} {link : Link} (h : (n.setLink client link).Open d) :
    d = client ∨ n.Open d := by
  by_cases hd : d = client
  · exact .inl hd
  · exact .inr (h.of_eq (linkOf_setLink_ne hd))

/-- The client was open, and it is closing now. -/
theorem linkOf_closing {client : ℕ} (h : n.profile client ≠ none) :
    (n.setLink client .closing).linkOf client = some .closing := by
  obtain ⟨p, hp⟩ := Option.ne_none_iff_exists'.mp h
  obtain ⟨c, hc, -⟩ := Option.map_eq_some_iff.mp hp
  rw [linkOf_setLink, if_pos rfl]
  simp [linkOf, hc]

/-! ## Releases -/

theorem releases_congr {client : ℕ} (hs : n'.shutdown = n.shutdown)
    (ht : ∀ i, (∃ t, n'.tasks i = some t ∧ t.stage = .releasing client) ↔
      ∃ t, n.tasks i = some t ∧ t.stage = .releasing client) :
    n'.Releases client ↔ n.Releases client := by
  simp only [Releases, hs, ht]

/-- The stage of one call changes, and neither stage is a release. -/
theorem releases_update {i client : ℕ} {f : Task → Task} (hs : n'.shutdown = n.shutdown)
    (htasks : n'.tasks = Function.update n.tasks i ((n.tasks i).map f))
    (hi : ∀ t, n.tasks i = some t → t.stage ≠ .releasing client ∧ (f t).stage ≠ .releasing client) :
    n'.Releases client ↔ n.Releases client := by
  refine releases_congr hs fun j => ?_
  rw [htasks]
  by_cases hij : j = i
  · subst hij
    simp only [Function.update_self, Option.map_eq_some_iff]
    constructor
    · rintro ⟨_, ⟨t, ht, rfl⟩, hr⟩
      exact absurd hr (hi t ht).2
    · rintro ⟨t, ht, hr⟩
      exact absurd hr (hi t ht).1
  · rw [Function.update_of_ne hij]

/-- The stages of the calls change, but no release does. -/
theorem releases_map {client : ℕ} {f : Task → Task} (hs : n'.shutdown = n.shutdown)
    (htasks : n'.tasks = fun i => (n.tasks i).map f)
    (hf : ∀ t, (f t).stage = .releasing client ↔ t.stage = .releasing client) :
    n'.Releases client ↔ n.Releases client := by
  refine releases_congr hs fun j => ?_
  simp only [htasks, Option.map_eq_some_iff]
  constructor
  · rintro ⟨_, ⟨t, ht, rfl⟩, hr⟩
    exact ⟨t, ht, (hf t).mp hr⟩
  · rintro ⟨t, ht, hr⟩
    exact ⟨_, ⟨t, ht, rfl⟩, (hf t).mpr hr⟩

end Net

theorem Task.obtain_releasing (t : Task) (round : Round) (c client : ℕ) :
    (t.obtain round c).stage ≠ .releasing client := by
  unfold Task.obtain
  split <;> exact nofun

theorem Task.resume_releasing (t : Task) (result : Option ℕ) (client : ℕ) :
    (t.resume result).stage = .releasing client ↔ t.stage = .releasing client := by
  unfold Task.resume
  split
  next round hs =>
    rw [hs]
    split
    · exact iff_of_false (t.obtain_releasing _ _ _) nofun
    · exact iff_of_false nofun nofun
  · rfl

namespace Net

variable {n n' : Net}

/-! ## Owners -/

/-- No endpoint is active, and the open clients are being released. -/
structure Idle (n : Net) : Prop extends n.Closing where
  active : n.active = none
  idle : ∀ client, n.Open client → n.Releases client

theorem Owned.mono {client : ℕ} (h : n.Owned client) (ho : ∀ d, n'.Open d → n.Open d)
    (hr : ∀ c, n'.Releases c ↔ n.Releases c) : n'.Owned client :=
  ⟨fun d hd => h.only d (ho d hd), fun d hd => h.calm d ((hr d).mp hd)⟩

theorem Closing.mono (h : n.Closing) (hr : ∀ c, n'.Releases c ↔ n.Releases c)
    (hl : ∀ c, n.Releases c → n'.linkOf c = n.linkOf c)
    (hs : n'.shutdown ≠ .running → n'.destroyed = true) : n'.Closing where
  link c hc := (hl c ((hr c).mp hc)).trans (h.link c ((hr c).mp hc))
  one c d hc hd := h.one c d ((hr c).mp hc) ((hr d).mp hd)
  stopped := hs

/-- A step within the work of one owner. -/
theorem Single.mono (h : n.Single) (ho : ∀ d, n'.Open d → n.Open d)
    (hr : ∀ c, n'.Releases c ↔ n.Releases c)
    (hl : ∀ c, n.Releases c → n'.linkOf c = n.linkOf c) (ha : n'.active = n.active)
    (hw : n'.switching.map (·.phase.client) = n.switching.map (·.phase.client))
    (hs : n'.shutdown ≠ .running → n'.destroyed = true) : n'.Single where
  toClosing := h.toClosing.mono hr hl hs
  active e he := (h.active e (ha ▸ he)).mono ho hr
  switching w hw' := by
    rw [hw', Option.map_some] at hw
    obtain ⟨w', hw', he⟩ := Option.map_eq_some_iff.mp hw.symm
    exact he ▸ (h.switching w' hw').mono ho hr
  idle hn hsw c hc := (hr c).mpr (h.idle (ha ▸ hn) (by
    rw [hsw, Option.map_none] at hw
    exact Option.map_eq_none_iff.mp hw.symm) c (ho c hc))

/-- The client of the tracked work is the only one that is open. -/
theorem Closing.single (h : n.Closing) {w : Switch} {client : ℕ} (hw : n.switching = some w)
    (hc : w.phase.client = client) (ha : n.active = none) (ho : n.Owned client) : n.Single where
  toClosing := h
  active e he := by rw [ha] at he; cases he
  switching w' hw' := by
    obtain rfl := Option.some.inj (hw.symm.trans hw')
    exact hc ▸ ho
  idle _ hn := by rw [hw] at hn; cases hn

/-- Only calls and the trace change, and no release. -/
theorem Single.same (h : n.Single) (hc : n'.clients = n.clients)
    (hr : ∀ c, n'.Releases c ↔ n.Releases c) (hm : n'.toManager = n.toManager)
    (hs : n'.shutdown = n.shutdown) : n'.Single := by
  have hl : n'.linkOf = n.linkOf := by
    funext d
    rw [linkOf, hc, linkOf]
  exact h.mono (fun d hd => hd.of_eq (congrFun hl d)) hr (fun c _ => congrFun hl c)
    (congrArg (·.active) hm) (congrArg (·.switching.map (·.phase.client)) hm)
    (by rw [hs, congrArg (·.destroyed) hm]; exact h.stopped)

/-- At most one client is open. -/
theorem Single.one_open (h : n.Single) {c d : ℕ} (hc : n.Open c) (hd : n.Open d) : c = d := by
  cases ha : n.active with
  | some e => exact ((h.active e ha).only c hc).trans ((h.active e ha).only d hd).symm
  | none =>
    cases hw : n.switching with
    | some w => exact ((h.switching w hw).only c hc).trans ((h.switching w hw).only d hd).symm
    | none => exact h.one c d (h.idle ha hw c hc) (h.idle ha hw d hd)

theorem Single.toIdle (h : n.Single) (ha : n.active = none) (hw : n.switching = none) : n.Idle :=
  ⟨h.toClosing, ha, h.idle ha hw⟩

/-! ## The methods keep the invariant -/

@[simp] theorem scheduleReconnect_linkOf : n.scheduleReconnect.linkOf = n.linkOf := by
  unfold scheduleReconnect
  split <;> rfl

theorem release_shutdown : n.release.shutdown = n.shutdown := by
  unfold release
  split <;> rfl

@[simp] theorem scheduleReconnect_shutdown : n.scheduleReconnect.shutdown = n.shutdown := by
  unfold scheduleReconnect
  split <;> rfl

theorem Open.of_linkOf {d : ℕ} (h : n'.Open d) (hl : n'.linkOf = n.linkOf) : n.Open d :=
  h.of_eq (congrFun hl d)

theorem release_linkOf {e : ActiveEndpoint} (he : n.active = some e) :
    n.release.linkOf = (n.setLink e.client .closing).linkOf := by
  unfold release
  rw [he]
  rfl

/-- The owner's client is released, and nothing else is going on. -/
theorem single_released {client : ℕ} (ho : ∀ d, n.Open d → d = client)
    (hr : ∀ d, n.Releases d ↔ d = client) (hl : n.linkOf client = some .closing)
    (ha : n.active = none) (hw : n.switching = none)
    (hs : n.shutdown ≠ .running → n.destroyed = true) : n.Single where
  link c hc := (hr c).mp hc ▸ hl
  one c d hc hd := ((hr c).mp hc).trans ((hr d).mp hd).symm
  stopped := hs
  active e he := by rw [ha] at he; cases he
  switching w hw' := by rw [hw] at hw'; cases hw'
  idle _ _ c hc := (hr c).mpr (ho c hc)

theorem release_open {e : ActiveEndpoint} (he : n.active = some e)
    (ho : ∀ d, n.Open d → d = e.client) {d : ℕ} (hd : n.release.Open d) : d = e.client := by
  have hd : (n.setLink e.client .closing).Open d := hd.of_linkOf (release_linkOf he)
  exact hd.of_setLink.elim id (ho d)

/-- The shutdown releases the endpoint that is active. -/
theorem finishShutdown_single {e : ActiveEndpoint} (he : n.active = some e)
    (hp : n.profile e.client ≠ none) (ho : n.Owned e.client) (hw : n.switching = none)
    (hd : n.destroyed = true) : n.finishShutdown.Single := by
  have heq : n.finishShutdown = { n.release with shutdown := .releasing e.client } := by
    unfold finishShutdown
    rw [he]
  rw [heq]
  refine single_released (fun d hd => release_open he ho.only (hd.of_linkOf rfl))
    (fun d => ⟨fun hr => ?_, ?_⟩) ?_ release_active (release_frame.switching.trans hw)
    fun _ => release_frame.destroyed.trans hd
  · obtain ⟨i, t, ht, hs⟩ | hr := hr
    · exact absurd (.inl ⟨i, t, release_frame.tasks ▸ ht, hs⟩) (ho.calm d)
    · exact (Shutdown.releasing.inj hr).symm
  · rintro rfl
    exact .inr rfl
  · exact (congrFun (release_linkOf he) _).trans (linkOf_closing hp)

/-- The shutdown has nothing to release. -/
theorem Idle.finishShutdown (h : n.Idle) (hw : n.switching = none) (hd : n.destroyed = true)
    (hs : ∀ client, n.shutdown ≠ .releasing client) : n.finishShutdown.Single := by
  have heq : n.finishShutdown = { n with shutdown := .done } := by
    unfold Net.finishShutdown
    rw [h.active]
  rw [heq]
  have hr : ∀ c, Releases { n with shutdown := .done } c ↔ n.Releases c := fun c =>
    or_congr Iff.rfl (iff_of_false nofun (hs c))
  exact { h.toClosing.mono hr (fun _ _ => rfl) (fun _ => hd) with
    active := fun e he => absurd (h.active.symm.trans he) nofun
    switching := fun w hw' => absurd (hw.symm.trans hw') nofun
    idle := fun _ _ c hc => (hr c).mpr (h.idle c hc) }

/-- The tracked work fails. -/
theorem settle_none_single (h : n.Idle) : (n.settle none).Single := by
  set m : Net := { n.scheduleReconnect with
    switching := none
    tasks := fun i => (n.tasks i).map (Task.resume none) } with hm
  have heq : n.settle none = if n.shutdown = .waiting then m.finishShutdown else m := rfl
  have hr : ∀ c, m.Releases c ↔ n.Releases c := fun c =>
    releases_map scheduleReconnect_shutdown rfl fun t => t.resume_releasing _ c
  have hl : m.linkOf = n.linkOf := scheduleReconnect_linkOf
  have hdestroyed : m.destroyed = n.destroyed := scheduleReconnect_frame.destroyed
  have hshutdown : m.shutdown = n.shutdown := scheduleReconnect_shutdown
  have idle : m.Idle :=
    { h.toClosing.mono hr (fun c _ => congrFun hl c) (by rw [hshutdown, hdestroyed]; exact h.stopped) with
      active := scheduleReconnect_active.trans h.active
      idle := fun c hc => (hr c).mpr (h.idle c (hc.of_linkOf hl)) }
  rw [heq]
  split
  next hs =>
    refine idle.finishShutdown rfl (hdestroyed.trans (h.stopped (by rw [hs]; exact nofun))) fun c => ?_
    rw [hshutdown, hs]
    exact nofun
  · exact { idle.toClosing with
      active := fun e he => absurd (idle.active.symm.trans he) nofun
      switching := fun w hw => absurd hw nofun
      idle := fun _ _ => idle.idle }

/-- The tracked work ends with its client, the only one that is open. -/
theorem settle_some_single {e : ActiveEndpoint} (h : n.Closing) (hp : n.profile e.client ≠ none)
    (ho : n.Owned e.client) : (n.settle (some e)).Single := by
  set m : Net := { n with
    active := some e
    preferred := e.name
    reconnectAttempt := 0
    switching := none
    tasks := fun i => (n.tasks i).map (Task.resume (some e.client)) } with hm
  have heq : n.settle (some e) = if n.shutdown = .waiting then m.finishShutdown else m := rfl
  have hr : ∀ c, m.Releases c ↔ n.Releases c := fun c =>
    releases_map rfl rfl fun t => t.resume_releasing _ c
  have owned : m.Owned e.client := ho.mono (fun d hd => hd) hr
  rw [heq]
  split
  next hs => exact finishShutdown_single rfl hp owned rfl (h.stopped (by rw [hs]; exact nofun))
  · exact { h.mono hr (fun _ _ => rfl) h.stopped with
      active := fun e' he => Option.some.inj he ▸ owned
      switching := fun w hw => absurd hw nofun
      idle := fun ha => absurd ha nofun }

/-- The next endpoint of the tracked work, when nothing is being released. -/
theorem connectInOrder_single (h : n.Idle)
    (hn : n.destroyed = false → ∀ client, ¬ n.Releases client) (failed : Option ℕ)
    (order : List EndpointName) : (n.connectInOrder failed order).Single := by
  unfold connectInOrder
  split
  · exact settle_none_single h
  next name rest =>
    split
    · exact settle_none_single h
    next hd =>
      have calm := hn (by simpa using hd)
      set m : Net := { n with
        clients := Function.update n.clients n.nextClient (some ⟨name, .connecting, false, []⟩)
        nextClient := n.nextClient + 1
        switching := some ⟨failed, .connecting n.nextClient rest⟩ } with hm
      have owned : m.Owned n.nextClient := by
        refine ⟨fun d ho => ?_, calm⟩
        by_contra hne
        refine calm d (h.idle d (ho.of_eq ?_))
        simp [linkOf, hm, Function.update_of_ne hne]
      have closing : m.Closing :=
        h.toClosing.mono (fun _ => Iff.rfl) (fun c hc => absurd hc (calm c)) h.stopped
      exact { closing with
        active := fun e he => absurd (h.active.symm.trans he) nofun
        switching := fun w hw => Option.some.inj hw ▸ owned
        idle := fun _ hw => absurd hw nofun }

/-- The call is not one that releases a client. -/
def Awake (n : Net) (i : ℕ) : Prop := ∀ t, n.tasks i = some t → ∀ client, t.stage ≠ .releasing client

theorem releases_setStage {i : ℕ} (hi : n.Awake i) {stage : Stage}
    (hs : ∀ client, stage ≠ .releasing client) (c : ℕ) :
    (n.setStage i stage).Releases c ↔ n.Releases c :=
  releases_update rfl rfl fun t ht => ⟨hi t ht c, hs c⟩

theorem Single.setStage (h : n.Single) {i : ℕ} (hi : n.Awake i) {stage : Stage}
    (hs : ∀ client, stage ≠ .releasing client) : (n.setStage i stage).Single :=
  h.same rfl (releases_setStage hi hs) rfl rfl

theorem Single.mark (h : n.Single) (m : Mark) : (n.mark m).Single :=
  h.same rfl (fun _ => Iff.rfl) rfl rfl

theorem connection_single (h : n.Single) {i : ℕ} (hi : n.Awake i) (round : Round)
    (hn : n.active = none → n.switching = none → n.destroyed = false → ∀ c, ¬ n.Releases c) :
    (n.connection i round).Single := by
  have waiting : (n.setStage i (.waiting round)).Single := h.setStage hi nofun
  unfold connection
  split
  next e he =>
    exact h.same rfl (fun c => releases_update rfl rfl fun t ht =>
      ⟨hi t ht c, t.obtain_releasing _ _ c⟩) rfl rfl
  next ha =>
    dsimp only
    split
    · exact waiting
    next hw =>
      have attempted : ((n.setStage i (.waiting round)).mark (.attempted i)).Single :=
        waiting.mark _
      have hr : ∀ c, (n.setStage i (.waiting round)).Releases c ↔ n.Releases c :=
        releases_setStage hi nofun
      exact connectInOrder_single (attempted.toIdle ha hw)
        (fun hd c hc => hn ha hw hd c ((hr c).mp hc)) _ _

theorem failover_single (h : n.Single) {i : ℕ} (hi : n.Awake i) (failed : ℕ) (round : Round)
    (hn : n.active = none → n.switching = none → n.destroyed = false → ∀ c, ¬ n.Releases c) :
    (n.failover i failed round).Single := by
  have waiting : (n.setStage i (.waiting round)).Single := h.setStage hi nofun
  unfold failover
  split
  · exact waiting
  · split
    next e he =>
      split
      next hf =>
        subst hf
        set m : Net := (n.setStage i (.waiting round)).mark (.left e.client i) with hm
        have marked : m.Single := waiting.mark _
        have owned : m.Owned e.client := marked.active e he
        have hr : ∀ c, m.release.Releases c ↔ m.Releases c := fun c =>
          releases_congr release_shutdown fun j => by rw [release_frame.tasks]
        have calm : ∀ c, ¬ m.release.Releases c := fun c hc => owned.calm c ((hr c).mp hc)
        have owned' : m.release.Owned e.client := ⟨fun d hd => release_open (n := m) he owned.only hd, calm⟩
        exact {
          link := fun c hc => absurd hc (calm c)
          one := fun c _ hc => absurd hc (calm c)
          stopped := fun hs => release_frame.destroyed.trans (marked.stopped (release_shutdown ▸ hs))
          active := fun e' he' => absurd (release_active.symm.trans he') nofun
          switching := fun w hw => Option.some.inj hw ▸ ⟨owned'.only, owned'.calm⟩
          idle := fun _ hw => absurd hw nofun }
      · exact connection_single h hi round hn
    · exact connection_single h hi round hn

theorem start_single (hk : n.Known) (h : n.Single) (call : ConnectionCall)
    (hn : n.active = none → n.switching = none → n.destroyed = false → ∀ c, ¬ n.Releases c) :
    (n.start call).Single := by
  have hr : ∀ c, (n.addTask call).Releases c ↔ n.Releases c := fun c => by
    refine releases_congr rfl fun i => ⟨fun ⟨t, ht, hs⟩ => ?_, fun ⟨t, ht, hs⟩ => ?_⟩
    · obtain ⟨-, rfl⟩ | ⟨-, ht⟩ := addTask_tasks ht
      · cases hs
      · exact ⟨t, ht, hs⟩
    · have hne : i ≠ n.nextTask := (hk.numbered i t ht).ne
      exact ⟨t, by simpa [addTask, Function.update_of_ne hne] using ht, hs⟩
  have added : (n.addTask call).Single := h.same rfl hr rfl rfl
  have awake : (n.addTask call).Awake n.nextTask := fun t ht c hs => by
    obtain ⟨-, rfl⟩ | ⟨hne, -⟩ := addTask_tasks ht
    · cases hs
    · exact hne rfl
  have hn : (n.addTask call).active = none → (n.addTask call).switching = none →
      (n.addTask call).destroyed = false → ∀ c, ¬ (n.addTask call).Releases c :=
    fun ha hw hd c hc => hn ha hw hd c ((hr c).mp hc)
  unfold start
  cases call with
  | request _ | ensureConnected | reconnect => exact connection_single added awake _ hn
  | switchEndpoint =>
    dsimp only
    split
    · exact failover_single added awake _ _ hn
    · exact connection_single added awake _ hn
  | connectionLost client => exact failover_single added awake _ _ hn

/-- The bootstrap of the client of the tracked work has failed. -/
theorem drop_single (h : n.Single) {w : Switch} (hw : n.switching = some w) (ha : n.active = none)
    {client : ℕ} (hc : w.phase.client = client) (rest : List EndpointName) :
    (n.drop w client rest).Single := by
  have owned := hc ▸ h.switching w hw
  have closing : (n.drop w client rest).Closing :=
    h.toClosing.mono (fun _ => Iff.rfl) (fun c hc => absurd hc (owned.calm c)) h.stopped
  refine closing.single rfl rfl ha ⟨fun d hd => ?_, owned.calm⟩
  have hd : (n.setLink client .closing).Open d := hd
  exact hd.of_setLink.elim id (owned.only d)

/-- The tracked work goes on with its client. -/
theorem Single.setClient (h : n.Single) {w : Switch} (hw : n.switching = some w)
    (f : LedgerClient → LedgerClient) :
    (n.setClient w.phase.client f).Closing ∧ (n.setClient w.phase.client f).Owned w.phase.client := by
  have owned := h.switching w hw
  refine ⟨h.toClosing.mono (fun _ => Iff.rfl) (fun c hc => absurd hc (owned.calm c)) h.stopped,
    fun d hd => ?_, owned.calm⟩
  by_contra hne
  exact hne (owned.only d (hd.of_eq (by rw [linkOf_setClient, if_neg hne])))

theorem pass_single (hs : n.Served) (h : n.Single) {w : Switch} {client : ℕ}
    {command : BootstrapCommand} {rest : List EndpointName} (hw : n.switching = some w)
    (hp : w.phase = .asking client command rest) : (n.pass w client command rest).Single := by
  obtain ⟨ha, hat⟩ := hs.switching w hw
  obtain ⟨closing, owned⟩ := h.setClient hw fun c => { c with passed := c.passed ++ [command] }
  obtain rfl : w.phase.client = client := by rw [hp]; rfl
  have asks : ∀ next, Single { n.setClient w.phase.client fun c =>
      { c with passed := c.passed ++ [command] } with
      switching := some { w with phase := .asking w.phase.client next rest } } := fun next =>
    Closing.single (closing.mono (fun _ => Iff.rfl) (fun _ _ => rfl) closing.stopped) rfl rfl ha
      ⟨owned.only, owned.calm⟩
  cases command with
  | serverInfo => exact asks .serverDefinitions
  | serverDefinitions => exact asks .subscribe
  | subscribe =>
    rw [hp] at hat
    obtain ⟨name, hname⟩ := hat
    obtain ⟨c, hc, -⟩ := Option.map_eq_some_iff.mp hname
    have present : (n.setClient w.phase.client fun c =>
        { c with passed := c.passed ++ [.subscribe] }).profile w.phase.client ≠ none := by
      simp [profile, Net.setClient, hc]
    have ready := settle_some_single (e := ⟨c.name, w.phase.client⟩) closing present owned
    simpa only [pass, hc, Option.map_some] using ready

theorem giveUp_releasing (client c : ℕ) :
    (∃ i t, (n.giveUp client).tasks i = some t ∧ t.stage = .releasing c) ↔
      (∃ i t, n.tasks i = some t ∧ t.stage = .releasing c) ∧ c ≠ client := by
  constructor
  · rintro ⟨i, _, hi, hs⟩
    obtain ⟨t, ht, rfl⟩ := Option.map_eq_some_iff.mp hi
    split at hs
    · cases hs
    next hne => exact ⟨⟨i, t, ht, hs⟩, fun hc => hne (hc ▸ hs)⟩
  · rintro ⟨⟨i, t, ht, hs⟩, hne⟩
    refine ⟨i, t, ?_, hs⟩
    have hother : t.stage ≠ .releasing client := fun he => hne (Stage.releasing.inj (hs.symm.trans he))
    simp [giveUp, ht, hother]

theorem finishRelease_single (h : n.Single) (client : ℕ) :
    ((n.setLink client .closed).finishRelease client).Single := by
  set m : Net := (n.setLink client .closed).finishRelease client with hm
  set gaveUp : Net := (n.setLink client .closed).giveUp client with hg
  have heq : m = if n.shutdown = .releasing client then { gaveUp with shutdown := .done }
      else gaveUp.scheduleReconnect := rfl
  have hl : m.linkOf = (n.setLink client .closed).linkOf := by
    rw [heq]
    split
    · rfl
    · exact scheduleReconnect_linkOf
  have tasks : m.tasks = gaveUp.tasks := by
    rw [heq]
    split
    · rfl
    · exact scheduleReconnect_frame.tasks
  have shutdown : m.shutdown = if n.shutdown = .releasing client then .done else n.shutdown := by
    rw [heq]
    split
    · rfl
    · exact scheduleReconnect_shutdown
  have destroyed : m.destroyed = n.destroyed := by
    rw [heq]
    split
    · rfl
    · exact scheduleReconnect_frame.destroyed
  have hr : ∀ c, m.Releases c ↔ n.Releases c ∧ c ≠ client := fun c => by
    have hs : m.shutdown = .releasing c ↔ n.shutdown = .releasing c ∧ c ≠ client := by
      rw [shutdown]
      split
      next hs =>
        rw [hs]
        exact iff_of_false nofun fun ⟨he, hne⟩ => hne (Shutdown.releasing.inj he).symm
      next hs => exact ⟨fun he => ⟨he, fun hc => hs (hc ▸ he)⟩, And.left⟩
    rw [Releases, Releases, hs, tasks, or_and_right]
    exact or_congr (giveUp_releasing client c) Iff.rfl
  have ho : ∀ d, m.Open d → d ≠ client ∧ n.Open d := fun d hd => (hd.of_linkOf hl).of_closed
  have ha : m.active = n.active := by
    rw [heq]
    split
    · rfl
    · exact scheduleReconnect_active
  have hw : m.switching = n.switching := by
    rw [heq]
    split
    · rfl
    · exact scheduleReconnect_frame.switching
  have owned : ∀ {d}, n.Owned d → m.Owned d := fun hd =>
    ⟨fun c hc => hd.only c (ho c hc).2, fun c hc => hd.calm c ((hr c).mp hc).1⟩
  exact {
    link := fun c hc => by
      obtain ⟨hc, hne⟩ := (hr c).mp hc
      rw [hl, linkOf_setLink_ne hne]
      exact h.link c hc
    one := fun c d hc hd => h.one c d ((hr c).mp hc).1 ((hr d).mp hd).1
    stopped := fun hs => by
      rw [destroyed]
      refine h.stopped fun hrun => hs ?_
      rw [shutdown, if_neg (by rw [hrun]; exact nofun), hrun]
    active := fun e he => owned (h.active e (ha ▸ he))
    switching := fun w hw' => owned (h.switching w (hw ▸ hw'))
    idle := fun hn hnw c hc => by
      obtain ⟨hne, hc⟩ := ho c hc
      exact (hr c).mpr ⟨h.idle (ha ▸ hn) (hw ▸ hnw) c hc, hne⟩ }

theorem disconnected_single (hs : n.Served) (h : n.Single) (client : ℕ) :
    (n.disconnected client).Single := by
  have others := finishRelease_single h client
  unfold disconnected
  dsimp only
  split
  next w hw =>
    obtain ⟨ha, -⟩ := hs.switching w hw
    have owned := h.switching w hw
    have next : w.phase.client = client → ∀ (m : Net) failed order,
        m.linkOf = (n.setLink client .closed).linkOf → (∀ c, m.Releases c ↔ n.Releases c) →
        m.active = none → (m.shutdown ≠ .running → m.destroyed = true) →
        (m.connectInOrder failed order).Single := fun hc m failed order hl hr ha hstop =>
      connectInOrder_single
        { h.toClosing.mono hr (fun c hc => absurd hc (owned.calm c)) hstop with
          active := ha
          idle := fun d hd => by
            obtain ⟨hne, hd⟩ := (hd.of_linkOf hl).of_closed
            exact absurd ((owned.only d hd).trans hc) hne }
        (fun _ c hc => owned.calm c ((hr c).mp hc)) failed order
    split
    next old alternate hp =>
      split
      next hc =>
        exact next (by rw [hp]; exact hc) { n.setLink client .closed with preferred := alternate } _ _
          rfl (fun _ => Iff.rfl) ha h.stopped
      · exact others
    next dropped rest hp =>
      split
      next hc => exact next (by rw [hp]; exact hc) _ _ _ rfl (fun _ => Iff.rfl) ha h.stopped
      · exact others
    · exact others
  · exact others

/-! ## Every orderly event keeps the invariant -/

theorem Single.step {networkId : ℕ} {e : Event} (hs : n.Served) (h : n.Single)
    (hok : n.orderly e) (hstep : n.step networkId e = some n') : n'.Single := by
  -- Nothing is released at a shutdown that has not begun.
  have calm : n.Attempts e → ∀ c, ¬ n.Releases c := fun hat c hc => by
    obtain hc | hc := hc
    · obtain ⟨i, t, ht, hst⟩ := hc
      exact hok hat ⟨i, t, c, ht, hst⟩
    · have := h.stopped (by simp [hc])
      rw [hat.2.2.1] at this
      cases this
  have ended : ∀ {i t} outcome, n.tasks i = some t → (∀ c, t.stage ≠ .releasing c) →
      (n.setStage i (.done outcome)).Single := fun {i t} outcome hi hne =>
    h.setStage (fun t' ht' => Option.some.inj (hi.symm.trans ht') ▸ hne) (by simp)
  cases e with
  | request | switchEndpoint | ensureConnected =>
    obtain rfl := Option.some.inj hstep
    exact start_single hs.toKnown h _ fun ha hw hd => calm ⟨ha, hw, hd, trivial⟩
  | transmit i =>
    simp only [Net.step] at hstep
    split at hstep <;> cases hstep
    next q client round hi =>
      have sent : (n.setStage i (.sent client round)).Single :=
        h.setStage (fun t ht => Option.some.inj (hi.symm.trans ht) ▸ (by simp)) (by simp)
      exact sent.mark _
  | reply i r =>
    simp only [Net.step] at hstep
    split at hstep
    next hi =>
      split at hstep <;> cases hstep
      exact ended _ hi (by simp)
    · cases hstep
  | fault i =>
    simp only [Net.step] at hstep
    split at hstep
    next q client round hi =>
      have marked : (n.mark (.failed i client)).Single := h.mark _
      have awake : (n.mark (.failed i client)).Awake i :=
        fun t ht => Option.some.inj (hi.symm.trans ht) ▸ (by simp)
      cases round with
      | first =>
        obtain rfl := Option.some.inj hstep
        exact failover_single marked awake _ _ fun ha hw hd => calm ⟨ha, hw, hd, q, client, hi⟩
      | second c =>
        dsimp only at hstep
        split at hstep <;> cases hstep
        next hc =>
          obtain ⟨e, he, rfl⟩ := Option.map_eq_some_iff.mp hc.1
          have owned := h.active e he
          set m : Net := (n.mark (.failed i e.client)).setStage i (.releasing e.client) with hm
          refine single_released (fun d hd => release_open (n := m) he owned.only hd)
            (fun d => ⟨fun hr => ?_, ?_⟩) ?_ release_active (release_frame.switching.trans hc.2)
            fun hs => release_frame.destroyed.trans (h.stopped (release_shutdown (n := m) ▸ hs))
          · obtain ⟨j, t, ht, hst⟩ | hr := hr
            · rw [release_frame.tasks] at ht
              obtain ⟨-, ht⟩ | ⟨rfl, t, -, rfl⟩ := tasks_update ht
              · exact absurd (.inl ⟨j, t, ht, hst⟩) (owned.calm d)
              · exact (Stage.releasing.inj hst).symm
            · exact absurd (.inr (release_shutdown (n := m) ▸ hr)) (owned.calm d)
          · rintro rfl
            refine .inl ⟨i, ⟨.request q, .releasing e.client⟩, ?_, rfl⟩
            rw [release_frame.tasks]
            simp [hm, Net.setStage, Net.mark, hi]
          · rw [release_linkOf (n := m) he]
            have serves : m.profile e.client = _ := hs.active e he
            exact linkOf_closing fun hn => absurd (serves.symm.trans hn) (by simp)
        · exact marked.setStage awake (by simp)
    · cases hstep
  | throw i =>
    simp only [Net.step] at hstep
    split at hstep <;> cases hstep
    next hi => exact ended _ hi (by simp)
  | connected =>
    simp only [Net.step] at hstep
    split at hstep <;> cases hstep
    next failed client rest hw =>
      obtain ⟨ha, -⟩ := hs.switching _ hw
      obtain ⟨closing, owned⟩ := h.setClient hw fun c => { c with link := .up, wasConnected := true }
      exact Closing.single (closing.mono (fun _ => Iff.rfl) (fun _ _ => rfl) closing.stopped) rfl rfl
        ha ⟨owned.only, owned.calm⟩
  | refused =>
    simp only [Net.step] at hstep
    split at hstep <;> cases hstep
    next hw => exact drop_single h hw (hs.switching _ hw).1 rfl _
  | answered answer =>
    simp only [Net.step] at hstep
    split at hstep
    next hw =>
      split at hstep <;> cases hstep
      · exact pass_single hs h hw rfl
      · exact drop_single h hw (hs.switching _ hw).1 rfl _
    · cases hstep
  | disconnected client =>
    simp only [Net.step] at hstep
    split at hstep <;> cases hstep
    exact disconnected_single hs h client
  | lost client =>
    simp only [Net.step] at hstep
    split at hstep
    next hup =>
      have down : (n.setLink client .down).Single := by
        refine h.mono (fun d hd => ?_) (fun _ => Iff.rfl) (fun c hc => ?_) rfl rfl h.stopped
        · obtain rfl | hd := hd.of_setLink
          · exact ⟨.up, hup, by simp⟩
          · exact hd
        · refine linkOf_setLink_ne fun he => ?_
          have hclosing := h.link c hc
          rw [he, hup] at hclosing
          cases hclosing
      split at hstep <;> cases hstep
      next hc =>
        refine start_single (hs.toKnown.of_frame (setLink_frame _ _)) down _ fun ha => ?_
        have ha : n.active = none := ha
        rw [show (n.setLink client .down).active = n.active from rfl, ha] at hc
        cases hc
      · exact down
    · cases hstep
  | timer =>
    simp only [Net.step] at hstep
    split at hstep <;> cases hstep
    next hr =>
      have fired : n.fire.Single :=
        h.mono (fun _ hd => hd) (fun _ => Iff.rfl) (fun _ _ => rfl) rfl rfl h.stopped
      have known : n.fire.Known := hs.toKnown.same rfl rfl rfl rfl
      exact start_single known fired _ fun ha hw hd => calm ⟨ha, hw, hd, hr⟩
  | shutdown =>
    simp only [Net.step] at hstep
    split at hstep
    · cases hstep
    next hrun =>
      have running : n.shutdown = .running := by
        by_contra hne
        exact hrun (h.stopped hne)
      split at hstep <;> cases hstep
      next hw =>
        refine h.mono (fun _ hd => hd) (fun c => or_congr Iff.rfl ?_) (fun _ _ => rfl) rfl rfl
          fun _ => rfl
        exact iff_of_false (by simp) fun hc => absurd (running.symm.trans hc) (by simp)
      next hw =>
        have hw : n.switching = none := by simpa using hw
        have stopped : n.destroy.Single :=
          h.mono (fun _ hd => hd) (fun _ => Iff.rfl) (fun _ _ => rfl) rfl rfl fun _ => rfl
        obtain ha | ⟨e, ha⟩ := Option.eq_none_or_eq_some n.active
        · refine (stopped.toIdle ha hw).finishShutdown hw rfl fun c hc => ?_
          rw [show n.shutdown = .releasing c from hc] at running
          cases running
        · have serves : n.profile e.client = _ := hs.active e ha
          exact finishShutdown_single (n := n.destroy) ha
            (fun hn => absurd (serves.symm.trans hn) (by simp)) (stopped.active e ha) hw rfl

/-! ## New clients -/

/-- A step calls `connect()` of one new client at most, and that client is then connecting. -/
def Creates (n n' : Net) : Prop :=
  n'.nextClient = n.nextClient ∨ n'.linkOf n.nextClient = some .connecting

theorem connectInOrder_creates (failed : Option ℕ) (order : List EndpointName) :
    n.Creates (n.connectInOrder failed order) := by
  unfold connectInOrder
  split
  · exact .inl (settle_frame none).nextClient
  · split
    · exact .inl (settle_frame none).nextClient
    · exact .inr (by simp [linkOf])

theorem connection_creates (i : ℕ) (round : Round) : n.Creates (n.connection i round) := by
  unfold connection
  split
  · exact .inl rfl
  · dsimp only
    split
    · exact .inl rfl
    · exact connectInOrder_creates (n := (n.setStage i (.waiting round)).mark (.attempted i)) _ _

theorem failover_creates (i failed : ℕ) (round : Round) :
    n.Creates (n.failover i failed round) := by
  unfold failover
  split
  · exact .inl rfl
  · split
    · split
      · exact .inl release_frame.nextClient
      · exact connection_creates i round
    · exact connection_creates i round

theorem start_creates (call : ConnectionCall) : n.Creates (n.start call) := by
  unfold start
  cases call with
  | request _ | ensureConnected | reconnect =>
    exact connection_creates (n := n.addTask _) n.nextTask .first
  | switchEndpoint =>
    dsimp only
    split
    · exact failover_creates (n := n.addTask _) n.nextTask _ .first
    · exact connection_creates (n := n.addTask _) n.nextTask .first
  | connectionLost client => exact failover_creates (n := n.addTask _) n.nextTask client .first

theorem finishRelease_nextClient (client : ℕ) :
    (n.finishRelease client).nextClient = n.nextClient := by
  unfold finishRelease
  dsimp only
  split
  · rfl
  · exact scheduleReconnect_frame.nextClient

theorem disconnected_creates (client : ℕ) : n.Creates (n.disconnected client) := by
  have others : n.Creates ((n.setLink client .closed).finishRelease client) :=
    .inl (finishRelease_nextClient client)
  have next : ∀ (m : Net) failed order, m.nextClient = n.nextClient →
      n.Creates (m.connectInOrder failed order) := fun m failed order hm => by
    have creates := connectInOrder_creates (n := m) failed order
    rwa [Creates, hm] at creates
  unfold disconnected
  dsimp only
  split
  · split
    · split
      · exact next { n.setLink client .closed with preferred := _ } _ _ rfl
      · exact others
    · split
      · exact next _ _ _ rfl
      · exact others
    · exact others
  · exact others

theorem step_creates {networkId : ℕ} {e : Event} (hstep : n.step networkId e = some n') :
    n.Creates n' := by
  cases e with
  | request | switchEndpoint | ensureConnected =>
    obtain rfl := Option.some.inj hstep
    exact start_creates _
  | fault i =>
    simp only [Net.step] at hstep
    split at hstep
    next q client round hi =>
      cases round with
      | first =>
        obtain rfl := Option.some.inj hstep
        exact failover_creates (n := n.mark (.failed i client)) i client _
      | second c =>
        dsimp only at hstep
        split at hstep <;> cases hstep
        · exact .inl release_frame.nextClient
        · exact .inl rfl
    · cases hstep
  | answered answer =>
    simp only [Net.step] at hstep
    split at hstep
    next failed client command rest hw =>
      split at hstep <;> cases hstep
      · cases command with
        | serverInfo | serverDefinitions => exact .inl rfl
        | subscribe => exact .inl (settle_frame _).nextClient
      · exact .inl rfl
    · cases hstep
  | disconnected client =>
    simp only [Net.step] at hstep
    split at hstep <;> cases hstep
    exact disconnected_creates client
  | lost client =>
    simp only [Net.step] at hstep
    split at hstep
    · split at hstep <;> cases hstep
      · exact start_creates (n := n.setLink client .down) _
      · exact .inl rfl
    · cases hstep
  | timer =>
    simp only [Net.step] at hstep
    split at hstep <;> cases hstep
    exact start_creates (n := n.fire) _
  | shutdown =>
    simp only [Net.step] at hstep
    split at hstep
    · cases hstep
    · split at hstep <;> cases hstep
      · exact .inl rfl
      · exact .inl finishShutdown_frame.nextClient
  | reply i r =>
    simp only [Net.step] at hstep
    split at hstep
    · split at hstep <;> cases hstep
      exact .inl rfl
    · cases hstep
  | transmit i | throw i | connected | refused =>
    simp only [Net.step] at hstep
    split at hstep <;> cases hstep
    exact .inl rfl

/-- An attempt calls `connect()` of a new client, and leaves the others as they are. -/
def Adds (n n' : Net) : Prop :=
  n'.nextClient = n.nextClient + 1 ∧ ∀ client < n.nextClient, n'.clients client = n.clients client

theorem connection_adds (ha : n.active = none) (hw : n.switching = none) (hd : n.destroyed = false)
    (i : ℕ) (round : Round) : n.Adds (n.connection i round) := by
  have heq : n.connection i round = { (n.setStage i (.waiting round)).mark (.attempted i) with
      clients := Function.update n.clients n.nextClient (some ⟨n.preferred, .connecting, false, []⟩)
      nextClient := n.nextClient + 1
      switching := some ⟨none, .connecting n.nextClient [otherEndpoint n.preferred]⟩ } := by
    simp [connection, ha, hw, connectInOrder, hd, setStage, mark]
  rw [heq]
  exact ⟨rfl, fun client hc => Function.update_of_ne hc.ne _ _⟩

theorem failover_adds (ha : n.active = none) (hw : n.switching = none) (hd : n.destroyed = false)
    (i failed : ℕ) (round : Round) : n.Adds (n.failover i failed round) := by
  have heq : n.failover i failed round = n.connection i round := by simp [failover, hw, ha]
  rw [heq]
  exact connection_adds ha hw hd i round

theorem attempt_adds {networkId : ℕ} {e : Event} (hat : n.Attempts e)
    (hstep : n.step networkId e = some n') : n.Adds n' := by
  obtain ⟨ha, hw, hd, he⟩ := hat
  cases e with
  | request | ensureConnected =>
    obtain rfl := Option.some.inj hstep
    exact connection_adds (n := n.addTask _) ha hw hd _ _
  | switchEndpoint =>
    obtain rfl := Option.some.inj hstep
    unfold start
    dsimp only
    rw [ha]
    exact connection_adds (n := n.addTask _) ha hw hd _ _
  | timer =>
    simp only [Net.step, if_pos he] at hstep
    obtain rfl := Option.some.inj hstep
    exact connection_adds (n := n.fire.addTask _) ha hw hd _ _
  | fault i =>
    obtain ⟨q, client, hi⟩ := he
    simp only [Net.step, hi] at hstep
    obtain rfl := Option.some.inj hstep
    exact failover_adds (n := n.mark (.failed i client)) ha hw hd _ _ _
  | _ => exact he.elim

/-- When `connect()` of a new client is called, every earlier client has completed
`disconnect()` or was never connected. -/
def ConnectsAlone (n n' : Net) : Prop :=
  n.nextClient < n'.nextClient → ∀ client < n.nextClient, ¬ n'.Connected client

theorem single_init : Single {} where
  link _ hc := by obtain ⟨_, _, ht, -⟩ | hc := hc <;> cases ‹_›
  one _ _ hc := by obtain ⟨_, _, ht, -⟩ | hc := hc <;> cases ‹_›
  stopped hs := absurd rfl hs
  active _ he := by cases he
  switching _ hw := by cases hw
  idle _ _ _ hc := by obtain ⟨_, hl, -⟩ := hc; cases hl

end Net

theorem single {networkId : ℕ} {n : Net} (h : (manager networkId).Reach Net.orderly n) : n.Single :=
  h.inv (fun _ hn => hn ▸ Net.single_init) fun _ _ _ hr hi hstep hok =>
    hi.step (served hr) hok hstep

/-- **At most one connected client**, in every run in which no call starts to connect during the
release of a request that failed on both endpoints; and after such a run the next `connect()` is
called while no earlier client is connected if and only if it is not called during that release. -/
theorem one_connection (networkId : ℕ) :
    (∀ n, (manager networkId).Reach Net.orderly n →
      ∀ c d, n.Connected c → n.Connected d → c = d) ∧
    ∀ n e n', (manager networkId).Reach Net.orderly n → n.step networkId e = some n' →
      (n.ConnectsAlone n' ↔ n.orderly e) := by
  refine ⟨fun n h c d hc hd => (single h).one_open hc.open hd.open, fun n e n' h hs =>
    ⟨fun halone hat ⟨i, t, client, hi, hst⟩ => ?_, fun hok hlt client hc hconn => ?_⟩⟩
  · obtain ⟨hnext, hsame⟩ := Net.attempt_adds hat hs
    obtain ⟨name, hb⟩ := (served h).given i t hi client (by rw [hst]; exact List.mem_cons_self)
    have hlt : client < n.nextClient := (served h).fresh client (by rw [hb]; exact nofun)
    obtain ⟨c, hc, he⟩ := Option.map_eq_some_iff.mp hb
    have hl := (single h).link client (.inl ⟨i, t, hi, hst⟩)
    rw [Net.linkOf, hc] at hl
    have hl : c.link = .closing := Option.some.inj hl
    refine halone (by omega) client hlt ⟨c, (hsame client hlt).trans hc, ?_, by rw [hl]; exact nofun⟩
    exact (Prod.mk.inj (Prod.mk.inj he).2).1
  · have single' : n'.Single := (single h).step (served h) hok hs
    obtain hsame | hnew := Net.step_creates hs
    · omega
    · have := single'.one_open hconn.open ⟨.connecting, hnew, nofun⟩
      omega

/-- The second transmission fails too. -/
def failedTwice : List Event := retried ++ [.fault 0]

/-- No request that failed on both endpoints awaits the `disconnect()` of its client. -/
def Net.calm (n : Net) : Bool :=
  (List.range n.nextTask).all fun i => (n.tasks i).all fun t =>
    match t.stage with
    | .releasing _ => false
    | _ => true

/-- No release is awaited when an event comes on which a call can start to connect. -/
def Net.calmly (n : Net) : Event → Bool
  | .request _ | .switchEndpoint | .ensureConnected | .timer | .fault _ => n.calm
  | _ => true

theorem orderly_of_calmly {n : Net} {e : Event} (h : n.Served) (hcalm : n.calmly e = true) :
    n.orderly e := by
  rintro ⟨-, -, -, he⟩ ⟨i, t, client, hi, hst⟩
  have hall : n.calm = true := by
    cases e with
    | request | switchEndpoint | ensureConnected | timer | fault => exact hcalm
    | _ => exact he.elim
  have hi' := List.all_eq_true.mp hall i (List.mem_range.mpr (h.numbered i t hi))
  rw [hi, Option.all_some, hst] at hi'
  cases hi'

theorem reach_orderly (es : List Event) {n : Net}
    (h : ((manager 1).restrict fun n e => n.calmly e = true).play {} es = some n) :
    (manager 1).Reach Net.orderly n := by
  have hreach := Machine.Reach.of_restrict (m := manager 1) rfl h
  exact hreach.inv (fun s hs => ⟨s, [], hs, .refl⟩) fun s e s' hs ih hstep hcalm =>
    ih.step hstep (orderly_of_calmly (served hs) hcalm)

/-- Once the client of the failed request has been released, another one is connected alone. -/
theorem one_connection_released : ∃ n, (manager 1).play {}
      (failedTwice ++ [.disconnected 1, .request .fee] ++ healthyAnswers) = some n ∧
    n.Connected 2 ∧ ∀ c, n.Connected c → c = 2 := by
  have connected : ∀ {n : Net} {c : LedgerClient}, n.clients 2 = some c → c.wasConnected = true →
      c.link = .up → n.Connected 2 := fun hc hw hl => ⟨_, hc, hw, by rw [hl]; exact nofun⟩
  exact ⟨_, rfl, connected rfl rfl rfl, fun c hc =>
    (one_connection 1).1 _ (reach_orderly (failedTwice ++ [.disconnected 1, .request .fee] ++
      healthyAnswers) rfl) c 2 hc (connected rfl rfl rfl)⟩

/-- While that client is being released another request makes the manager connect. -/
theorem two_connected :
    (∃ n n', (manager 1).play {} failedTwice = some n ∧ n.step 1 (.request .fee) = some n' ∧
      ¬ n.ConnectsAlone n') ∧
    ∃ n, (manager 1).play {} (failedTwice ++ [.request .fee, .connected]) = some n ∧
      n.Connected 1 ∧ n.Connected 2 := by
  have lost : ∀ {n : Net} {c : LedgerClient}, n.clients 1 = some c → c.wasConnected = true →
      c.link = .closing → n.Connected 1 := fun hc hw hl => ⟨_, hc, hw, by rw [hl]; exact nofun⟩
  exact ⟨⟨_, _, rfl, rfl, fun h => h (by decide) 1 (by decide) (lost rfl rfl rfl)⟩,
    _, rfl, lost rfl rfl rfl, _, rfl, rfl, nofun⟩

end Orchestrator
