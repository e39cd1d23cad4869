import Orchestrator.Connection.Served
import Mathlib.Data.List.Basic

/-!
# Delivery of requests

* `Delivered`: what a request may leave in the trace, at most two transmissions;
* `Task.Fits`: what it has left there at each of its stages;
* `Net.Delivery`, kept by every event (`Delivery.step`);
* **`request_delivery`**.
-/

namespace Orchestrator

open Interleave

/-- The call that the entry is about. -/
def Mark.task : Mark → ℕ
  | .sent task _ _ | .failed task _ | .left _ task | .attempted task => task

/-- A transmission, or its failure. -/
def Mark.transmits : Mark → Bool
  | .sent _ _ _ | .failed _ _ => true
  | .left _ _ | .attempted _ => false

/-- A failover that leaves the client. -/
def Mark.leaves (client : ℕ) : Mark → Bool
  | .left c _ => c = client
  | _ => false

/-- At most one transmission and, after it failed, another one on another client. -/
def Delivered (i : ℕ) (q : LedgerRequest) (log : List Mark) : Prop :=
  ∃ c d, c ≠ d ∧ log <+: [.sent i q c, .failed i c, .sent i q d, .failed i d]

/-- What precedes the round. -/
def Round.log (i : ℕ) (q : LedgerRequest) : Round → List Mark
  | .first => []
  | .second failed => [.sent i q failed, .failed i failed]

/-- The transmissions of a call so far, by its stage. -/
def Task.Fits (i : ℕ) (log : List Mark) (t : Task) : Prop :=
  match t.call with
  | .request q => match t.stage with
    | .waiting round => log = round.log i q
    | .holding client round => log = round.log i q ∧ client ∉ round.clients
    | .sent client round => log = round.log i q ++ [.sent i q client] ∧ client ∉ round.clients
    | .releasing _ | .done _ => Delivered i q log
  | _ => log = []

namespace Net

/-- The transmissions of a call, in their order. -/
def logOf (n : Net) (i : ℕ) : List Mark := n.trace.filter fun m => m.transmits && m.task == i

/-- The invariant of the trace. -/
structure Delivery (n : Net) : Prop where
  fits : ∀ i t, n.tasks i = some t → t.Fits i (n.logOf i)
  known : ∀ m ∈ n.trace, n.tasks m.task ≠ none
  sent : ∀ i q client, .sent i q client ∈ n.trace → n.Bootstrapped client
  left : ∀ client i, .left client i ∈ n.trace →
    n.Bootstrapped client ∧ ∀ e, n.active = some e → e.client ≠ client
  once : ∀ client, n.trace.countP (Mark.leaves client) ≤ 1
  cause : ∀ i q stage client, n.tasks i = some ⟨.request q, stage⟩ → .left client i ∈ n.trace →
    .failed i client ∈ n.trace

end Net

/-! ## Logs of one call -/

section

variable {i : ℕ} {q : LedgerRequest} {log : List Mark}

theorem Delivered.nil : Delivered i q [] := ⟨0, 1, by decide, List.nil_prefix⟩

theorem Delivered.first (c : ℕ) : Delivered i q [.sent i q c] :=
  ⟨c, c + 1, by omega, [.failed i c, .sent i q (c + 1), .failed i (c + 1)], rfl⟩

theorem Delivered.failed (c : ℕ) : Delivered i q [.sent i q c, .failed i c] :=
  ⟨c, c + 1, by omega, [.sent i q (c + 1), .failed i (c + 1)], rfl⟩

/-- A round and one more transmission. -/
theorem Delivered.sent {round : Round} {d : ℕ} (h : d ∉ round.clients) :
    Delivered i q (round.log i q ++ [.sent i q d]) := by
  cases round with
  | first => exact .first d
  | second c =>
    have hne : c ≠ d := fun he => h (by simp [Round.clients, he])
    exact ⟨c, d, hne, [.failed i d], rfl⟩

/-- The second round and the failure of its transmission. -/
theorem Delivered.over {c d : ℕ} (h : d ∉ (Round.second c).clients) :
    Delivered i q ((Round.second c).log i q ++ [.sent i q d] ++ [.failed i d]) :=
  ⟨c, d, fun he => h (by simp [Round.clients, he]), [], rfl⟩

theorem Delivered.round (round : Round) : Delivered i q (round.log i q) := by
  cases round with
  | first => exact .nil
  | second c => exact .failed c

/-- At every stage the request has been delivered as it may. -/
theorem Task.Fits.delivered {stage : Stage} (h : Task.Fits i log ⟨.request q, stage⟩) :
    Delivered i q log := by
  cases stage with
  | waiting round => exact h ▸ .round round
  | holding client round => exact h.1 ▸ .round round
  | sent client round => exact h.1 ▸ .sent h.2
  | releasing client => exact h
  | done outcome => exact h

theorem Task.Fits.done {t : Task} {outcome : ConnectionOutcome} (h : t.Fits i log) :
    Task.Fits i log { t with stage := .done outcome } := by
  obtain ⟨call, stage⟩ := t
  cases call with
  | request q => exact h.delivered
  | _ => exact h

theorem Task.Fits.obtain {t : Task} {round : Round} {client : ℕ} (hs : t.stage = .waiting round)
    (hc : client ∉ round.clients) (h : t.Fits i log) : (t.obtain round client).Fits i log := by
  obtain ⟨call, stage⟩ := t
  obtain rfl : stage = .waiting round := hs
  cases call with
  | request q => exact ⟨h, hc⟩
  | _ => exact h

theorem Task.Fits.resume {t : Task} {result : Option ℕ} (hc : ∀ c ∈ result, c ∉ t.stage.clients)
    (h : t.Fits i log) : (t.resume result).Fits i log := by
  unfold Task.resume
  split
  next round hs =>
    split
    next c =>
      have hn := hc c rfl
      rw [hs] at hn
      exact h.obtain hs hn
    · exact h.done
  · exact h

end

@[simp] theorem Task.obtain_call (t : Task) (round : Round) (client : ℕ) :
    (t.obtain round client).call = t.call := by
  unfold Task.obtain
  split <;> rfl

@[simp] theorem Task.resume_call (t : Task) (result : Option ℕ) :
    (t.resume result).call = t.call := by
  unfold Task.resume
  split
  · split
    · exact t.obtain_call _ _
    · rfl
  · rfl

namespace Net

variable {n n' : Net}

/-- A failover from the client was counted, and the client is gone for good. -/
def HasLeft (n : Net) (client : ℕ) : Prop := ∃ i, .left client i ∈ n.trace

theorem Delivery.not_left (h : n.Delivery) {e : ActiveEndpoint} (he : n.active = some e) :
    ¬ n.HasLeft e.client := fun ⟨i, hi⟩ => (h.left _ i hi).2 e he rfl

theorem Delivery.count_left (h : ¬ n.HasLeft client) : n.trace.countP (Mark.leaves client) = 0 := by
  rw [List.countP_eq_zero]
  intro m hm hl
  cases m with
  | left c i =>
    obtain rfl : c = client := by simpa [Mark.leaves] using hl
    exact h ⟨i, hm⟩
  | _ => simp [Mark.leaves] at hl

/-- Calls move on without a new entry in the trace. -/
theorem Delivery.of_tasks (h : n.Delivery) (hk : n.Keeps n') (ht : n'.trace = n.trace)
    (hn : ∀ i, n.tasks i ≠ none → n'.tasks i ≠ none)
    (hi : ∀ i t', n'.tasks i = some t' → (n.tasks i = none ∧ t'.Fits i []) ∨
      ∃ t, n.tasks i = some t ∧ t'.call = t.call ∧
        ∀ log, t.Fits i log → t'.Fits i log)
    (ha : ∀ e, n'.active = some e → n.active = some e ∨ ¬ n.HasLeft e.client) : n'.Delivery where
  fits i t' ht' := by
    have hlog : n'.logOf i = n.logOf i := by rw [logOf, ht, logOf]
    obtain ⟨hnone, hf⟩ | ⟨t, hs, -, hf⟩ := hi i t' ht'
    · have empty : n.logOf i = [] := List.filter_eq_nil_iff.mpr fun m hm hd => by
        simp only [Bool.and_eq_true, beq_iff_eq] at hd
        exact h.known m hm (hd.2 ▸ hnone)
      rw [hlog, empty]
      exact hf
    · exact hlog ▸ hf _ (h.fits i t hs)
  known m hm := hn _ (h.known m (ht ▸ hm))
  sent i q client hm := hk.bootstrapped (h.sent i q client (ht ▸ hm))
  left client i hm := by
    obtain ⟨hb, hl⟩ := h.left client i (ht ▸ hm)
    exact ⟨hk.bootstrapped hb, fun e he => (ha e he).elim (hl e) fun hne hc =>
      hne (hc ▸ ⟨i, ht ▸ hm⟩)⟩
  once client := ht ▸ h.once client
  cause i q stage client hq hm := by
    rw [ht] at hm ⊢
    obtain ⟨hnone, -⟩ | ⟨⟨call, stage'⟩, hs, hcall, -⟩ := hi i _ hq
    · exact absurd hnone (h.known _ hm)
    · obtain rfl : ConnectionCall.request q = call := hcall
      exact h.cause i q stage' client hs hm

/-- Neither the calls, the trace nor what serves has changed. -/
theorem Delivery.same (h : n.Delivery) (hk : n.Keeps n') (ht : n'.trace = n.trace)
    (htasks : n'.tasks = n.tasks) (ha : ∀ e, n'.active = some e → n.active = some e) : n'.Delivery :=
  h.of_tasks hk ht (fun _ hi => htasks ▸ hi)
    (fun _ t' ht' => .inr ⟨t', htasks ▸ ht', rfl, fun _ hf => hf⟩) fun e he => .inl (ha e he)

theorem Delivery.of_frame (h : n.Delivery) (hf : n.Frame n')
    (ha : ∀ e, n'.active = some e → n.active = some e) :
    n'.Delivery :=
  h.same hf.keeps hf.trace hf.tasks ha

/-- The tracked work ends, with a client that served no call before. -/
theorem settle_delivery (h : n.Delivery) {endpoint : Option ActiveEndpoint}
    (he : ∀ e, endpoint = some e → ¬ n.HasLeft e.client ∧
      ∀ i t, n.tasks i = some t → e.client ∉ t.stage.clients) : (n.settle endpoint).Delivery := by
  have frame := settle_frame (n := n) endpoint
  refine h.of_tasks (.of_profile frame.profile) frame.trace (fun _ hi => ?_) (fun i t' ht' => ?_)
    fun e ha => ?_
  · rw [frame.tasks]
    simpa using hi
  · rw [frame.tasks] at ht'
    obtain ⟨t, ht, rfl⟩ := Option.map_eq_some_iff.mp ht'
    refine .inr ⟨t, ht, t.resume_call _, fun log hf => hf.resume fun c hc => ?_⟩
    obtain ⟨e, rfl, rfl⟩ := Option.map_eq_some_iff.mp hc
    exact (he e rfl).2 i t ht
  · obtain rfl | ⟨rfl, hold⟩ := settle_active ha
    · exact .inr (he e rfl).1
    · exact .inl hold

theorem connectInOrder_delivery (hk : n.Known) (h : n.Delivery) (ha : n.active = none)
    (failed : Option ℕ) (order : List EndpointName) : (n.connectInOrder failed order).Delivery := by
  have settled : (n.settle none).Delivery := settle_delivery h fun _ he => by cases he
  have keeps := (connectInOrder_advance hk ha failed order).keeps
  unfold connectInOrder at keeps ⊢
  cases order with
  | nil => exact settled
  | cons name rest =>
    dsimp only at keeps ⊢
    split
    · exact settled
    next hd =>
      rw [if_neg hd] at keeps
      exact h.same keeps rfl rfl fun _ he => he

theorem logOf_mark (m : Mark) (i : ℕ) : (n.mark m).logOf i =
    if m.transmits && m.task == i then n.logOf i ++ [m] else n.logOf i := by
  simp only [logOf, mark, List.filter_append, List.filter_singleton]
  cases m.transmits && m.task == i <;> simp

theorem tasks_setStage_ne_none {i j : ℕ} {stage : Stage} (h : n.tasks j ≠ none) :
    (n.setStage i stage).tasks j ≠ none := by
  by_cases hij : j = i
  · subst hij
    simpa [setStage] using h
  · simpa [setStage, Function.update_of_ne hij] using h

/-- A call transmits its request, or sees the transmission fail. -/
theorem Delivery.transmit (h : n.Delivery) {m : Mark} (hm : m.transmits = true)
    (hex : n.tasks m.task ≠ none) {stage : Stage}
    (hf : ∀ t, n.tasks m.task = some t → Task.Fits m.task (n.logOf m.task ++ [m]) { t with stage })
    (hs : ∀ i q client, m = .sent i q client → n.Bootstrapped client) :
    ((n.mark m).setStage m.task stage).Delivery where
  fits i t' hi := by
    show t'.Fits i ((n.mark m).logOf i)
    rw [logOf_mark]
    obtain ⟨hne, hi⟩ | ⟨rfl, t, ht, rfl⟩ := tasks_update hi
    · rw [if_neg (by simp [hne.symm])]
      exact h.fits i t' hi
    · rw [if_pos (by simp [hm])]
      exact hf t ht
  known m' hm' := by
    refine tasks_setStage_ne_none ?_
    obtain hm' | hm' := List.mem_append.mp hm'
    · exact h.known m' hm'
    · exact List.mem_singleton.mp hm' ▸ hex
  sent i q client hi := by
    obtain hi | hi := List.mem_append.mp hi
    · exact h.sent i q client hi
    · exact hs i q client (List.mem_singleton.mp hi).symm
  left client i hi := by
    obtain hi | hi := List.mem_append.mp hi
    · exact h.left client i hi
    · obtain rfl := List.mem_singleton.mp hi
      cases hm
  once client := by
    show (n.trace ++ [m]).countP _ ≤ 1
    have hne : Mark.leaves client m = false := by cases m <;> first | rfl | cases hm
    rw [List.countP_append, List.countP_singleton, hne]
    exact h.once client
  cause i q stage' client hi hl := by
    have hl : .left client i ∈ n.trace := by
      obtain hl | hl := List.mem_append.mp hl
      · exact hl
      · obtain rfl := List.mem_singleton.mp hl
        cases hm
    obtain ⟨-, hi⟩ | ⟨rfl, ⟨_, stage⟩, ht, he⟩ := tasks_update hi
    · exact List.mem_append_left _ (h.cause i q stage' client hi hl)
    · obtain ⟨rfl, -⟩ := Task.mk.inj he
      exact List.mem_append_left _ (h.cause _ q stage client ht hl)

/-- An entry that is no transmission. -/
theorem logOf_mark_other {m : Mark} (hm : m.transmits = false) (i : ℕ) :
    (n.mark m).logOf i = n.logOf i := by
  rw [logOf_mark, hm, Bool.false_and, if_neg Bool.false_ne_true]

/-- A call starts to connect. -/
theorem Delivery.attempt (h : n.Delivery) {i : ℕ} (hex : n.tasks i ≠ none) :
    (n.mark (.attempted i)).Delivery where
  fits j t ht := logOf_mark_other (n := n) (m := .attempted i) rfl j ▸ h.fits j t ht
  known m hm := by
    obtain hm | hm := List.mem_append.mp hm
    · exact h.known m hm
    · obtain rfl := List.mem_singleton.mp hm
      exact hex
  sent j q client hj := h.sent j q client (by simpa [mark] using hj)
  left client j hj := h.left client j (by simpa [mark] using hj)
  once client := by simpa [mark, Mark.leaves] using h.once client
  cause j q stage client hj hl := by
    simpa [mark] using h.cause j q stage client hj (by simpa [mark] using hl)

/-- A call starts a failover. -/
theorem Delivery.leave (h : n.Delivery) {i : ℕ} (hex : n.tasks i ≠ none) {e : ActiveEndpoint}
    (he : n.active = some e) (hb : n.Bootstrapped e.client)
    (hc : ∀ q stage, n.tasks i = some ⟨.request q, stage⟩ → .failed i e.client ∈ n.trace) :
    (n.mark (.left e.client i)).release.Delivery := by
  set m : Net := n.mark (.left e.client i) with hm
  have frame : m.Frame m.release := release_frame
  have trace : m.release.trace = n.trace ++ [.left e.client i] := frame.trace
  have tasks : m.release.tasks = n.tasks := frame.tasks
  have keeps : n.Keeps m.release := .of_profile frame.profile
  have log : ∀ j, m.release.logOf j = n.logOf j := fun j => by
    rw [← logOf_mark_other (n := n) (m := .left e.client i) rfl j, logOf, frame.trace, logOf]
  refine ⟨fun j t ht => ?_, fun k hk => ?_, fun j q client hj => ?_, fun client j hj => ?_,
    fun client => ?_, fun j q stage client hj hl => ?_⟩
  · rw [log]
    exact h.fits j t (tasks ▸ ht)
  · rw [tasks]
    rw [trace] at hk
    obtain hk | hk := List.mem_append.mp hk
    · exact h.known k hk
    · exact List.mem_singleton.mp hk ▸ hex
  · rw [trace] at hj
    exact keeps.bootstrapped (h.sent j q client (by simpa using hj))
  · rw [trace] at hj
    refine ⟨keeps.bootstrapped ?_, fun e' he' => by rw [release_active] at he'; cases he'⟩
    obtain hj | hj := List.mem_append.mp hj
    · exact (h.left client j hj).1
    · obtain ⟨rfl, -⟩ := Mark.left.inj (List.mem_singleton.mp hj)
      exact hb
  · rw [trace, List.countP_append, List.countP_singleton]
    by_cases hec : e.client = client
    · subst hec
      rw [Delivery.count_left (h.not_left he)]
      split <;> decide
    · rw [if_neg (by simpa [Mark.leaves] using hec)]
      exact h.once client
  · rw [tasks] at hj
    rw [trace] at hl ⊢
    obtain hl | hl := List.mem_append.mp hl
    · exact List.mem_append_left _ (h.cause j q stage client hj hl)
    · obtain ⟨rfl, rfl⟩ := Mark.left.inj (List.mem_singleton.mp hl)
      exact List.mem_append_left _ (hc q stage hj)

/-! ## The methods keep the invariant -/

/-- The call asks for an endpoint: a first one, or one that is not the one that failed. -/
theorem connection_delivery (hs : n.Served) {i : ℕ} {round : Round}
    (hr : ∀ client ∈ round.clients, n.Bootstrapped client)
    (h : (n.setStage i (.waiting round)).Delivery) (hex : n.tasks i ≠ none)
    (ha : ∀ e, n.active = some e → e.client ∉ round.clients) : (n.connection i round).Delivery := by
  have known : (n.setStage i (.waiting round)).Known := hs.toKnown.setStage i hr
  have exists' : (n.setStage i (.waiting round)).tasks i ≠ none := tasks_setStage_ne_none hex
  unfold connection
  split
  next e he =>
    refine h.of_tasks .refl rfl (fun j hj => ?_) (fun j t' hj => ?_) fun _ he => .inl he
    · by_cases hij : j = i
      · subst hij
        simpa using hex
      · simpa [setStage, Function.update_of_ne hij] using hj
    · obtain ⟨hne, hj⟩ | ⟨rfl, t, ht, rfl⟩ := tasks_update hj
      · exact .inr ⟨t', by simpa [setStage, Function.update_of_ne hne] using hj, rfl, fun _ hf => hf⟩
      · refine .inr ⟨{ t with stage := .waiting round }, by simp [setStage, ht], t.obtain_call _ _,
          fun log hf => ?_⟩
        exact Task.Fits.obtain (t := { t with stage := .waiting round }) rfl (ha e he) hf
  next hn =>
    dsimp only
    split
    · exact h
    · have attempted : ((n.setStage i (.waiting round)).mark (.attempted i)).Known :=
        known.same rfl rfl rfl rfl
      exact connectInOrder_delivery attempted (h.attempt exists') hn _ _

theorem failover_delivery (hs : n.Served) {i failed : ℕ} {round : Round}
    (hr : ∀ client ∈ round.clients, n.Bootstrapped client)
    (h : (n.setStage i (.waiting round)).Delivery) (hex : n.tasks i ≠ none)
    (hf : ∀ client ∈ round.clients, client = failed)
    (hc : ∀ q stage, n.tasks i = some ⟨.request q, stage⟩ → .failed i failed ∈ n.trace) :
    (n.failover i failed round).Delivery := by
  unfold failover
  split
  · exact h
  · split
    next e he =>
      split
      next hfe =>
        subst hfe
        have exists' : (n.setStage i (.waiting round)).tasks i ≠ none := tasks_setStage_ne_none hex
        have left := h.leave exists' he ⟨_, hs.active e he⟩ fun q stage hi => by
          obtain ⟨hne, -⟩ | ⟨-, ⟨_, stage⟩, ht, he⟩ := tasks_update hi
          · exact absurd rfl hne
          · obtain ⟨rfl, -⟩ := Task.mk.inj he
            exact hc q stage ht
        exact left.same .refl rfl rfl fun _ he => he
      next hfe =>
        refine connection_delivery hs hr h hex fun e' he' hm => hfe ?_
        obtain rfl : e = e' := Option.some.inj (he.symm.trans he')
        exact hf _ hm
    next hn =>
      exact connection_delivery hs hr h hex fun e he => by rw [hn] at he; cases he

theorem addTask_ne_none {call : ConnectionCall} {j : ℕ} (h : n.tasks j ≠ none) :
    (n.addTask call).tasks j ≠ none := by
  by_cases hj : j = n.nextTask
  · simp [addTask, hj]
  · simpa [addTask, Function.update_of_ne hj] using h

theorem addTask_setStage (call : ConnectionCall) :
    (n.addTask call).setStage n.nextTask (.waiting .first) = n.addTask call := by
  simp [addTask, setStage]

theorem start_delivery (hs : n.Served) (h : n.Delivery) (call : ConnectionCall) :
    (n.start call).Delivery := by
  have added : (n.addTask call).Served := ⟨hs.toKnown.addTask call, hs.active, hs.switching⟩
  have hnone : n.tasks n.nextTask = none := by
    by_contra hne
    obtain ⟨t, ht⟩ := Option.ne_none_iff_exists'.mp hne
    exact absurd (hs.numbered _ t ht) (Nat.lt_irrefl _)
  have h : ((n.addTask call).setStage n.nextTask (.waiting .first)).Delivery := by
    rw [addTask_setStage]
    refine h.of_tasks .refl rfl (fun j hj => ?_) (fun j t' hj => ?_) fun _ he => .inl he
    · exact addTask_ne_none hj
    · obtain ⟨rfl, rfl⟩ | ⟨-, hj⟩ := addTask_tasks hj
      · exact .inl ⟨hnone, by cases call <;> rfl⟩
      · exact .inr ⟨t', hj, rfl, fun _ hf => hf⟩
  have hex : (n.addTask call).tasks n.nextTask ≠ none := by simp [addTask]
  unfold start
  cases call with
  | request _ | ensureConnected | reconnect =>
    exact connection_delivery added Round.first_clients h hex fun _ _ hc =>
      Round.first_clients (p := fun _ => False) _ hc
  | switchEndpoint =>
    dsimp only
    split
    · exact failover_delivery added Round.first_clients h hex Round.first_clients
        fun q stage hi => by simp [addTask] at hi
    · exact connection_delivery added Round.first_clients h hex fun _ _ hc =>
        Round.first_clients (p := fun _ => False) _ hc
  | connectionLost client =>
    exact failover_delivery added Round.first_clients h hex Round.first_clients
      fun q stage hi => by simp [addTask] at hi

theorem pass_delivery (hs : n.Served) (h : n.Delivery) {w : Switch} {client : ℕ}
    {command : BootstrapCommand} {rest : List EndpointName} (hw : n.switching = some w)
    (hp : w.phase = .asking client command rest) : (n.pass w client command rest).Delivery := by
  obtain ⟨ha, hat⟩ := hs.switching w hw
  rw [hp] at hat
  have not_serving := hat.asking
  have passed : (n.setClient client fun c => { c with passed := c.passed ++ [command] }).Delivery :=
    h.same (keeps_setClient not_serving) rfl rfl fun _ he => he
  cases command with
  | serverInfo | serverDefinitions => exact passed.same .refl rfl rfl fun _ he => he
  | subscribe =>
    refine settle_delivery passed fun e he => ?_
    obtain ⟨c, -, rfl⟩ := Option.map_eq_some_iff.mp he
    exact ⟨fun ⟨i, hi⟩ => not_serving (h.left client i hi).1,
      fun i t hi hc => not_serving (hs.given i t hi client hc)⟩

theorem finishRelease_delivery (h : n.Delivery) (client : ℕ) :
    (n.finishRelease client).Delivery := by
  have gaveUp : (n.giveUp client).Delivery := by
    refine h.of_tasks .refl rfl (fun i hi => by simpa [giveUp] using hi) (fun i t' hi => ?_)
      fun _ he => .inl he
    obtain ⟨t, ht, rfl⟩ := Option.map_eq_some_iff.mp hi
    refine .inr ⟨t, ht, by split <;> rfl, fun log hf => ?_⟩
    split
    · exact hf.done
    · exact hf
  unfold finishRelease
  dsimp only
  split
  · exact gaveUp.same .refl rfl rfl fun _ he => he
  · exact gaveUp.of_frame scheduleReconnect_frame fun _ he => by
      rwa [scheduleReconnect_active] at he

theorem disconnected_delivery (hs : n.Served) (h : n.Delivery) (client : ℕ) :
    (n.disconnected client).Delivery := by
  have frame : n.Frame (n.setLink client .closed) := setLink_frame _ _
  have closed : (n.setLink client .closed).Delivery := h.of_frame frame fun _ he => he
  have known : (n.setLink client .closed).Known := hs.toKnown.of_frame frame
  have others := finishRelease_delivery closed client
  unfold disconnected
  dsimp only
  split
  next w hw =>
    obtain ⟨ha, -⟩ := hs.switching w hw
    split
    next old alternate _ =>
      split
      · have preferred : Known { n.setLink client .closed with preferred := alternate } :=
          known.same rfl rfl rfl rfl
        exact connectInOrder_delivery preferred (closed.same .refl rfl rfl fun _ he => he) ha _ _
      · exact others
    · split
      · exact connectInOrder_delivery known closed ha _ _
      · exact others
    · exact others
  · exact others

/-! ## Every event keeps the invariant -/

theorem Delivery.step {networkId : ℕ} {e : Event} (hs : n.Served) (h : n.Delivery)
    (hstep : n.step networkId e = some n') : n'.Delivery := by
  have present : ∀ {i t}, n.tasks i = some t → n.tasks i ≠ none := fun hi hn => by
    rw [hi] at hn
    cases hn
  have ended : ∀ {i t} outcome, n.tasks i = some t → (n.setStage i (.done outcome)).Delivery :=
    fun {i t} outcome hi => by
      refine h.of_tasks .refl rfl (fun j hj => tasks_setStage_ne_none hj) (fun j t' hj => .inr ?_)
        fun _ he => .inl he
      obtain ⟨-, hj⟩ | ⟨rfl, t, ht, rfl⟩ := tasks_update hj
      · exact ⟨t', hj, rfl, fun _ hf => hf⟩
      · exact ⟨t, ht, rfl, fun _ hf => hf.done⟩
  cases e with
  | request | switchEndpoint | ensureConnected =>
    obtain rfl := Option.some.inj hstep
    exact start_delivery hs h _
  | transmit i =>
    simp only [Net.step] at hstep
    split at hstep <;> cases hstep
    next q client round hi =>
      have sent : ((n.mark (.sent i q client)).setStage i (.sent client round)).Delivery :=
        h.transmit (m := .sent i q client) rfl (present hi)
          (fun t ht => by
            obtain rfl := Option.some.inj (hi.symm.trans ht)
            obtain ⟨hlog, hc⟩ := h.fits i _ hi
            exact ⟨congrArg (· ++ _) hlog, hc⟩)
          (fun _ _ _ hm => by
            obtain ⟨rfl, rfl, rfl⟩ := Mark.sent.inj hm
            exact hs.given i _ hi _ List.mem_cons_self)
      exact sent
  | reply i r =>
    simp only [Net.step] at hstep
    split at hstep
    next hi =>
      split at hstep <;> cases hstep
      exact ended _ hi
    · cases hstep
  | fault i =>
    simp only [Net.step] at hstep
    split at hstep
    next q client round hi =>
      obtain ⟨hlog, hc⟩ := h.fits i _ hi
      have hlog : n.logOf i = round.log i q ++ [.sent i q client] := hlog
      have hb : n.Bootstrapped client := hs.given i _ hi client List.mem_cons_self
      have marked : (n.mark (.failed i client)).Served :=
        ⟨hs.toKnown.same rfl rfl rfl rfl, hs.active, hs.switching⟩
      have failed : ∀ stage, Task.Fits i (n.logOf i ++ [.failed i client]) ⟨.request q, stage⟩ →
          ((n.mark (.failed i client)).setStage i stage).Delivery := fun stage hf =>
        h.transmit (m := .failed i client) rfl (present hi)
          (fun t ht => by
            obtain rfl := Option.some.inj (hi.symm.trans ht)
            exact hf)
          (fun _ _ _ hm => by cases hm)
      cases round with
      | first =>
        obtain rfl := Option.some.inj hstep
        refine failover_delivery marked (fun d hd => ?_) (failed _ ?_) (present hi)
          (fun d hd => List.mem_singleton.mp hd) fun _ _ _ => by simp [mark]
        · obtain rfl := List.mem_singleton.mp hd
          exact hb
        · exact congrArg (· ++ [Mark.failed i client]) hlog
      | second c =>
        have exhausted : Delivered i q (n.logOf i ++ [.failed i client]) := hlog ▸ Delivered.over hc
        dsimp only at hstep
        split at hstep <;> cases hstep
        · exact (failed (.releasing client) exhausted).of_frame release_frame fun _ he => by
            rw [release_active] at he
            cases he
        · exact failed _ exhausted
    · cases hstep
  | throw i =>
    simp only [Net.step] at hstep
    split at hstep <;> cases hstep
    next hi => exact ended _ hi
  | connected =>
    simp only [Net.step] at hstep
    split at hstep <;> cases hstep
    next hw =>
      obtain ⟨-, hat⟩ := hs.switching _ hw
      exact h.same (keeps_setClient hat.connecting) rfl rfl fun _ he => he
  | refused =>
    simp only [Net.step] at hstep
    split at hstep <;> cases hstep
    exact h.same (.of_profile (profile_setLink _ _)) rfl rfl fun _ he => he
  | answered answer =>
    simp only [Net.step] at hstep
    split at hstep
    next hw =>
      split at hstep <;> cases hstep
      · exact pass_delivery hs h hw rfl
      · exact h.same (.of_profile (profile_setLink _ _)) rfl rfl fun _ he => he
    · cases hstep
  | disconnected client =>
    simp only [Net.step] at hstep
    split at hstep <;> cases hstep
    exact disconnected_delivery hs h client
  | lost client =>
    simp only [Net.step] at hstep
    have frame : n.Frame (n.setLink client .down) := setLink_frame _ _
    have down : (n.setLink client .down).Delivery := h.of_frame frame fun _ he => he
    split at hstep
    · split at hstep <;> cases hstep
      · exact start_delivery (hs.of_frame frame rfl) down _
      · exact down
    · cases hstep
  | timer =>
    simp only [Net.step] at hstep
    split at hstep <;> cases hstep
    have fired : n.fire.Served :=
      ⟨hs.toKnown.same rfl rfl rfl rfl, hs.active, hs.switching⟩
    exact start_delivery fired (h.same .refl rfl rfl fun _ he => he) _
  | shutdown =>
    simp only [Net.step] at hstep
    split at hstep
    · cases hstep
    · split at hstep <;> cases hstep
      · exact h.same .refl rfl rfl fun _ he => he
      · refine Delivery.of_frame (n := n.destroy)
          (h.same .refl rfl rfl fun _ he => he) finishShutdown_frame fun _ he => ?_
        rw [finishShutdown_active] at he
        cases he

end Net

theorem Net.delivery_init : Net.Delivery {} where
  fits _ _ hi := by cases hi
  known _ hm := by cases hm
  sent _ _ _ hm := by cases hm
  left _ _ hm := by cases hm
  once _ := Nat.zero_le 1
  cause _ _ _ _ hi := by cases hi

theorem delivery {networkId : ℕ} {ok : Net → Event → Prop} {n : Net}
    (h : (manager networkId).Reach ok n) : n.Delivery :=
  h.inv (fun _ hn => hn ▸ Net.delivery_init) fun _ _ _ hr hd hstep _ => hd.step (served hr) hstep

/-- What was sent is the request of the call. -/
theorem Net.Delivery.request {n : Net} (h : n.Delivery) {i : ℕ} {q : LedgerRequest} {client : ℕ}
    (hm : .sent i q client ∈ n.trace) : ∃ stage, n.tasks i = some ⟨.request q, stage⟩ := by
  obtain ⟨⟨call, stage⟩, hi⟩ := Option.ne_none_iff_exists'.mp (h.known _ hm)
  have hlog : Mark.sent i q client ∈ n.logOf i :=
    List.mem_filter.mpr ⟨hm, by simp [Mark.transmits, Mark.task]⟩
  have hf := h.fits i _ hi
  cases call with
  | request q' =>
    obtain ⟨c, d, -, hp⟩ := Task.Fits.delivered hf
    have hq := hp.subset hlog
    simp only [List.mem_cons, List.not_mem_nil, Mark.sent.injEq, reduceCtorEq, or_false,
      false_or] at hq
    obtain rfl : q = q' := hq.elim (·.2.1) (·.2.1)
    exact ⟨stage, hi⟩
  | _ =>
    rw [show n.logOf i = [] from hf] at hlog
    cases hlog

/-- **Delivery of requests**, in every state that the manager can be in: a request was transmitted
at most twice and unchanged, again only after a transport failure and on another client; only
clients that completed the bootstrap got it; every client was left by one failover at most, which
a request started only after its own transport failure; and an answer, an error too, is what the
request ends with, and nothing else happens. -/
theorem request_delivery {networkId : ℕ} {n : Net} (h : (manager networkId).Reach anyEvent n) :
    (∀ i q stage, n.tasks i = some ⟨.request q, stage⟩ → Delivered i q (n.logOf i)) ∧
    (∀ i q client, .sent i q client ∈ n.trace →
      (∃ stage, n.tasks i = some ⟨.request q, stage⟩) ∧ n.Bootstrapped client) ∧
    (∀ client, n.trace.countP (Mark.leaves client) ≤ 1) ∧
    (∀ i q stage client, n.tasks i = some ⟨.request q, stage⟩ → .left client i ∈ n.trace →
      .failed i client ∈ n.trace) ∧
    ∀ i r n', n.step networkId (.reply i r) = some n' →
      ∃ client, n' = n.setStage i (.done (.response client r)) := by
  have hd := delivery h
  refine ⟨fun i q stage hi => (hd.fits i _ hi).delivered,
    fun i q client hm => ⟨hd.request hm, hd.sent i q client hm⟩, hd.once, hd.cause,
    fun i r n' hs => ?_⟩
  simp only [Net.step] at hs
  split at hs
  next client _ _ =>
    split at hs <;> cases hs
    exact ⟨client, rfl⟩
  · cases hs

theorem request_delivery_retried : ∃ n, (manager 1).play {} retried = some n ∧
    n.trace.countP (Mark.leaves 0) = 1 ∧ Delivered 0 .fee (n.logOf 0) ∧ n.Bootstrapped 1 :=
  have h {n : Net} (hp : (manager 1).play {} retried = some n) := request_delivery (.of_play rfl hp)
  ⟨_, rfl, rfl, (h rfl).1 0 .fee _ rfl, ((h rfl).2.1 0 .fee 1 (by decide)).2⟩

end Orchestrator
