import Orchestrator.Interleave.Calls
import Orchestrator.Runtime.Schedules

/-!
# The recovery gate

After a restart the write endpoints wait for the first finality cycle. The guard is not at the
entry points but inside the branches of three services; the middle step of a preparation, which
writes without asking anything of the ledger, lacks it.

* `restarted`: the service on any tables; `gate`: the monitor of the guard;
* `keeps_guarded`, `keeps_handle`: what waits is done past the guard;
* `reach_open`: a call that has passed runs after recovery;
* **`gate_holds`** and **`gate_passed`**: with the condition, and without it.
-/

namespace Orchestrator

open Interleave

/-- The service after a restart, on any tables. -/
def restarted (P : Platform) : System Op Op.Ret Failure Reply Call State :=
  (system P).withInit fun s => s.recovered = false

theorem reach_restarted {P : Platform} {ok : StepCond Op Op.Ret Failure Reply Call State} {k : Sys}
    (h : Reach (system P) ok k) : Reach (restarted P) ok k :=
  have hinit : ∀ s, (system P).init s → s.recovered = false := fun _ hs => hs.2
  Reach.withInit hinit h

/-- A call of a write endpoint that has to wait. -/
def Call.waits : Call → Bool
  | .prepare _ => true
  | .attachSignature _ _ => true
  | .submit _ => true
  | _ => false

/-- What has to wait: a write, a simulation, a submission. -/
def Op.acts : Op → Bool
  | .send (.simulate _) => true
  | .send (.submit _) => true
  | op => op.writes

/-- The transitions that `completeSimulation` asks for. -/
def Op.completes : Op → Bool
  | .transition _ request => request.fromStatuses = [.simulated]
  | _ => false

/-- The guard was passed. -/
def Op.opens : (op : Op) → op.Ret → Bool
  | .recovered, flag => flag
  | _, _ => false

/-- Nothing but the end of a simulation is done before the guard was passed. -/
def gate : Monitor Op Op.Ret Bool where
  allow opened op := op.acts = true → op.completes = false → opened = true
  next opened op r := opened || op.opens r

/-! ## What a call does -/

section Program

variable {P : Platform} {α β : Type}

/-- The program keeps to the gate. -/
abbrev Keeps (p : Service α) (opened : Bool) : Prop := gate.Follows (fun _ _ => True) p opened

/-- Past the gate everything is allowed. -/
theorem keeps_open (p : Service α) : Keeps p true := by
  induction p with
  | ret a => trivial
  | fail e => trivial
  | call op k ih => exact ⟨fun _ _ => rfl, fun r => ih r⟩

/-- An operation that does not have to wait. -/
def Idle (op : Op) : Prop := op.acts = true → op.completes = true

theorem idle_of_reads {op : Op} (h : op.acts = false) : Idle op := fun ha => nomatch h.symm.trans ha

theorem keeps_idle {p : Service α} (h : p.Performs Idle) (opened : Bool) : Keeps p opened := by
  induction p generalizing opened with
  | ret a => trivial
  | fail e => trivial
  | call op k ih =>
    exact ⟨fun ha hc => (nomatch hc.symm.trans (h.1 ha)), fun r => ih r (h.2 r) _⟩

theorem Keeps.seq {p : Service α} {f : α → Service β} {opened : Bool} (hp : Keeps p opened)
    (hf : ∀ a opened, Keeps (f a) opened) : Keeps (p >>= f) opened :=
  hp.bind (fun a opened _ => hf a opened) fun _ _ _ => trivial

/-- **The guard** opens the gate for what follows it. -/
theorem keeps_guarded (f : Unit → Service α) (opened : Bool) :
    Keeps (assertRecovered >>= f) opened := by
  refine ⟨fun ha => (nomatch ha), fun recovered => ?_⟩
  cases recovered with
  | true =>
    have hnext : gate.next opened .recovered true = true := Bool.or_true opened
    rw [hnext]
    exact keeps_open _
  | false => trivial

theorem keeps_load (id : String) (opened : Bool) : Keeps (load id) opened :=
  keeps_idle (performs_load id (idle_of_reads rfl)) opened

theorem keeps_completeSimulation (row : IntentRow) (opened : Bool) :
    Keeps (completeSimulation row) opened := by
  have hmove (request : TransitionRequest) (hfrom : request.fromStatuses = [.simulated]) :
      (transition row.id request).Performs Idle :=
    performs_transition _ _ fun _ => decide_eq_true hfrom
  refine keeps_idle ((performs_required _ _).bind fun engineResult => ?_) opened
  split_ifs
  · exact hmove _ rfl
  · refine (hmove _ rfl).bind fun out => ?_
    cases out <;> trivial

theorem keeps_prepareStep (row : IntentRow) (opened : Bool) : Keeps (prepareStep P row) opened := by
  have step {p : Service (Option IntentRow)} (hp : Keeps p opened) :
      Keeps (StepResult.ofRow? <$> p) opened := hp.seq fun _ _ => trivial
  unfold prepareStep
  cases row.status with
  | created => exact step (keeps_guarded _ opened)
  | prepared => exact step (keeps_guarded _ opened)
  | simulated => exact step (keeps_completeSimulation row opened)
  | _ => trivial

/-- The loop of `prepare`, by induction on the steps that are left. -/
theorem keeps_prepareLoop (id : String) (steps : ℕ) (row : IntentRow) (opened : Bool) :
    Keeps (prepareLoop P id steps row) opened := by
  induction steps generalizing row opened with
  | zero => trivial
  | succ steps ih =>
    refine (keeps_prepareStep row opened).seq fun out opened => ?_
    cases out with
    | done => trivial
    | row next => exact ih next opened
    | reread => exact (keeps_load id opened).seq fun row opened => ih row opened

theorem keeps_attachSignature (id txBlob : String) (opened : Bool) :
    Keeps (attachSignature P id txBlob) opened := by
  refine (keeps_load id opened).seq fun row opened => ?_
  refine (keeps_idle (performs_orThrow _ _) opened).seq fun answer opened => ?_
  cases answer with
  | some answer => trivial
  | none => exact keeps_guarded _ opened

theorem keeps_submitLoop (id : String) (steps : ℕ) (row : IntentRow) (opened : Bool) :
    Keeps (submitLoop P id steps row) opened := by
  induction steps generalizing row opened with
  | zero => trivial
  | succ steps ih =>
    rw [submitLoop_succ]
    split_ifs
    · trivial
    · refine Keeps.seq (keeps_guarded _ opened) fun out opened => ?_
      cases out with
      | some next => trivial
      | none => exact (keeps_load id opened).seq fun row opened => ih row opened
    · trivial

/-- **Every call of a write endpoint keeps to the gate.** -/
theorem keeps_handle {l : Call} (hl : l.waits = true) : Keeps (handle P l) false := by
  cases l with
  | prepare id =>
    refine Keeps.seq ((keeps_load id false).seq fun row opened => ?_) fun _ _ => trivial
    exact keeps_prepareLoop id _ row opened
  | attachSignature id txBlob =>
    exact Keeps.seq (keeps_attachSignature id txBlob false) fun _ _ => trivial
  | submit id =>
    refine Keeps.seq ((keeps_load id false).seq fun row opened => ?_) fun _ _ => trivial
    exact keeps_submitLoop id _ row opened
  | _ => cases hl

end Program

/-! ## Every run -/

section Runs

variable {P : Platform} {ok : StepCond Op Op.Ret Failure Reply Call State} {k k' : Sys}
  {pid : ℕ} {l : Call} {op : Op} {r : op.Ret} {s s' : State}

theorem exec_opens (hx : (restarted P).exec s op r s') (h : op.opens r = true) :
    s.recovered = true := by
  cases op with
  | recovered =>
    obtain ⟨choice, hx⟩ := hx
    cases choice <;> cases hx <;> exact h
  | _ => cases h

/-- Nothing but a restart closes the gate. -/
theorem exec_recovered (hx : (restarted P).exec s op r s') (h : s.recovered = true) :
    s'.recovered = true := by
  obtain ⟨choice, hx⟩ := hx
  cases op <;> cases choice <;> simp_all [perform] <;> aesop

/-- A call in flight that has passed the gate is in flight after recovery. -/
theorem reach_open (hk : Reach (restarted P) ok k) :
    ∀ t ∈ k.pool, gate.after false (own t.pid k.log) = true → k.state.recovered = true := by
  refine Monitor.tracks (G := fun s opened => opened = true → s.recovered = true)
    (fun _ h => ?_) (fun _ hs hopen hnext => ?_) (fun _ hs hopen h => ?_)
    (fun hx hopen => ?_) hk
  · cases h
  · cases hs with
    | op hp hx =>
      refine exec_recovered hx ?_
      rcases Bool.or_eq_true_iff.mp hnext with hbefore | hopens
      · exact hopen hbefore
      · exact exec_opens hx hopens
  · cases hs with
    | op _ hx => exact exec_recovered hx (hopen h)
  · obtain ⟨ledger, rfl⟩ := hx
    exact hopen

/-- **Before recovery** a call that has to wait does not act, except to complete a simulation. -/
theorem step_waits (hk : Reach (restarted P) ok k) (hl : l.waits = true)
    (hs : Step (restarted P) k (.op pid l op r) k') (hrec : k.state.recovered = false) :
    op.acts = true → op.completes = true := by
  intro hacts
  by_contra hcompletes
  have hallow := Monitor.step_allows (D := fun l => l.waits = true)
    (fun _ hl => keeps_handle (P := P) hl) hk hs hl
  obtain ⟨cont, hmem⟩ := hs.mem_pool
  have hopen := reach_open hk _ hmem (hallow hacts (by simpa using hcompletes))
  cases hrec.symm.trans hopen

/-- No simulation is completed before recovery. -/
def completesLater : StepCond Op Op.Ret Failure Reply Call State
  | k, .op _ _ (.transition id request) (.ok _), _ => k.state.recovered = true ∨
    request.fromStatuses ≠ [.simulated] ∨
      ((k.state.db.find id).all fun row => row.status ≠ .simulated) = true
  | _, _, _ => True

instance (k : Sys) (a : Act Op Op.Ret Failure Reply Call) (k' : Sys) :
    Decidable (completesLater k a k') := by
  unfold completesLater
  split <;> infer_instance

/-- A transition that fails, or out of a status that the row does not have, changes nothing. -/
theorem exec_transition_idle {id : String} {request : TransitionRequest}
    {r : Op.Ret (.transition id request)}
    (hx : (restarted P).exec s (.transition id request) r s')
    (h : ∀ out, r = .ok out → ∀ row, s.db.find id = some row →
      row.status ∉ request.fromStatuses) : s'.db = s.db := by
  rcases exec_transition hx with ⟨-, rfl⟩ | ⟨t, hr, rfl⟩
  · rfl
  · rcases s.db.transition_cases P t id request with ⟨out, he, -⟩ | ⟨cur, hf, hst, -, -, he⟩
    · rw [he]
    · rw [he] at hr
      exact absurd hst (h _ hr cur hf)

theorem step_gated (hk : Reach (restarted P) ok k) (hl : l.waits = true)
    (hs : Step (restarted P) k (.op pid l op r) k') (hok : completesLater k (.op pid l op r) k')
    (hrec : k.state.recovered = false) : k'.state.db = k.state.db := by
  have hcompletes := step_waits hk hl hs hrec
  have hx : (restarted P).exec k.state op r k'.state := by
    cases hs with
    | op _ hx => exact hx
  by_cases hw : op.writes = true
  · have hacts : op.acts = true := by
      cases op with
      | send => cases hw
      | _ => exact hw
    have hfrom := hcompletes hacts
    cases op with
    | transition id request =>
      have hfrom : request.fromStatuses = [.simulated] := of_decide_eq_true hfrom
      refine exec_transition_idle hx fun out hr row hf hst => ?_
      subst hr
      rcases hok with hopen | hother | hall
      · cases hrec.symm.trans hopen
      · exact hother hfrom
      · rw [hf, Option.all_some] at hall
        rw [hfrom] at hst
        exact of_decide_eq_true hall (List.mem_singleton.mp hst)
    | _ => cases hfrom
  · obtain ⟨choice, hx⟩ := hx
    exact perform_db (by simpa using hw) hx

/-- The process is not restarted. -/
def runsOn : StepCond Op Op.Ret Failure Reply Call State := fun _ a _ => a ≠ .restart

theorem runs_recovered (hr : Runs (restarted P) runsOn k k') (h : k.state.recovered = true) :
    k'.state.recovered = true := by
  induction hr with
  | refl => exact h
  | step _ hs hok ih =>
    cases hs with
    | start | finish | kill => exact ih
    | op _ hx => exact exec_recovered hx ih
    | env hx => obtain ⟨ledger, rfl⟩ := hx; exact ih
    | restart => exact absurd rfl hok

end Runs

/-- **The recovery gate.** From any tables, in every run in which no simulation is completed before
recovery: until a cycle has completed after the last restart, no step of `prepare`,
`attachSignature` or `submit` changes a row, appends an audit row, or sends a simulation or a
submission; and once a cycle has completed the guard lets every call pass until the next
restart. -/
theorem gate_holds (P : Platform) (k : Sys) (hk : Reach (restarted P) completesLater k) :
    (∀ pid l op r k', l.waits = true → Step (restarted P) k (.op pid l op r) k' →
      completesLater k (.op pid l op r) k' → k.state.recovered = false →
      k'.state.db = k.state.db ∧ (∀ txJson, op ≠ .send (.simulate txJson)) ∧
        ∀ txBlob, op ≠ .send (.submit txBlob)) ∧
    ∀ pid l degraded r k', Step (restarted P) k (.op pid l (.completeCycle degraded) r) k' →
      ∀ k'', Runs (restarted P) runsOn k' k'' → ∀ pid' l' flag k₃,
        Step (restarted P) k'' (.op pid' l' .recovered flag) k₃ → flag = true := by
  refine ⟨fun pid l op r k' hl hs hok hrec => ⟨step_gated hk hl hs hok hrec, ?_, ?_⟩, ?_⟩
  · rintro txJson rfl
    cases step_waits hk hl hs hrec rfl
  · rintro txBlob rfl
    cases step_waits hk hl hs hrec rfl
  · intro pid l degraded r k' hs k'' hr pid' l' flag k₃ hs'
    have hdone : k'.state.recovered = true := by
      cases hs with
      | op _ hx =>
        obtain ⟨choice, hx⟩ := hx
        cases choice <;> cases hx <;> rfl
    have hopen := runs_recovered hr hdone
    cases hs' with
    | op _ hx =>
      obtain ⟨choice, hx⟩ := hx
      cases choice <;> cases hx <;> exact hopen

/-- After a restart a submission is refused, and nothing has changed. -/
theorem gate_holds_submit : ∃ k k' : Sys,
    Step (restarted Sample.platform) k (.op 4 (.submit "i5") .recovered false) k' ∧
    ((k.state.db.find "i5").any fun row => row.status = .signed) = true ∧
    k'.state.db = k.state.db := by
  obtain ⟨k, a, k', hk, hs, hφ⟩ := exists_step_of_play Sample.platform completesLater []
    (Sample.signedIntent 3 ++ [.restart 0, .start (.submit "i5")] ++ Sample.tick 4 1)
    (.op 4 (.time 1))
    (fun k a _ => ((k.state.db.find "i5").any fun row => row.status = .signed) &&
      !k.state.recovered && match a with
        | .op pid l .recovered flag => pid = 4 && l = .submit "i5" && !flag
        | _ => false) (by decide +kernel)
  simp only [Bool.and_eq_true, Bool.not_eq_true'] at hφ
  obtain ⟨⟨hrow, hrec⟩, ha⟩ := hφ
  split at ha
  · next pid l flag =>
    simp only [Bool.and_eq_true, decide_eq_true_eq, Bool.not_eq_true'] at ha
    obtain ⟨⟨rfl, rfl⟩, rfl⟩ := ha
    have hs' := hs.withInit fun s : State => s.recovered = false
    have hk' := reach_restarted hk
    exact ⟨k, k', hs', hrow,
      ((gate_holds Sample.platform k hk').1 4 _ .recovered false k' rfl hs' trivial hrec).1⟩
  · cases ha

/-- The process stops between the two last steps of a preparation. After the restart, before any
cycle, `prepare` completes the simulation. -/
theorem gate_passed : ¬ ∀ (k k' : Sys) (pid : ℕ) (l : Call) (op : Op) (r : op.Ret),
    Reach (restarted Sample.platform) anyStep k → l.waits = true →
    Step (restarted Sample.platform) k (.op pid l op r) k' → k.state.recovered = false →
    k'.state.db = k.state.db := by
  intro hevery
  obtain ⟨k, a, k', hk, hs, hφ⟩ := exists_step_of_play Sample.platform anyStep []
    (Sample.recovered 0 3 ++ Sample.created 1 "i5" ++ [.start (.prepare "i5")] ++
      Sample.tick 2 1 ++ Sample.gathered 2 5 3 ++ Sample.tick 2 2 ++
      Sample.told 2 (Sample.ledgerAnswer 3) ++ Sample.told 2 (Sample.simulateAnswer 5) ++
      Sample.tick 2 2 ++ [.restart 0, .start (.prepare "i5")] ++ Sample.tick 3 1)
    (.op 3 (.time 1))
    (fun k a k' => !k.state.recovered &&
      ((k.state.db.find "i5").any fun row => row.status = .simulated) &&
      ((k'.state.db.find "i5").any fun row => row.status = .awaitingSignature) &&
      match a with
        | .op _ l _ _ => l.waits
        | _ => false) (by decide +kernel)
  simp only [Bool.and_eq_true, Bool.not_eq_true'] at hφ
  obtain ⟨⟨⟨hrec, hrow⟩, hrow'⟩, ha⟩ := hφ
  split at ha
  · next pid l op r =>
    have hsame := hevery k k' pid l op r (reach_restarted hk) ha (hs.withInit _) hrec
    rw [hsame] at hrow'
    obtain ⟨row, hf, hst⟩ := (Option.any_eq_true _ _).mp hrow
    obtain ⟨row', hf', hst'⟩ := (Option.any_eq_true _ _).mp hrow'
    obtain rfl := Option.some.inj (hf.symm.trans hf')
    cases (of_decide_eq_true hst).symm.trans (of_decide_eq_true hst')
  · cases ha

end Orchestrator
