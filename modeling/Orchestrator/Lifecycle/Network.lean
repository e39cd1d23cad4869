import Orchestrator.Finality.Passes
import Orchestrator.Intents.Idempotency
import Orchestrator.Lifecycle.Artifact
import Orchestrator.Signing.Admission
import Orchestrator.Xrpl.Capability

/-!
# The network of an intent

Every row names the network it was created for. The services do not look at that column: they take
the network from the configuration of their process, and a process can be started on the same
tables with another one.

* `CarriesNetwork`, `Concerns`, `OnNetwork`: what is built and done for an intent, and where;
* `keepsNetwork`: the starts that leave no unsettled intent on another network;
* `networks`, `builds_handle`: what a call builds is for a network id that it has read;
* `reads`, `reads_handle`: a call works on intents that it has read as unsettled;
* `reach_networks`, `reach_unsettled`, `reach_read`, `reach_carries`: in every run;
* **`stays_on_network`**, and **`network_changed`** without the condition.
-/

namespace Orchestrator

open Interleave

/-- The transaction names the network if its id is above the threshold, and else none. -/
def CarriesNetwork (networkId : ℕ) (transaction : Record) : Prop :=
  transaction.get? "NetworkID" =
    if networkId > networkIdFieldThreshold then some (.num networkId) else none

theorem buildTransaction_network (intent : IntentPayload) (params : PreparationParams) :
    CarriesNetwork params.networkId (buildTransaction intent params) := by
  unfold CarriesNetwork
  cases intent with
  | payment intent =>
    cases h : intent.destinationTag <;>
      simp only [buildTransaction, buildPayment, networkIdField, h] <;>
      split_ifs <;> simp
  | trustSet intent =>
    simp only [buildTransaction, buildTrustSet, networkIdField]
    split_ifs <;> simp

/-! ## What is done for an intent -/

/-- The operations of the connection. -/
def Op.remote : Op → Bool
  | .send _ => true
  | .receive _ => true
  | .switchEndpoint _ => true
  | _ => false

/-- What acts on the network or on the tables. -/
def Op.works (op : Op) : Bool := op.remote || op.writes

/-- The intent that a request of the API is about. -/
def Call.intent : Call → Option String
  | .prepare id => some id
  | .attachSignature id _ => some id
  | .submit id => some id
  | _ => none

/-- The intents that a reply shows as unsettled. -/
def unsettled : (op : Op) → op.Ret → List String
  | .findById id, .ok (some row) => if isTerminal row.status then [] else [id]
  | .findByStatuses _, .ok rows => (rows.filter fun row => !isTerminal row.status).map (·.id)
  | _, _ => []

/-- The operation of call `pid` is a part of preparing, simulating, signing, submitting or
reconciling the intent: the call is about it, has read it as unsettled, or moves it. -/
def Concerns (h : History) (pid : ℕ) (l : Call) (op : Op) (row : IntentRow) : Prop :=
  op.works = true ∧ (l.intent = some row.id ∨ (l = .cycle ∧ ∃ request, op = .transition row.id request) ∨
    row.id ∈ (own pid h).flatMap fun e => unsettled e.op e.ret)

/-- The process is configured for the network of the intent, and so every endpoint that passes the
check of its connections is on it. -/
def OnNetwork (k : Sys) (row : IntentRow) : Prop :=
  k.state.networkId = row.networkId ∧
    ∀ info, checkServerInfo k.state.networkId info = none → info.networkId = some row.networkId

theorem checkServerInfo_network {networkId : ℕ} {info : ServerInfo}
    (h : checkServerInfo networkId info = none) : info.networkId = some networkId := by
  unfold checkServerInfo at h
  split_ifs at h with hn
  exact not_not.mp hn

theorem onNetwork_of {k : Sys} {row : IntentRow} (h : row.networkId = k.state.networkId) :
    OnNetwork k row :=
  ⟨h.symm, fun _ hcheck => h ▸ checkServerInfo_network hcheck⟩

/-- Where the service starts again, every unsettled intent is on the configured network. -/
def keepsNetwork : StepCond Op Op.Ret Failure Reply Call State
  | k, .restart, k' => ∀ row ∈ k.state.db.rows, isTerminal row.status = false →
    row.networkId = k'.state.networkId
  | _, _, _ => True

instance : ∀ (k : Sys) (a : Act Op Op.Ret Failure Reply Call) (k' : Sys),
    Decidable (keepsNetwork k a k')
  | k, .restart, k' => inferInstanceAs (Decidable (∀ row ∈ k.state.db.rows,
      isTerminal row.status = false → row.networkId = k'.state.networkId))
  | _, .start _ _, _ => isTrue trivial
  | _, .op _ _ _ _, _ => isTrue trivial
  | _, .finish _ _ _, _ => isTrue trivial
  | _, .kill _, _ => isTrue trivial
  | _, .env, _ => isTrue trivial

/-! ## What a call builds -/

section Builds

variable {P : Platform} {α β : Type} {st : List ℕ} {id : String}

/-- What is created or prepared is for one of the network ids. -/
def BuiltFor (st : List ℕ) : Op → Prop
  | .createIdempotent new => new.networkId ∈ st
  | .transition _ request => .created ∈ request.fromStatuses → ∃ n ∈ st, ∃ transaction,
      request.patch.preparedTxJson = some (.obj transaction) ∧ CarriesNetwork n transaction
  | _ => True

/-- The network id that the configuration answers. -/
def networkRead : (op : Op) → op.Ret → List ℕ
  | .networkId, n => [n]
  | _, _ => []

/-- Collects the network ids that a call has read. -/
def networks : Monitor Op Op.Ret (List ℕ) where
  allow := BuiltFor
  next st op r := st ++ networkRead op r

/-- Nothing is created or prepared. -/
def Plain : Op → Prop
  | .createIdempotent _ => False
  | .transition _ request => .created ∉ request.fromStatuses
  | _ => True

/-- The program builds only for network ids that it has read. -/
abbrev Builds (p : Service α) (st : List ℕ) : Prop := networks.Follows (fun _ _ => True) p st

theorem Plain.builtFor {op : Op} (h : Plain op) : BuiltFor st op := by
  cases op with
  | createIdempotent => exact h.elim
  | transition => exact fun hc => absurd hc h
  | _ => trivial

theorem builds_plain {p : Service α} (h : p.Performs Plain) (st : List ℕ) : Builds p st := by
  induction p generalizing st with
  | ret a => trivial
  | fail e => trivial
  | call op k ih => exact ⟨h.1.builtFor, fun r => ih r (h.2 r) _⟩

theorem Builds.seq {p : Service α} {f : α → Service β} (hp : Builds p st)
    (hf : ∀ a st, Builds (f a) st) : Builds (p >>= f) st :=
  hp.bind (fun a st _ => hf a st) fun _ _ _ => trivial

theorem builds_networkId {f : ℕ → Service α} (h : ∀ n, Builds (f n) (st ++ [n])) :
    Builds (Prog.perform Op.networkId >>= f) st :=
  ⟨trivial, h⟩

theorem plain_ask {γ : Type} (q : LedgerRequest) (read : LedgerResponse → Except Failure γ) :
    (ask q read).Performs Plain := performs_ask _ _ trivial trivial

theorem builds_prepareCreated (row : IntentRow) (st : List ℕ) :
    Builds (prepareCreated P row) st := by
  refine (builds_plain (performs_assertRecovered trivial) _).seq fun _ _ => ?_
  refine (builds_plain (performs_orThrow _ _) _).seq fun intent _ => ?_
  refine (builds_plain (plain_ask _ _) _).seq fun account st => ?_
  cases account with
  | none => trivial
  | some validated =>
    refine (builds_plain (plain_ask _ _) _).seq fun current _ => ?_
    refine (builds_plain (performs_orThrow _ _) _).seq fun _ _ => ?_
    refine (builds_plain (plain_ask _ _) _).seq fun index _ => ?_
    refine (builds_plain (.bind (plain_ask _ _) fun _ => performs_orThrow _ _) _).seq
      fun fee st => ?_
    refine builds_networkId fun networkId => ?_
    refine Monitor.Follows.bind (Monitor.Follows.idle (φ := fun _ => False) (fun _ h => h.elim)
      (performs_orThrow _ _)) (fun txBlob st' hst => ?_) fun _ _ _ => trivial
    subst hst
    refine ⟨trivial, fun t => ⟨fun _ => ⟨networkId, ?_, _, rfl, buildTransaction_network _ _⟩,
      fun out => ?_⟩⟩
    · simp [networks]
    · cases out with
      | ok prepared => trivial
      | error e => cases e <;> trivial

theorem plain_simulatePrepared (row : IntentRow) : (simulatePrepared P row).Performs Plain := by
  have hmove (request : TransitionRequest) (h : request.fromStatuses = [.prepared]) :
      (transition row.id request).Performs Plain :=
    performs_transition _ _ (by simp [Plain, h])
  refine (performs_assertRecovered trivial).bind fun _ => ?_
  refine (performs_orThrow _ _).bind fun prepared => ?_
  refine (performs_required _ _).bind fun last => (plain_ask _ _).bind fun n => ?_
  split_ifs
  · exact (hmove _ rfl).bind fun _ => trivial
  refine ((performs_orThrow _ _).bind fun _ => plain_ask _ _).bind fun out => ?_
  dsimp only
  split_ifs
  · exact (hmove _ rfl).bind fun _ => trivial
  · exact (Prog.performs_perform trivial).bind fun _ => hmove _ rfl

theorem plain_completeSimulation (row : IntentRow) : (completeSimulation row).Performs Plain := by
  have hmove (request : TransitionRequest) (h : request.fromStatuses = [.simulated]) :
      (transition row.id request).Performs Plain :=
    performs_transition _ _ (by simp [Plain, h])
  refine (performs_required _ _).bind fun engineResult => ?_
  split_ifs
  · exact hmove _ rfl
  · refine (hmove _ rfl).bind fun out => ?_
    cases out <;> trivial

theorem builds_prepareStep (row : IntentRow) (st : List ℕ) : Builds (prepareStep P row) st := by
  have step {p : Service (Option IntentRow)} (hp : Builds p st) :
      Builds (StepResult.ofRow? <$> p) st := hp.seq fun _ _ => trivial
  unfold prepareStep
  cases row.status with
  | created => exact step (builds_prepareCreated row st)
  | prepared => exact step (builds_plain (plain_simulatePrepared row) st)
  | simulated => exact step (builds_plain (plain_completeSimulation row) st)
  | _ => trivial

theorem plain_load (id : String) : (load id).Performs Plain := performs_load id trivial

/-- The loop of `prepare`, by induction on the steps that are left. -/
theorem builds_prepareLoop (steps : ℕ) (row : IntentRow) (st : List ℕ) :
    Builds (prepareLoop P id steps row) st := by
  induction steps generalizing row st with
  | zero => trivial
  | succ steps ih =>
    refine (builds_prepareStep row st).seq fun out st => ?_
    cases out with
    | done => trivial
    | row next => exact ih next st
    | reread => exact (builds_plain (plain_load id) st).seq fun row st => ih row st

theorem plain_resolving (row : IntentRow) : Resolving Plain row where
  send _ _ := trivial
  receive _ _ := trivial
  switchEndpoint _ := trivial
  now := trivial
  transition request hcon := by simp [Plain, hcon.signed, signedActiveStatuses]

theorem plain_submitSigned (row : IntentRow) : (submitSigned P row).Performs Plain := by
  have hupdate (statuses : List Status) (patch : IntentPatch) :
      (updateInStatus row.id statuses patch).Performs Plain := performs_updateInStatus _ _ _ trivial
  have hmove (request : TransitionRequest) (h : request.fromStatuses = [.signed]) :
      (transition row.id request).Performs Plain :=
    performs_transition _ _ (by simp [Plain, h])
  have hbaseline (n : ℕ) : (recordBaseline row n).Performs Plain := by
    unfold recordBaseline
    split_ifs
    · exact (hupdate _ _).bind fun _ => trivial
    · trivial
  refine (performs_assertRecovered trivial).bind fun _ => ?_
  refine (performs_required _ _).bind fun blob => (performs_required _ _).bind fun last => ?_
  refine (plain_ask _ _).bind fun n => ?_
  split_ifs
  · refine ((plain_resolving row).resolveSigned _ _).bind fun out => ?_
    dsimp only
    split_ifs <;> trivial
  · refine (hbaseline n).bind fun _ => (Prog.performs_perform trivial).bind fun t => ?_
    refine (plain_ask _ _).toExcept.bind fun out => ?_
    cases out with
    | error e => exact (hupdate _ _).bind fun _ => trivial
    | ok out =>
      simp only [recordSubmit]
      split_ifs
      · exact hmove _ rfl
      · exact hmove _ rfl
      · exact hupdate _ _

theorem plain_submitLoop (steps : ℕ) (row : IntentRow) :
    (submitLoop P id steps row).Performs Plain := by
  induction steps generalizing row with
  | zero => trivial
  | succ steps ih =>
    rw [submitLoop_succ]
    split_ifs
    · trivial
    · refine (plain_submitSigned row).bind fun out => ?_
      cases out with
      | some next => trivial
      | none => exact (plain_load id).bind ih
    · trivial

theorem plain_attachSignature (id txBlob : String) :
    (handle P (.attachSignature id txBlob)).Performs Plain := by
  refine (performs_attachSignature P id txBlob).mono fun op hop => ?_
  cases op with
  | createIdempotent new =>
    obtain ⟨request, heq, -⟩ := hop rfl
    cases heq
  | transition id' request =>
    obtain ⟨request, heq, hfrom⟩ := hop rfl
    cases heq
    simp [Plain, hfrom]
  | _ => trivial

theorem plain_cycle : (cycle P).Performs Plain := by
  refine Prog.Performs.bind (.toExcept ?_) fun _ => trivial
  refine (plain_ask _ _).bind fun n => ?_
  refine Prog.Performs.bind ⟨trivial, fun _ => performs_orThrow _ _⟩ fun rows => ?_
  refine (performs_walk n (fun row _ _ => plain_resolving row) (fun row _ _ last => ?_) _ _).bind
    fun degraded => Prog.performs_perform trivial
  simp [Plain, unsignedExpiredRequest, unsignedActiveStatuses]

theorem builds_create (key : String) (dto : CreateIntentDto) (st : List ℕ) :
    Builds (create P key dto) st := by
  refine ⟨trivial, fun t => ⟨trivial, fun uuid => builds_networkId fun networkId => ?_⟩⟩
  refine Builds.seq ⟨?_, fun out => builds_plain (performs_orThrow _ _) _⟩ fun result _ => ?_
  · simp [networks, BuiltFor, newIntentRow]
  · split_ifs <;> trivial

/-- **Every call builds only for network ids that it has read.** -/
theorem builds_handle (l : Call) : Builds (handle P l) [] := by
  have reply {α : Type} {p : Service α} {f : α → Reply} (hp : Builds p []) :
      Builds (f <$> p) [] := hp.seq fun _ _ => trivial
  cases l with
  | create key dto => exact reply (builds_create key dto [])
  | prepare id =>
    exact reply ((builds_plain (plain_load id) _).seq fun row st => builds_prepareLoop _ row st)
  | attachSignature id txBlob =>
    exact builds_plain (plain_attachSignature id txBlob) _
  | submit id => exact reply (builds_plain ((plain_load id).bind fun row => plain_submitLoop _ row) _)
  | cycle => exact reply (builds_plain plain_cycle _)

end Builds

/-! ## What a call works on -/

section Reads

variable {P : Platform} {α β : Type} {seen : List String} {target : Option String} {id : String}

/-- A call about an intent works only after it has read it as unsettled; a cycle moves only intents
that it has read so. -/
def reads (target : Option String) : Monitor Op Op.Ret (List String) where
  allow seen op := match target with
    | some id => op.works = true → id ∈ seen
    | none => ∀ id request, op = .transition id request → id ∈ seen
  next seen op r := seen ++ unsettled op r

/-- The program works only on what it has read. -/
abbrev Reads (target : Option String) (p : Service α) (seen : List String) : Prop :=
  (reads target).Follows (fun _ _ => True) p seen

/-- An operation that stays allowed, whatever more is read. -/
theorem reads_performs {φ : Op → Prop} {p : Service α} (h : p.Performs φ)
    (hφ : ∀ op, φ op → ∀ more, (reads target).allow (seen ++ more) op) :
    Reads target p seen := by
  induction p generalizing seen with
  | ret a => trivial
  | fail e => trivial
  | call op k ih =>
    refine ⟨?_, fun r => ih r (h.2 r) fun op hop more => ?_⟩
    · have := hφ op h.1 []
      rwa [List.append_nil] at this
    · change (reads target).allow (seen ++ unsettled _ r ++ more) op
      rw [List.append_assoc]
      exact hφ op hop _

/-- Past the reading everything is allowed. -/
theorem reads_seen (h : id ∈ seen) (p : Service α) : Reads (some id) p seen := by
  induction p generalizing seen with
  | ret a => trivial
  | fail e => trivial
  | call op k ih => exact ⟨fun _ => h, fun r => ih r (List.mem_append_left _ h)⟩

/-- **A call about an intent** loads it, and goes no further if it is settled. -/
theorem reads_load {f : IntentRow → Service α}
    (h : ∀ row seen, isTerminal row.status = true → Reads (some id) (f row) seen) :
    Reads (some id) (load id >>= f) seen := by
  refine ⟨fun hw => (by cases hw), fun r => ?_⟩
  cases r with
  | error e => trivial
  | ok found =>
    cases found with
    | none => trivial
    | some row =>
      cases ht : isTerminal row.status with
      | true => exact h row _ ht
      | false => exact reads_seen (by simp [reads, unsettled, ht]) _

theorem reads_prepareLoop {steps : ℕ} {row : IntentRow} (ht : isTerminal row.status = true) :
    Reads (some id) (prepareLoop P id (steps + 1) row) seen := by
  rw [prepareLoop, prepareStep]
  cases hs : row.status <;> first | trivial | (rw [hs] at ht; cases ht)

theorem reads_submitLoop {steps : ℕ} {row : IntentRow} (ht : isTerminal row.status = true) :
    Reads (some id) (submitLoop P id (steps + 1) row) seen := by
  rw [submitLoop]
  cases hs : row.status <;> first | trivial | (rw [hs] at ht; cases ht)

theorem reads_attachSignature (txBlob : String) :
    Reads (some id) (attachSignature P id txBlob) seen := by
  refine reads_load fun row seen ht => ?_
  cases hs : settledAnswer P row txBlob with
  | error e => trivial
  | ok answer =>
    cases answer with
    | some answer => trivial
    | none =>
      rw [settledAnswer_none hs] at ht
      cases ht

theorem isTerminal_of_active {s : Status} (h : s ∈ signedActiveStatuses ∨ s ∈ unsignedActiveStatuses) :
    isTerminal s = false := by
  revert s
  decide

/-- A cycle moves only intents that it has listed as unsettled. -/
theorem reads_cycle : Reads none (cycle P) [] := by
  refine Monitor.Follows.bind (Monitor.Follows.toExcept (R := fun _ _ => True) ?_)
    (fun _ _ _ => trivial) fun _ _ _ => trivial
  have hask : Reads none validatedLedgerIndex [] := by
    refine reads_performs (φ := fun op => ∀ id request, op ≠ .transition id request)
      (performs_ask _ _ (by simp) (by simp)) fun op hop more id request heq => ?_
    exact absurd heq (hop id request)
  refine hask.bind (fun n seen _ => ?_) fun _ _ _ => trivial
  refine ⟨fun id request heq => (by cases heq), fun r => ?_⟩
  cases r with
  | error e => trivial
  | ok rows =>
    have hmem {row : IntentRow} (hrow : row ∈ rows)
        (hst : row.status ∈ signedActiveStatuses ∨ row.status ∈ unsignedActiveStatuses) :
        row.id ∈ unsettled (.findByStatuses sequenceActiveStatuses) (.ok rows) :=
      List.mem_map_of_mem (List.mem_filter.mpr ⟨hrow, by simp [isTerminal_of_active hst]⟩)
    refine reads_performs (φ := fun op => ∀ id request, op = .transition id request →
      id ∈ unsettled (.findByStatuses sequenceActiveStatuses) (.ok rows)) ?_
      fun op hop more id request heq => ?_
    · refine (performs_walk n (fun row hrow hs => ?_) (fun row hrow hs last => ?_) _ _).bind
        fun degraded => Prog.performs_perform (by simp)
      · refine ⟨⟨by simp, by simp, by simp, fun _ _ _ _ heq => ?_⟩, by simp⟩
        cases heq
        exact hmem hrow (.inl hs)
      · rintro _ _ ⟨⟩
        exact hmem hrow (.inr hs)
    · exact List.mem_append_left _ (List.mem_append_right _ (hop id request heq))

/-- **Every call works only on what it has read.** -/
theorem reads_handle (l : Call) : Reads l.intent (handle P l) [] := by
  have reply {α : Type} {p : Service α} {f : α → Reply} (hp : Reads l.intent p []) :
      Reads l.intent (f <$> p) [] := hp.bind (fun _ _ _ => trivial) fun _ _ _ => trivial
  cases l with
  | create key dto =>
    refine reads_performs (φ := fun op => ∀ id request, op ≠ .transition id request) ?_
      fun op hop more id request heq => absurd heq (hop id request)
    refine Prog.Performs.bind ?_ fun result => trivial
    refine (Prog.performs_perform (by simp)).bind fun t => ?_
    refine (Prog.performs_perform (by simp)).bind fun uuid => ?_
    refine (Prog.performs_perform (by simp)).bind fun networkId => ?_
    refine Prog.Performs.bind ⟨by simp, fun _ => performs_orThrow _ _⟩ fun result => ?_
    split_ifs <;> trivial
  | prepare id => exact reply (reads_load fun row seen ht => reads_prepareLoop ht)
  | attachSignature id txBlob => exact reply (reads_attachSignature txBlob)
  | submit id => exact reply (reads_load fun row seen ht => reads_submitLoop ht)
  | cycle => exact reply reads_cycle

end Reads

/-! ## Every run -/

section Runs

variable {P : Platform} {ok : StepCond Op Op.Ret Failure Reply Call State} {k k' : Sys} {pid : ℕ}
  {l : Call} {op : Op} {r : op.Ret} {s s' : State} {row : IntentRow}

theorem exec_networkId (hx : (system P).exec s op r s') : s'.networkId = s.networkId := by
  obtain ⟨choice, hx⟩ := hx
  cases op <;> cases choice <;> simp_all [perform] <;> aesop

/-- A process keeps its network. -/
theorem step_networkId {a : Act Op Op.Ret Failure Reply Call} (hs : Step (system P) k a k')
    (ha : a ≠ .restart) : k'.state.networkId = k.state.networkId := by
  cases hs with
  | start | finish | kill => rfl
  | op _ hx => exact exec_networkId hx
  | env hx => obtain ⟨ledger, rfl⟩ := hx; rfl
  | restart => exact absurd rfl ha

theorem exec_networkRead (hx : (system P).exec s op r s') {n : ℕ} (hn : n ∈ networkRead op r) :
    n = s.networkId := by
  cases op with
  | networkId =>
    obtain ⟨choice, hx⟩ := hx
    obtain rfl := List.mem_singleton.mp hn
    cases choice <;> cases hx <;> rfl
  | _ => cases hn

/-- What a call in flight has read of the configuration is what its process runs with. -/
theorem reach_networks (hk : Reach (system P) ok k) : ∀ t ∈ k.pool,
    ∀ n ∈ networks.after [] (own t.pid k.log), n = k.state.networkId := by
  refine Monitor.tracks (G := fun s (st : List ℕ) => ∀ n ∈ st, n = s.networkId) (fun _ _ h => ?_)
    (fun _ hs hst n hn => ?_) (fun _ hs hst n hn => ?_) (fun hx hst n hn => ?_) hk
  · cases h
  · rw [step_networkId hs (by simp)]
    rcases List.mem_append.mp hn with hn | hn
    · exact hst n hn
    · cases hs with
      | op _ hx => exact exec_networkRead hx hn
  · rw [step_networkId hs (by simp)]
    exact hst n hn
  · obtain ⟨ledger, rfl⟩ := hx
    exact hst n hn

/-- **What is built in a run** is for the network of the process. -/
theorem step_builds (hk : Reach (system P) ok k) (hs : Step (system P) k (.op pid l op r) k') :
    BuiltFor [k.state.networkId] op := by
  have hallow := Monitor.step_allows (D := fun _ => True) (fun l _ => builds_handle l) hk hs trivial
  obtain ⟨cont, hmem⟩ := hs.mem_pool
  have hread := reach_networks hk _ hmem
  cases op with
  | createIdempotent new => exact List.mem_singleton.mpr (hread _ hallow)
  | transition id request =>
    intro hcreated
    obtain ⟨n, hn, transaction, hjs, hcarries⟩ := hallow hcreated
    exact ⟨n, List.mem_singleton.mpr (hread n hn), transaction, hjs, hcarries⟩
  | _ => trivial

/-- **Every unsettled intent is on the network of the process.** -/
theorem reach_unsettled (hk : Reach (system P) keepsNetwork k) :
    ∀ row ∈ k.state.db.rows, isTerminal row.status = false →
      row.networkId = k.state.networkId := by
  refine hk.inv (P := fun k => ∀ row ∈ k.state.db.rows, isTerminal row.status = false →
    row.networkId = k.state.networkId) (fun s hs => by simp [hs.1])
    fun k a k' hk ih hs hcond row' hrow' hopen => ?_
  rcases step_rows hs hrow' with ⟨row, hrow, hid⟩ | ⟨pid, l, new, rfl, rfl⟩
  · by_cases ha : a = .restart
    · subst ha
      cases hs with
      | restart hx =>
        obtain ⟨networkId, rfl⟩ := hx
        exact hcond row' hrow' hopen
    · rw [step_networkId hs ha]
      obtain ⟨row'', hf, hle⟩ := step_le hk hs ((reach_ok hk).ids row hrow)
      have hsame : row'' = row' := by
        have hf' := (reach_ok (hk.step hs hcond)).ids row' hrow'
        rw [show row'.id = row.id from congrArg Prod.fst hid] at hf'
        exact Option.some.inj (hf.symm.trans hf')
      subst hsame
      refine (hle.account.1).symm.trans (ih row hrow ?_)
      by_contra ht
      rw [hle.eq_of_isTerminal (by simpa using ht)] at ht
      exact ht hopen
  · rw [step_networkId hs (by simp)]
    exact List.mem_singleton.mp (step_builds hk hs)

theorem after_reads (target : Option String) (seen : List String)
    (es : List (Entry Op Op.Ret Call)) : (reads target).after seen es =
      seen ++ es.flatMap fun e => unsettled e.op e.ret := by
  induction es generalizing seen with
  | nil => simp [Monitor.after]
  | cons e es ih =>
    rw [List.flatMap_cons, ← List.append_assoc]
    exact ih _

/-- An intent that a reply shows as unsettled is one of the table. -/
theorem exec_unsettled (hk : Reach (system P) ok k) (hx : (system P).exec k.state op r s')
    {id : String} (h : id ∈ unsettled op r) :
    ∃ row, k.state.db.find id = some row ∧ isTerminal row.status = false := by
  cases op with
  | findById id' =>
    obtain ⟨-, rfl | rfl⟩ := exec_findById hx
    · cases h
    · cases hf : k.state.db.find id' with
      | none =>
        rw [hf] at h
        cases h
      | some row =>
        rw [hf, unsettled] at h
        split_ifs at h with ht
        · cases h
        · obtain rfl := List.mem_singleton.mp h
          exact ⟨row, hf, by simpa using ht⟩
  | findByStatuses statuses =>
    obtain ⟨-, rfl | rfl⟩ := exec_findByStatuses hx
    · cases h
    · obtain ⟨row, hrow, rfl⟩ := List.mem_map.mp h
      obtain ⟨hmem, hopen⟩ := List.mem_filter.mp hrow
      exact ⟨row, (reach_ok hk).ids row (Db.mem_findByStatuses hmem).1, by simpa using hopen⟩
  | _ => cases h

/-- **What a call in flight has read as unsettled** is on the network of its process, even if it is
settled by now. -/
theorem reach_read (target : Option String) (hk : Reach (system P) keepsNetwork k) :
    ∀ t ∈ k.pool, ∀ id ∈ (reads target).after [] (own t.pid k.log),
      ∃ row, k.state.db.find id = some row ∧ row.networkId = k.state.networkId := by
  have keep {k k' : Sys} {pid l op r} {id : String} (hk : Reach (system P) keepsNetwork k)
      (hs : Step (system P) k (.op pid l op r) k')
      (h : ∃ row, k.state.db.find id = some row ∧ row.networkId = k.state.networkId) :
      ∃ row, k'.state.db.find id = some row ∧ row.networkId = k'.state.networkId := by
    obtain ⟨row, hf, hn⟩ := h
    obtain ⟨row', hf', hle⟩ := step_le hk hs hf
    exact ⟨row', hf', by rw [step_networkId hs (by simp), ← hle.account.1, hn]⟩
  refine Monitor.tracks (G := fun s (seen : List String) => ∀ id ∈ seen,
    ∃ row, s.db.find id = some row ∧ row.networkId = s.networkId) (fun _ _ h => ?_)
    (fun hk hs hseen id hid => ?_) (fun hk hs hseen id hid => keep hk hs (hseen id hid))
    (fun hx hseen id hid => ?_) hk
  · cases h
  · refine keep hk hs ?_
    rcases List.mem_append.mp hid with hid | hid
    · exact hseen id hid
    · cases hs with
      | op _ hx =>
        obtain ⟨row, hf, hopen⟩ := exec_unsettled hk hx hid
        exact ⟨row, hf, reach_unsettled hk row (Db.mem_of_find hf) hopen⟩
  · obtain ⟨ledger, rfl⟩ := hx
    exact hseen id hid

/-- **What is done for an intent** is done on its network. -/
theorem step_concerns (hk : Reach (system P) keepsNetwork k)
    (hs : Step (system P) k (.op pid l op r) k') (hrow : row ∈ k.state.db.rows)
    (hc : Concerns k.log pid l op row) : row.networkId = k.state.networkId := by
  have hbody : ∀ l', l = l' → Reads l.intent (handle P l') [] := by
    rintro _ rfl
    exact reads_handle _
  have hallow := Monitor.step_allows hbody hk hs rfl
  obtain ⟨cont, hmem⟩ := hs.mem_pool
  have hread := reach_read l.intent hk _ hmem
  have hseen : row.id ∈ (reads l.intent).after [] (own pid k.log) := by
    obtain ⟨hworks, hl | ⟨hl, request, rfl⟩ | hread⟩ := hc
    · rw [hl] at hallow ⊢
      exact hallow hworks
    · rw [hl] at hallow ⊢
      exact hallow row.id request rfl
    · rwa [after_reads, List.nil_append]
  obtain ⟨row', hf, hn⟩ := hread row.id hseen
  obtain rfl := Option.some.inj (((reach_ok hk).ids row hrow).symm.trans hf)
  exact hn

/-- **What is prepared carries the network of its intent.** -/
theorem reach_carries (hk : Reach (system P) keepsNetwork k) :
    ∀ row ∈ k.state.db.rows, row.status ≠ .created → ∃ transaction,
      row.preparedTxJson = some (P.jsonb (.obj transaction)) ∧
        CarriesNetwork row.networkId transaction := by
  refine hk.inv (P := fun k => ∀ row ∈ k.state.db.rows, row.status ≠ .created → ∃ transaction,
    row.preparedTxJson = some (P.jsonb (.obj transaction)) ∧
      CarriesNetwork row.networkId transaction) (fun s hs => by simp [hs.1])
    fun k a k' hk ih hs hcond row' hrow' hst => ?_
  have hf' := (reach_ok (hk.step hs hcond)).ids row' hrow'
  have later {cur : IntentRow} (hf : k.state.db.find row'.id = some cur) (hle : cur.Le row')
      (hne : cur.status ≠ .created) : ∃ transaction,
      row'.preparedTxJson = some (P.jsonb (.obj transaction)) ∧
        CarriesNetwork row'.networkId transaction := by
    obtain ⟨transaction, hjs, hcarries⟩ := ih cur (Db.mem_of_find hf) hne
    exact ⟨transaction, (congrArg (·.1) (hle.prepared hne)).symm.trans hjs,
      hle.account.1 ▸ hcarries⟩
  cases step_change hk hs row'.id with
  | kept he => exact ih row' (Db.mem_of_find (he ▸ hf')) hst
  | @moved pid l request c cur t ha hf _ _ _ _ hfrom _ hle hf'' =>
    obtain rfl := Option.some.inj (hf'.symm.trans hf'')
    by_cases hcreated : cur.status = .created
    · subst ha
      obtain ⟨n, hn, transaction, hjs, hcarries⟩ := step_builds hk hs (hcreated ▸ hfrom)
      obtain rfl := List.mem_singleton.mp hn
      have hnet : cur.networkId = k.state.networkId :=
        reach_unsettled hk cur (Db.mem_of_find hf) (by rw [hcreated]; rfl)
      refine ⟨transaction, ?_, hle.account.1 ▸ hnet ▸ hcarries⟩
      simp [TransitionRequest.updated, IntentPatch.apply, hjs]
    · exact later hf hle hcreated
  | touched _ hf _ _ _ _ _ hact hle hf'' =>
    obtain rfl := Option.some.inj (hf'.symm.trans hf'')
    refine later hf hle fun hcreated => ?_
    rw [hcreated] at hact
    revert hact
    decide
  | created _ hf'' hst' =>
    obtain rfl := Option.some.inj (hf'.symm.trans hf'')
    exact absurd hst' hst

end Runs

theorem CarriesNetwork.same {networkId : ℕ} {t t' : Record} (h : CarriesNetwork networkId t)
    (hs : Record.Same t t') : CarriesNetwork networkId t' := by
  unfold CarriesNetwork at h ⊢
  split_ifs at h ⊢
  · exact hs.get_num h
  · exact hs.get_none h

/-- **An intent stays on its network.** In every run in which the service starts again only with the
network of all unsettled intents: whatever a call does for an intent is done on the network of the
intent, and its prepared transaction carries the network id exactly when it is above the
threshold. -/
theorem stays_on_network (P : Platform) (hjson : P.JsonbPreserves) (k : Sys)
    (hk : Reach (system P) keepsNetwork k) :
    (∀ pid l op r k', Step (system P) k (.op pid l op r) k' → ∀ row ∈ k.state.db.rows,
      Concerns k.log pid l op row → OnNetwork k row) ∧
    ∀ row ∈ k.state.db.rows, ∀ transaction, storedTransaction row = .ok transaction →
      CarriesNetwork row.networkId transaction := by
  refine ⟨fun pid l op r k' hs row hrow hc => onNetwork_of (step_concerns hk hs hrow hc),
    fun row hrow transaction hstored => ?_⟩
  by_cases hst : row.status = .created
  · have hnone : row.preparedTxJson = none :=
      congrArg (·.1) (((reach_ok hk).rows row hrow).unprepared hst)
    rw [storedTransaction, hnone] at hstored
    cases hstored
  · obtain ⟨t, hjs, hcarries⟩ := reach_carries hk row hrow hst
    obtain ⟨t', ht', hsame⟩ := storedTransaction_of hjson hjs
    obtain rfl := Except.ok.inj (ht'.symm.trans hstored)
    exact hcarries.same hsame

namespace Sample

/-- An operation that works on `i5`. -/
def worksOn : Act Op Op.Ret Failure Reply Call → Bool
  | .op _ l op _ => op.works && l.intent = some "i5"
  | _ => false

theorem worksOn_cases {a : Act Op Op.Ret Failure Reply Call} (h : worksOn a = true) :
    ∃ pid l op r, a = .op pid l op r ∧ op.works = true ∧ l.intent = some "i5" := by
  unfold worksOn at h
  split at h
  · obtain ⟨hworks, hl⟩ := Bool.and_eq_true_iff.mp h
    exact ⟨_, _, _, _, rfl, hworks, of_decide_eq_true hl⟩
  · cases h

/-- The `NetworkID` of the prepared transaction of `i5`. -/
def preparedNetwork (k : Sys) : Option Json :=
  (k.state.db.find "i5").bind fun row => match storedTransaction row with
    | .ok transaction => transaction.get? "NetworkID"
    | .error _ => none

theorem preparedNetwork_cases {k : Sys} {networkId : Json}
    (h : preparedNetwork k = some networkId) : ∃ row transaction,
      k.state.db.find "i5" = some row ∧ storedTransaction row = .ok transaction ∧
        transaction.get? "NetworkID" = some networkId := by
  obtain ⟨row, hf, h⟩ := Option.bind_eq_some_iff.mp h
  split at h
  · next transaction hstored => exact ⟨row, transaction, hf, hstored, h⟩
  · cases h

end Sample

/-- Without the condition: an intent is created for network 0, the service starts again for network
1025, and prepares the intent there, with that id. -/
theorem network_changed : ∃ (k k' : Sys) (pid : ℕ) (l : Call) (op : Op) (r : op.Ret)
    (row row' : IntentRow) (transaction : Record), Reach (system Sample.platform) anyStep k ∧
    Step (system Sample.platform) k (.op pid l op r) k' ∧ row ∈ k.state.db.rows ∧
    Concerns k.log pid l op row ∧ k.state.networkId ≠ row.networkId ∧
    k'.state.db.find row.id = some row' ∧ storedTransaction row' = .ok transaction ∧
    ¬ CarriesNetwork row'.networkId transaction := by
  obtain ⟨k, a, k', hk, hs, hφ⟩ := exists_step_of_play Sample.platform anyStep []
    (Sample.created 0 "i5" ++ [.restart 1025] ++ Sample.recovered 1 3 ++
      [.start (.prepare "i5")] ++ Sample.tick 2 1 ++ Sample.gathered 2 5 3) (.op 2 (.time 1))
    (fun k a k' => Sample.worksOn a && k.state.networkId = 1025 &&
      ((k.state.db.find "i5").any fun row => row.networkId = 0) &&
      Sample.preparedNetwork k' = some (.num 1025)) (by decide +kernel)
  simp only [Bool.and_eq_true, decide_eq_true_eq] at hφ
  obtain ⟨⟨⟨ha, hnet⟩, hrow⟩, hprep⟩ := hφ
  obtain ⟨pid, l, op, r, rfl, hworks, hl⟩ := Sample.worksOn_cases ha
  obtain ⟨row, hf, hzero⟩ := (Option.any_eq_true _ _).mp hrow
  have hzero : row.networkId = 0 := of_decide_eq_true hzero
  obtain ⟨row', transaction, hf', hstored, hget⟩ := Sample.preparedNetwork_cases hprep
  have hid : row.id = "i5" := Db.find_id hf
  obtain ⟨row'', hf'', hle⟩ := step_le hk hs hf
  obtain rfl := Option.some.inj (hf''.symm.trans hf')
  refine ⟨k, k', pid, l, op, r, row, row'', transaction, hk, hs, Db.mem_of_find hf,
    ⟨hworks, .inl (hid ▸ hl)⟩, by rw [hnet, hzero]; decide, hid ▸ hf', hstored, ?_⟩
  unfold CarriesNetwork
  rw [hget, ← hle.account.1, hzero]
  decide

/-- The service starts for network 1025, and again for it when an intent waits for its signature. -/
theorem stays_on_network_restarted : ∃ (k : Sys) (row : IntentRow) (transaction : Record),
    OnNetwork k row ∧ row.networkId = 1025 ∧ storedTransaction row = .ok transaction ∧
      transaction.get? "NetworkID" = some (.num 1025) := by
  obtain ⟨k, a, k', hk, hs, hφ⟩ := exists_step_of_play Sample.platform keepsNetwork []
    ([.restart 1025] ++ Sample.recovered 0 3 ++ Sample.created 1 "i5" ++
      Sample.prepared 2 "i5" 5 3 ++ [.restart 1025] ++ Sample.recovered 3 3 ++
      [.start (.attachSignature "i5" "05AB")] ++ Sample.tick 4 2) (.op 4 (.time 1))
    (fun k a _ => Sample.worksOn a &&
      ((k.state.db.find "i5").any fun row => row.networkId = 1025) &&
      (Sample.preparedNetwork k).isSome) (by decide +kernel)
  simp only [Bool.and_eq_true] at hφ
  obtain ⟨⟨ha, hrow⟩, hprep⟩ := hφ
  obtain ⟨pid, l, op, r, rfl, hworks, hl⟩ := Sample.worksOn_cases ha
  obtain ⟨networkId, hprep⟩ := Option.isSome_iff_exists.mp hprep
  obtain ⟨row, hf, hnet⟩ := (Option.any_eq_true _ _).mp hrow
  have hnet : row.networkId = 1025 := of_decide_eq_true hnet
  obtain ⟨row', transaction, hf', hstored, hget⟩ := Sample.preparedNetwork_cases hprep
  obtain rfl := Option.some.inj (hf.symm.trans hf')
  have hid : row.id = "i5" := Db.find_id hf
  obtain ⟨hworking, hcarries⟩ := stays_on_network Sample.platform Sample.jsonbPreserves k hk
  refine ⟨k, row, transaction, hworking pid l op r k' hs row (Db.mem_of_find hf)
    ⟨hworks, .inl (hid ▸ hl)⟩, hnet, hstored, ?_⟩
  have hcarry := hcarries row (Db.mem_of_find hf) transaction hstored
  rw [CarriesNetwork, hnet] at hcarry
  exact hcarry

end Orchestrator
