import Orchestrator.Lifecycle.Changes
import Orchestrator.Lifecycle.Failures
import Orchestrator.Submission.Answers

/-!
# What a call learns and does

A call sees an intent only through the replies of its own statements. A row that it is given, or a
statement that does not apply, tells which statuses the intent can still have, since these only
move along the table.

* `Knowledge`, `Knowledge.learn`: the statuses that are left;
* `Watch`, `watch`: a monitor of what a call knows and what it has done;
* `Watches`, `Watches.bind`, `watches_quiet`: the program logic;
* **`reach_known`**: in every run, what is known is the case;
* `Reach.watched`: what a call has done when it ends.
-/

namespace Orchestrator

open Interleave

/-! ## Knowledge -/

/-- What a call knows of the status of an intent. -/
inductive Knowledge where
  | nothing
  | among (statuses : List Status)
  | contradiction
  deriving DecidableEq

/-- The statuses that the listed ones lead to. -/
def later (statuses : List Status) : List Status := statuses.flatMap Status.later

namespace Knowledge

/-- A row in status `s` was given. -/
def seen : Knowledge → Status → Knowledge
  | .nothing, s => .among s.later
  | .among statuses, s => if s ∈ statuses then .among s.later else .contradiction
  | .contradiction, _ => .contradiction

/-- The intent was moved to `s`. -/
def moved : Knowledge → Status → Knowledge
  | .contradiction, _ => .contradiction
  | _, s => .among s.later

/-- The intent was in none of the named statuses. -/
def missed : Knowledge → List Status → Knowledge
  | .among statuses, named => .among (later (statuses.filter fun s => !named.contains s))
  | known, _ => known

/-- What the reply of an operation adds to what is known of intent `id`. -/
def learn (id : String) (known : Knowledge) : (op : Op) → op.Ret → Knowledge
  | .findById i, .ok (some row) =>
    if i ≠ id then known else if row.id = id then known.seen row.status else .contradiction
  | .transition i request, .ok (some row) =>
    if i ≠ id then known
    else if row.id = id ∧ row.status = request.toStatus then known.moved row.status
    else .contradiction
  | .transition i request, .ok none => if i ≠ id then known else known.missed request.fromStatuses
  | .updateInStatus i _ _, .ok (some row) => if i ≠ id then known else known.seen row.status
  | .updateInStatus i statuses _, .ok none => if i ≠ id then known else known.missed statuses
  | _, _ => known

/-- What is known is the case. -/
def Holds (db : Db) (id : String) : Knowledge → Prop
  | .nothing => True
  | .among statuses => (∀ s ∈ statuses, ∀ t, s.Leads t → t ∈ statuses) ∧
    ∃ row, db.find id = some row ∧ row.status ∈ statuses
  | .contradiction => False

theorem mem_later {statuses : List Status} {t : Status} :
    t ∈ later statuses ↔ ∃ s ∈ statuses, s.Leads t := List.mem_flatMap

theorem later_closed (statuses : List Status) :
    ∀ s ∈ later statuses, ∀ t, s.Leads t → t ∈ later statuses := by
  intro s hs t ht
  obtain ⟨u, hu, hus⟩ := mem_later.mp hs
  exact mem_later.mpr ⟨u, hu, hus.trans ht⟩

variable {db db' : Db} {id : String} {known : Knowledge} {row : IntentRow}

theorem Holds.mono (h : known.Holds db id)
    (hle : ∀ row, db.find id = some row → ∃ row', db'.find id = some row' ∧ row.Le row') :
    known.Holds db' id := by
  cases known with
  | nothing => trivial
  | contradiction => exact h
  | among statuses =>
    obtain ⟨hclosed, row, hf, hs⟩ := h
    obtain ⟨row', hf', hle⟩ := hle row hf
    exact ⟨hclosed, row', hf', hclosed _ hs _ hle.leads⟩

theorem holds_later (hf : db.find id = some row) : (Knowledge.among row.status.later).Holds db id :=
  ⟨fun _ hs _ ht => Status.Leads.trans hs ht, row, hf, Status.Leads.refl _⟩

theorem Holds.seen (h : known.Holds db id) (hf : db.find id = some row) :
    (known.seen row.status).Holds db id := by
  cases known with
  | nothing => exact holds_later hf
  | contradiction => exact h
  | among statuses =>
    obtain ⟨-, row', hf', hs⟩ := h
    obtain rfl := Option.some.inj (hf.symm.trans hf')
    rw [Knowledge.seen, if_pos hs]
    exact holds_later hf

theorem Holds.moved (h : known.Holds db id) (hf : db.find id = some row) :
    (known.moved row.status).Holds db id := by
  cases known with
  | contradiction => exact h
  | _ => exact holds_later hf

theorem Holds.missed (h : known.Holds db id) {named : List Status}
    (hmiss : ∀ row, db.find id = some row → row.status ∉ named) :
    (known.missed named).Holds db id := by
  cases known with
  | nothing => trivial
  | contradiction => exact h
  | among statuses =>
    obtain ⟨-, row, hf, hs⟩ := h
    refine ⟨later_closed _, row, hf, mem_later.mpr ⟨row.status, ?_, .refl _⟩⟩
    simpa using ⟨hs, hmiss row hf⟩

/-- The intent was in `s`, or is past it. -/
def Within (s : Status) (known : Knowledge) : Prop :=
  ∃ statuses, known = .among statuses ∧ ∀ t ∈ statuses, s.Leads t

theorem within_later (s : Status) : Within s (.among s.later) := ⟨_, rfl, fun _ ht => ht⟩

theorem Within.seen {s t : Status} (h : Within s known) (hc : known.seen t ≠ .contradiction) :
    Within s (known.seen t) ∧ s.Leads t := by
  obtain ⟨statuses, rfl, hs⟩ := h
  by_cases ht : t ∈ statuses
  · rw [Knowledge.seen, if_pos ht]
    exact ⟨⟨_, rfl, fun u hu => (hs t ht).trans hu⟩, hs t ht⟩
  · exact absurd (if_neg ht) hc

/-- A statement that named the status and did not apply. -/
theorem Within.missed {s : Status} (h : Within s known) (named : List Status) :
    ∃ statuses, known.missed named = .among statuses ∧
      ∀ u ∈ statuses, ∃ t, s.Leads t ∧ t ∉ named ∧ t.Leads u := by
  obtain ⟨statuses, rfl, hs⟩ := h
  refine ⟨_, rfl, fun u hu => ?_⟩
  obtain ⟨t, ht, htu⟩ := mem_later.mp hu
  obtain ⟨ht, hn⟩ := List.mem_filter.mp ht
  exact ⟨t, hs t ht, by simpa using hn, htu⟩

end Knowledge

section Run

variable {P : Platform} {ok : StepCond Op Op.Ret Failure Reply Call State} {k k' : Sys}
  {a : Act Op Op.Ret Failure Reply Call} {id : String} {known : Knowledge}

theorem Knowledge.Holds.step (h : known.Holds k.state.db id) (hk : Reach (system P) ok k)
    (hs : Step (system P) k a k') : known.Holds k'.state.db id :=
  h.mono fun _ hf => step_le hk hs hf

/-- **A reply teaches what is the case.** -/
theorem Knowledge.Holds.learn {pid : ℕ} {l : Call} {op : Op} {r : op.Ret}
    (h : known.Holds k.state.db id) (hk : Reach (system P) ok k)
    (hs : Step (system P) k (.op pid l op r) k') : (known.learn id op r).Holds k'.state.db id := by
  have hafter := h.step hk hs
  cases hs with
  | @op as bs _ _ _ cont _ s hp hx =>
    cases op with
    | findById i =>
      obtain ⟨rfl, rfl | rfl⟩ := exec_findById hx
      · exact hafter
      · cases hf : k.state.db.find i with
        | none => exact hafter
        | some row =>
          simp only [Knowledge.learn]
          split_ifs with hi hid
          · exact hafter
          · obtain rfl := not_not.mp hi
            exact Holds.seen hafter hf
          · obtain rfl := not_not.mp hi
            exact absurd (Db.find_id hf) hid
    | transition i request =>
      rcases exec_transition hx with ⟨rfl, rfl⟩ | ⟨t, rfl, rfl⟩
      · exact hafter
      rcases k.state.db.transition_cases P t i request with
        ⟨out, ho, hn, hnone⟩ | ⟨cur, hf, hfrom, hcan, hv, ho⟩
      · rw [ho] at hafter ⊢
        cases out with
        | error e => exact hafter
        | ok out =>
          cases out with
          | some row => exact absurd rfl (hn row)
          | none =>
            simp only [Knowledge.learn]
            split_ifs with hi
            · exact hafter
            · obtain rfl := not_not.mp hi
              exact Holds.missed hafter (hnone rfl)
      · rw [ho] at hafter ⊢
        simp only [Knowledge.learn]
        split_ifs with hi hid
        · exact hafter
        · obtain rfl := not_not.mp hi
          exact Holds.moved hafter ((Db.find_put (hid.1 ▸ hf) i).trans (if_pos hid.1.symm))
        · obtain rfl := not_not.mp hi
          exact absurd ⟨(Db.find_id hf : cur.id = i), rfl⟩ hid
    | updateInStatus i statuses patch =>
      rcases exec_updateInStatus hx with ⟨rfl, rfl⟩ | ⟨t, rfl, rfl⟩
      · exact hafter
      rcases k.state.db.updateInStatus_cases P t i statuses patch with
        ⟨out, ho, hn, hnone⟩ | ⟨cur, hf, hfrom, hv, ho⟩
      · rw [ho] at hafter ⊢
        cases out with
        | error e => exact hafter
        | ok out =>
          cases out with
          | some row => exact absurd rfl (hn row)
          | none =>
            simp only [Knowledge.learn]
            split_ifs with hi
            · exact hafter
            · obtain rfl := not_not.mp hi
              exact Holds.missed hafter (hnone rfl)
      · rw [ho] at hafter ⊢
        simp only [Knowledge.learn]
        split_ifs with hi
        · exact hafter
        · obtain rfl := not_not.mp hi
          have hid : (patch.updated P t cur).id = i := (Db.find_id hf : cur.id = i)
          exact Holds.seen hafter ((Db.find_put (hid ▸ hf) i).trans (if_pos hid.symm))
    | _ => exact hafter

end Run

/-! ## The monitor -/

/-- What a call knows and has done: how often it has loaded the intent and asked to move it, the row
it has loaded last, the row that recording an answer has returned, and whether a write of it has
applied that is not a note of an attempt. -/
structure Watch where
  known : Knowledge
  loads : ℕ
  moves : ℕ
  loaded : Option IntentRow
  recorded : Option IntentRow
  changed : Bool

def Watch.start : Watch := ⟨.nothing, 0, 0, none, none, false⟩

def Op.isLoad : Op → Bool
  | .findById _ => true
  | _ => false

def Op.isTransition : Op → Bool
  | .transition _ _ => true
  | _ => false

/-- The row that a load has returned. -/
def loadedRow : (op : Op) → op.Ret → Option IntentRow
  | .findById _, .ok (some row) => some row
  | _, _ => none

/-- The row that the recording of an answer has returned. -/
def recordedRow : (op : Op) → op.Ret → Option IntentRow
  | .transition _ request, .ok (some row) =>
    if request.patch.submissionAttemptCount then some row else none
  | .updateInStatus _ _ patch, .ok (some row) =>
    if patch.submissionAttemptCount then some row else none
  | _, _ => none

/-- A write has applied that is not a note of an attempt. -/
def alters : (op : Op) → op.Ret → Bool
  | .transition _ _, .ok (some _) => true
  | .updateInStatus _ _ patch, .ok (some _) => patch.submissionAttemptCount
  | .createIdempotent _, .ok (created, _) => created
  | _, _ => false

/-- Reads the operations of a call about intent `id`; a reply that does not satisfy `A` counts as a
contradiction. -/
def watch (A : (op : Op) → op.Ret → Bool) (id : String) : Monitor Op Op.Ret Watch where
  allow _ _ := True
  next w op r := {
    known := if A op r then w.known.learn id op r else .contradiction
    loads := w.loads + op.isLoad.toNat
    moves := w.moves + op.isTransition.toNat
    loaded := (loadedRow op r).or w.loaded
    recorded := (recordedRow op r).or w.recorded
    changed := w.changed || alters op r }

/-- An operation that says nothing about intents. -/
def Quiet : Op → Prop
  | .findById _ => False
  | .transition _ _ => False
  | .updateInStatus _ _ _ => False
  | .createIdempotent _ => False
  | _ => True

section Logic

variable {A : (op : Op) → op.Ret → Bool} {id : String} {α β : Type} {w : Watch}
  {R R' : Except Failure α → Watch → Prop}

theorem Quiet.next {op : Op} (h : Quiet op) (r : op.Ret) :
    (watch A id).next w op r =
      { w with known := if A op r then w.known else .contradiction } := by
  cases op with
  | findById | transition | updateInStatus | createIdempotent => cases h
  | _ => simp [watch, Knowledge.learn, Op.isLoad, Op.isTransition, loadedRow, recordedRow, alters]

theorem Knowledge.learn_contradiction (op : Op) (r : op.Ret) :
    Knowledge.contradiction.learn id op r = .contradiction := by
  unfold Knowledge.learn
  split <;> first | rfl | (split_ifs <;> rfl)

/-- The program ends as `R` says, unless a reply was contradictory. -/
def Watches (A : (op : Op) → op.Ret → Bool) (id : String) (w : Watch)
    (R : Except Failure α → Watch → Prop) (p : Service α) : Prop :=
  (watch A id).Follows (fun out w' => w'.known = .contradiction ∨ R out w') p w

theorem watches_contradiction (h : w.known = .contradiction) (p : Service α) :
    Watches A id w R p := by
  induction p generalizing w with
  | ret a => exact .inl h
  | fail e => exact .inl h
  | call op k ih =>
    refine ⟨trivial, fun r => ih r ?_⟩
    simp only [watch, h, Knowledge.learn_contradiction, ite_self]

theorem Watches.mono {p : Service α} (h : Watches A id w R p) (hR : ∀ out w', R out w' → R' out w') :
    Watches A id w R' p :=
  Monitor.Follows.mono h fun _ _ => Or.imp_right (hR _ _)

theorem Watches.bind {R' : Except Failure β → Watch → Prop} {p : Service α} {f : α → Service β}
    (h : Watches A id w R p) (hok : ∀ a w', R (.ok a) w' → Watches A id w' R' (f a))
    (herr : ∀ e w', R (.error e) w' → R' (.error e) w') : Watches A id w R' (p >>= f) :=
  Monitor.Follows.bind h
    (fun a w' ha => ha.elim (fun hc => watches_contradiction hc _) (hok a w'))
    fun e w' he => he.imp_right (herr e w')

/-- A program that says nothing about intents, on replies that satisfy `A`. -/
theorem watches_quiet {Q : Except Failure α → Prop} {p : Service α} (hq : p.Performs Quiet)
    (hg : p.Given (fun op r => A op r = true) Q) :
    Watches A id w (fun out w' => w' = w ∧ Q out) p := by
  induction p with
  | ret a => exact .inr ⟨rfl, hg⟩
  | fail e => exact .inr ⟨rfl, hg⟩
  | call op k ih =>
    refine ⟨trivial, fun r => ?_⟩
    rw [hq.1.next r]
    by_cases hA : A op r = true
    · rw [if_pos hA]
      exact ih r (hq.2 r) (hg r hA)
    · rw [if_neg hA]
      exact watches_contradiction rfl _

/-- **Sequencing** after a program that says nothing about intents. -/
theorem watches_after {R : Except Failure β → Watch → Prop} {p : Service α} {f : α → Service β}
    (hq : p.Performs Quiet) (herr : ∀ e, R (.error e) w)
    (hok : ∀ a, Watches A id w R (f a)) : Watches A id w R (p >>= f) := by
  have hidle : Watches A id w (fun _ w' => w' = w ∧ True) p :=
    watches_quiet hq (.any p fun _ => trivial)
  refine hidle.bind (fun a w' hw => ?_) fun e w' hw => ?_
  · rw [hw.1]
    exact hok a
  · rw [hw.1]
    exact herr e

/-- **Sequencing** after a program that says nothing about intents and, on replies that satisfy `A`,
ends well. -/
theorem watches_given {bad : Failure → Prop} {S : α → Prop} {R : Except Failure β → Watch → Prop}
    {p : Service α} {f : α → Service β} (hq : p.Performs Quiet)
    (hg : p.Given (fun op r => A op r = true) (Clean bad S)) (herr : ∀ e, ¬ bad e → R (.error e) w)
    (hok : ∀ a, S a → Watches A id w R (f a)) : Watches A id w R (p >>= f) := by
  refine (watches_quiet hq hg).bind (fun a w' hw => ?_) fun e w' hw => ?_
  · rw [hw.1]
    exact hok a hw.2
  · rw [hw.1]
    exact herr e hw.2

theorem watches_ret (a : α) (h : R (.ok a) w) : Watches A id w R (.ret a) := .inr h

theorem watches_fail (e : Failure) (h : R (.error e) w) : Watches A id w R (throwFailure e) := .inr h

theorem watches_load {R : Except Failure IntentRow → Watch → Prop}
    (hok : ∀ row, row.id = id → w.known.seen row.status ≠ .contradiction → R (.ok row)
      { w with known := w.known.seen row.status, loads := w.loads + 1, loaded := some row })
    (herr : ∀ e : DbError, R (.error e.failure) { w with loads := w.loads + 1 })
    (hnone : R (.error (ApiError .intentNotFound "Intent not found.")) { w with loads := w.loads + 1 }) :
    Watches A id w R (load id) := by
  refine ⟨trivial, fun r => ?_⟩
  by_cases hA : A (.findById id) r = true
  · cases r with
    | error e => exact .inr (by simpa [watch, hA, Knowledge.learn, Op.isLoad, Op.isTransition,
        loadedRow, recordedRow, alters] using herr e)
    | ok found =>
      cases found with
      | none => exact .inr (by simpa [watch, hA, Knowledge.learn, Op.isLoad, Op.isTransition,
          loadedRow, recordedRow, alters] using hnone)
      | some row =>
        by_cases hid : row.id = id
        · by_cases hc : w.known.seen row.status = .contradiction
          · exact .inl (by simp [watch, hid, hc, Knowledge.learn])
          · exact .inr (by simpa [watch, hA, hid, Knowledge.learn, Op.isLoad, Op.isTransition,
              loadedRow, recordedRow, alters] using hok row hid hc)
        · exact .inl (by simp [watch, hid, Knowledge.learn])
  · exact watches_contradiction (by simp [watch, hA]) _

/-- A transition, and what is done with its reply. -/
theorem watches_perform_transition {R : Except Failure β → Watch → Prop}
    {request : TransitionRequest} {f : Except DbError (Option IntentRow) → Service β}
    (hmoved : ∀ row, row.id = id → row.status = request.toStatus → Watches A id
      { w with
        known := w.known.moved row.status
        moves := w.moves + 1
        recorded := (if request.patch.submissionAttemptCount then some row else none).or w.recorded
        changed := true } R (f (.ok (some row))))
    (hmissed : Watches A id
      { w with known := w.known.missed request.fromStatuses, moves := w.moves + 1 } R (f (.ok none)))
    (herr : ∀ e : DbError, Watches A id { w with moves := w.moves + 1 } R (f (.error e))) :
    Watches A id w R (Prog.perform (Op.transition id request) >>= f) := by
  refine ⟨trivial, fun r => ?_⟩
  change Watches A id _ R (f r)
  by_cases hA : A (.transition id request) r = true
  · cases r with
    | error e => simpa [watch, hA, Knowledge.learn, Op.isLoad, Op.isTransition, loadedRow,
        recordedRow, alters] using herr e
    | ok out =>
      cases out with
      | none => simpa [watch, hA, Knowledge.learn, Op.isLoad, Op.isTransition, loadedRow,
          recordedRow, alters] using hmissed
      | some row =>
        by_cases hid : row.id = id ∧ row.status = request.toStatus
        · simpa [watch, hA, hid, Knowledge.learn, Op.isLoad, Op.isTransition, loadedRow,
            recordedRow, alters] using hmoved row hid.1 hid.2
        · exact watches_contradiction (by simp [watch, hid, Knowledge.learn]) _
  · exact watches_contradiction (by simp [watch, hA]) _

theorem watches_transition {R : Except Failure (Option IntentRow) → Watch → Prop}
    {request : TransitionRequest}
    (hmoved : ∀ row, row.id = id → row.status = request.toStatus → R (.ok (some row))
      { w with
        known := w.known.moved row.status
        moves := w.moves + 1
        recorded := (if request.patch.submissionAttemptCount then some row else none).or w.recorded
        changed := true })
    (hmissed : R (.ok none)
      { w with known := w.known.missed request.fromStatuses, moves := w.moves + 1 })
    (herr : ∀ e : DbError, R (.error e.failure) { w with moves := w.moves + 1 }) :
    Watches A id w R (transition id request) :=
  watches_perform_transition (fun row hid hs => watches_ret _ (hmoved row hid hs))
    (watches_ret _ hmissed) fun e => watches_fail _ (herr e)

theorem watches_updateInStatus {R : Except Failure (Option IntentRow) → Watch → Prop}
    {statuses : List Status} {patch : IntentPatch}
    (hfound : ∀ row, w.known.seen row.status ≠ .contradiction → R (.ok (some row))
      { w with
        known := w.known.seen row.status
        recorded := (if patch.submissionAttemptCount then some row else none).or w.recorded
        changed := w.changed || patch.submissionAttemptCount })
    (hmissed : R (.ok none) { w with known := w.known.missed statuses })
    (herr : ∀ e : DbError, R (.error e.failure) w) :
    Watches A id w R (updateInStatus id statuses patch) := by
  refine ⟨trivial, fun r => ?_⟩
  by_cases hA : A (.updateInStatus id statuses patch) r = true
  · cases r with
    | error e => exact .inr (by simpa [watch, hA, Knowledge.learn, Op.isLoad, Op.isTransition,
        loadedRow, recordedRow, alters] using herr e)
    | ok out =>
      cases out with
      | none => exact .inr (by simpa [watch, hA, Knowledge.learn, Op.isLoad, Op.isTransition,
          loadedRow, recordedRow, alters] using hmissed)
      | some row =>
        by_cases hc : w.known.seen row.status = .contradiction
        · exact .inl (by simp [watch, hc, Knowledge.learn])
        · exact .inr (by simpa [watch, hA, Knowledge.learn, Op.isLoad, Op.isTransition,
            loadedRow, recordedRow, alters] using hfound row hc)
  · exact watches_contradiction (by simp [watch, hA]) _

end Logic

/-! ## Along a run -/

section Run

variable {P : Platform} {ok : StepCond Op Op.Ret Failure Reply Call State} {k k' : Sys} {id : String}

/-- What call `pid` knows of intent `id`, and has done. -/
def watched (h : History) (id : String) (pid : ℕ) : Watch :=
  (watch (fun _ _ => true) id).after .start (own pid h)

/-- **What a call knows is the case.** -/
theorem reach_known (hk : Reach (system P) ok k) (id : String) (pid : ℕ) :
    (watched k.log id pid).known.Holds k.state.db id := by
  refine hk.inv (P := fun k => (watched k.log id pid).known.Holds k.state.db id)
    (fun s _ => trivial) fun k a k' hk ih hs _ => ?_
  have hafter := ih.step hk hs
  obtain hlog | ⟨pid', l, op, r, rfl, hlog⟩ := step_log hs
  · rw [hlog]
    exact hafter
  · rw [hlog]
    by_cases hp : pid' = pid
    · subst hp
      rw [watched, Monitor.after_self]
      simp only [watch, if_true]
      exact ih.learn hk hs
    · rw [watched, Monitor.after_other hp]
      exact hafter

variable {A : (op : Op) → op.Ret → Bool} {w : Watch} {es : History}

/-- Replies that satisfy `A` are no contradiction by themselves. -/
theorem after_of_all (hA : ∀ e ∈ es, A e.op e.ret = true) :
    (watch A id).after w es = (watch (fun _ _ => true) id).after w es := by
  induction es generalizing w with
  | nil => rfl
  | cons e es ih =>
    simp only [Monitor.after, List.foldl_cons]
    rw [show (watch A id).next w e.op e.ret = (watch (fun _ _ => true) id).next w e.op e.ret by
      simp [watch, hA e List.mem_cons_self]]
    exact ih fun e' he => hA e' (List.mem_cons_of_mem _ he)

/-- **What a call of a run ends with**, if its replies satisfy `A`. -/
theorem Reach.watched {l : Call} {R : Except Failure Reply → Watch → Prop}
    (hbody : Watches A id .start R (handle P l)) (hk : Reach (system P) ok k) {pid : ℕ}
    {out : Except Failure Reply} (hs : Step (system P) k (.finish pid l out) k')
    (hA : ∀ e ∈ own pid k.log, A e.op e.ret = true) :
    R out (Orchestrator.watched k.log id pid) := by
  cases hs with
  | @finish as bs _ _ p _ hp hout =>
    have hend := Monitor.sound (D := (· = l)) (fun _ hl => hl ▸ hbody) hk ⟨pid, l, p⟩
      (by simp [hp]) rfl
    rw [after_of_all hA] at hend
    have hknown := reach_known hk id pid
    have hno : ¬ (Orchestrator.watched k.log id pid).known = .contradiction := fun hc => by
      rw [hc] at hknown
      exact hknown
    cases p with
    | ret a => cases hout; exact hend.resolve_left hno
    | fail e => cases hout; exact hend.resolve_left hno
    | call => cases hout

/-! ## What the counters count -/

theorem after_loads (w : Watch) (es : History) :
    ((watch A id).after w es).loads = w.loads + es.countP fun e => e.op.isLoad := by
  induction es generalizing w with
  | nil => rfl
  | cons e es ih =>
    change ((watch A id).after ((watch A id).next w e.op e.ret) es).loads = _
    rw [ih, List.countP_cons]
    cases h : e.op.isLoad <;> simp [watch, h, Nat.add_assoc, Nat.add_comm 1]

theorem after_moves (w : Watch) (es : History) :
    ((watch A id).after w es).moves = w.moves + es.countP fun e => e.op.isTransition := by
  induction es generalizing w with
  | nil => rfl
  | cons e es ih =>
    change ((watch A id).after ((watch A id).next w e.op e.ret) es).moves = _
    rw [ih, List.countP_cons]
    cases h : e.op.isTransition <;> simp [watch, h, Nat.add_assoc, Nat.add_comm 1]

theorem after_changed (A : (op : Op) → op.Ret → Bool) (id : String) (w : Watch) (es : History) :
    ((watch A id).after w es).changed = (w.changed || es.any fun e => alters e.op e.ret) := by
  induction es generalizing w with
  | nil => simp [Monitor.after]
  | cons e es ih =>
    change ((watch A id).after ((watch A id).next w e.op e.ret) es).changed = _
    rw [ih, List.any_cons]
    simp [watch, Bool.or_assoc]

theorem after_loaded (w : Watch) (es : History) {row : IntentRow}
    (h : ((watch A id).after w es).loaded = some row) :
    w.loaded = some row ∨ ∃ e ∈ es, loadedRow e.op e.ret = some row := by
  induction es generalizing w with
  | nil => exact .inl h
  | cons e es ih =>
    obtain h | ⟨e', he', h⟩ := ih _ h
    · obtain h | ⟨-, h⟩ := Option.or_eq_some_iff.mp h
      · exact .inr ⟨e, List.mem_cons_self, h⟩
      · exact .inl h
    · exact .inr ⟨e', List.mem_cons_of_mem _ he', h⟩

theorem after_recorded (w : Watch) (es : History) {row : IntentRow}
    (h : ((watch A id).after w es).recorded = some row) :
    w.recorded = some row ∨ ∃ e ∈ es, recordedRow e.op e.ret = some row := by
  induction es generalizing w with
  | nil => exact .inl h
  | cons e es ih =>
    obtain h | ⟨e', he', h⟩ := ih _ h
    · obtain h | ⟨-, h⟩ := Option.or_eq_some_iff.mp h
      · exact .inr ⟨e, List.mem_cons_self, h⟩
      · exact .inl h
    · exact .inr ⟨e', List.mem_cons_of_mem _ he', h⟩

end Run

end Orchestrator
