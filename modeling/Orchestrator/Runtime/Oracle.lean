import Orchestrator.Interleave.Evaluation
import Orchestrator.Finality.Service
import Orchestrator.Runtime.System

/-!
# Calls that are answered by rule

A call with nothing else happening, whose requests are answered by a ledger that stands still: the
parts of a service call are functions of the state.

* `Oracle`, `Oracle.react`, `exec_react`: the answers, and an operation that gets them;
* `Oracle.Gives`, `Gives.bind`: what a part of a call returns, and the state it leaves;
* `gives_ask`, `gives_transition`, …: the parts; **`call_gives`**: a whole call.
-/

namespace Orchestrator

open Interleave

/-- A ledger that answers a request alike whenever it is asked, and the time. -/
structure Oracle where
  time : ℕ
  answer : LedgerRequest → LedgerResponse

namespace Oracle

variable (P : Platform)

/-- What the outside contributes to an operation. -/
def choice (o : Oracle) : Op → Choice
  | .randomUUID => .uuid ""
  | .receive q => .answer (.ok (o.answer q))
  | .switchEndpoint _ => .switched (.ok ())
  | _ => .time o.time

theorem isSome_perform (o : Oracle) (s : State) (op : Op) :
    (perform P s (o.choice op) op).isSome = true := by
  cases op <;> rfl

/-- An operation with the answer of the oracle. -/
def react (o : Oracle) (s : State) (op : Op) : op.Ret × State :=
  (perform P s (o.choice op) op).get (o.isSome_perform P s op)

variable {P}

theorem exec_react (o : Oracle) (s : State) (op : Op) :
    (system P).exec s op (o.react P s op).1 (o.react P s op).2 :=
  ⟨o.choice op, (Option.some_get _).symm⟩

variable (P) in
/-- From `s` the program returns `a`, and it leaves `s'`. -/
def Gives (o : Oracle) {α : Type} (p : Service α) (s : State) (a : α) (s' : State) : Prop :=
  p.eval (o.react P) s = (.ok a, s')

section Parts

variable {α β : Type} {o : Oracle} {s s' s'' : State} {p : Service α} {a : α} {b : β}

/-- **Sequencing.** -/
theorem Gives.bind {f : α → Service β} (h : o.Gives P p s a s') (hf : o.Gives P (f a) s' b s'') :
    o.Gives P (p >>= f) s b s'' :=
  (Prog.eval_bind_ok h f).trans hf

theorem Gives.map (h : o.Gives P p s a s') (f : α → β) : o.Gives P (f <$> p) s (f a) s' :=
  h.bind rfl

theorem gives_ret (a : α) : o.Gives P (.ret a) s a s := rfl

theorem gives_ofExcept {x : Except Failure α} (h : x = .ok a) : o.Gives P (ofExcept x) s a s := by
  rw [h]
  exact gives_ret a

theorem gives_orThrow {ε : Type} {x : Except ε α} (failure : ε → Failure) (h : x = .ok a) :
    o.Gives P (orThrow failure x) s a s := by
  rw [h]
  exact gives_ret a

theorem gives_required {value : Option α} (h : value = some a) (column : String) :
    o.Gives P (required value column) s a s := by
  rw [h]
  exact gives_ret a

/-- One operation. -/
theorem gives_perform {op : Op} {r : op.Ret} (h : o.react P s op = (r, s')) :
    o.Gives P (Prog.perform op) s r s' := by
  change (Except.ok (o.react P s op).1, (o.react P s op).2) = _
  rw [h]

theorem gives_now : o.Gives P now s o.time s := rfl

theorem gives_networkId : o.Gives P (Prog.perform Op.networkId) s s.networkId s := rfl

theorem gives_assertRecovered (h : s.recovered = true) : o.Gives P assertRecovered s () s := by
  have hret : (o.react P s .recovered).1 = true := h
  change (if (o.react P s .recovered).1 = true then pure () else throwFailure _ : Service Unit).eval
    (o.react P) _ = _
  rw [if_pos hret]
  rfl

/-- A command whose answer can be read. -/
theorem gives_ask {q : LedgerRequest} {read : LedgerResponse → Except Failure α}
    (h : read (o.answer q) = .ok a) : o.Gives P (ask q read) s a s :=
  gives_ofExcept h

theorem gives_load {id : String} {row : IntentRow} (h : s.db.find id = some row) :
    o.Gives P (load id) s row s := by
  have hfound : o.Gives P (findById id) s (some row) s :=
    (gives_perform rfl).bind (gives_orThrow DbError.failure (congrArg Except.ok h))
  exact hfound.bind rfl

/-- A statement that is not refused. -/
theorem gives_perform_transition {id : String} {request : TransitionRequest}
    {out : Option IntentRow} {db : Db} (h : s.db.transition P o.time id request = (.ok out, db)) :
    o.Gives P (Prog.perform (Op.transition id request)) s (.ok out) { s with db } :=
  gives_perform (congrArg (fun x => (x.1, { s with db := x.2 })) h)

theorem gives_transition {id : String} {request : TransitionRequest} {out : Option IntentRow}
    {db : Db} (h : s.db.transition P o.time id request = (.ok out, db)) :
    o.Gives P (transition id request) s out { s with db } :=
  (gives_perform_transition h).bind rfl

theorem gives_updateInStatus {id : String} {statuses : List Status} {patch : IntentPatch}
    {out : Option IntentRow} {db : Db}
    (h : s.db.updateInStatus P o.time id statuses patch = (.ok out, db)) :
    o.Gives P (updateInStatus id statuses patch) s out { s with db } := by
  have hperform : o.Gives P (Prog.perform (Op.updateInStatus id statuses patch)) s (.ok out)
      { s with db } := gives_perform (congrArg (fun x => (x.1, { s with db := x.2 })) h)
  exact hperform.bind rfl

/-- A `try` block that ends with a value. -/
theorem Gives.toExcept (h : o.Gives P p s a s') : o.Gives P p.toExcept s (.ok a) s' := by
  refine (Prog.eval_toExcept p s).trans ?_
  rw [show p.eval (o.react P) s = _ from h]

end Parts

section Whole

variable {k : Config Op Op.Ret Failure Reply Call State} {o : Oracle} {l : Call} {reply : Reply}
  {s' : State}

/-- **A call that is answered so**, in any configuration. -/
theorem call_gives (hk : Reach (system P) anyStep k)
    (hg : o.Gives P (handle P l) k.state reply s') :
    ∃ k₁ k', Runs (system P) (startsOnly l) k k₁ ∧
      Step (system P) k₁ (.finish k.next l (.ok reply)) k' ∧ k'.pool = k.pool ∧ k'.state = s' :=
  hk.eval_call o.exec_react hg

/-- The run of such a call. -/
theorem call_runs (hk : Reach (system P) anyStep k)
    (hg : o.Gives P (handle P l) k.state reply s') :
    ∃ k', Runs (system P) (startsOnly l) k k' ∧ k'.pool = k.pool ∧ k'.state = s' := by
  obtain ⟨k₁, k', hruns, hfinish, hpool, hstate⟩ := call_gives hk hg
  exact ⟨k', hruns.step hfinish (by simp [startsOnly]), hpool, hstate⟩

end Whole

end Oracle

end Orchestrator
