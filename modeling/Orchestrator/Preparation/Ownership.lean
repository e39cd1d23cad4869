import Orchestrator.Interleave.Calls
import Orchestrator.Lifecycle.Changes

/-!
# Ownership of a Sequence

At most one intent of an account is in a sequence-active status, whatever calls are in flight, and
`prepareCreated` takes the slot in its last operation or writes nothing.

* `PreparesLast`: a program whose only write is its last operation;
* `TakesSlot`, `Untouched`: what an operation does to the tables;
* `PreparesLast.trace`: what such a program does, whatever happens between its operations;
* **`sequence_ownership`**.
-/

namespace Orchestrator

open Interleave

variable (P : Platform)

/-- The program reads, and then fails, or returns what its only write answered: the transition
of intent `id` to `PREPARED`. -/
def PreparesLast (id : String) : Service (Option IntentRow) → Prop
  | .ret _ => False
  | .fail _ => True
  | .call (.transition id' request) k =>
    id' = id ∧ (∃ transaction preparedTxBlob index sequence fee last t, request =
      preparedRequest transaction preparedTxBlob index sequence fee last t) ∧
    (∀ out, k (.ok out) = .ret out) ∧ ∀ e, ∃ failure, k (.error e) = .fail failure
  | .call op k => op.writes = false ∧ ∀ r, PreparesLast id (k r)

theorem PreparesLast.bind {id : String} {α : Type} {p : Service α}
    {f : α → Service (Option IntentRow)} (hp : p.Performs fun op => op.writes = false)
    (hf : ∀ a, PreparesLast id (f a)) : PreparesLast id (p >>= f) := by
  induction p with
  | ret a => exact hf a
  | fail e => trivial
  | call op k ih =>
    obtain ⟨hop, hk⟩ := hp
    cases op with
    | transition => cases hop
    | _ => exact ⟨hop, fun r => ih r (hk r)⟩

/-- **`prepareCreated` writes last, if at all.** -/
theorem prepareCreated_preparesLast (row : IntentRow) :
    PreparesLast row.id (prepareCreated P row) := by
  refine .bind (performs_assertRecovered rfl) fun _ => .bind (performs_orThrow _ _) fun intent => ?_
  refine .bind (performs_ask _ _ rfl rfl) fun account => ?_
  cases account with
  | none => trivial
  | some validated =>
    refine .bind (performs_ask _ _ rfl rfl) fun current => .bind (performs_orThrow _ _) fun _ => ?_
    refine .bind (performs_ask _ _ rfl rfl) fun index => ?_
    have hfee : openLedgerFee.Performs fun op => op.writes = false := performs_ask _ _ rfl rfl
    refine .bind (hfee.bind fun _ => performs_orThrow _ _) fun fee => ?_
    refine .bind (Prog.performs_perform rfl) fun networkId => .bind (performs_orThrow _ _) fun blob => ?_
    refine .bind (Prog.performs_perform rfl) fun t => ?_
    refine ⟨rfl, ⟨_, _, _, _, _, _, _, rfl⟩, fun out => rfl, fun e => ?_⟩
    cases e <;> exact ⟨_, rfl⟩

/-! ## What it does -/

/-- The operation leaves the tables as they were. -/
def Untouched (d : Done Op Op.Ret State) : Prop := d.after.db = d.before.db

/-- Every prepared column is set. -/
def HasPreparedColumns (row : IntentRow) : Prop :=
  row.preparedTxJson.isSome ∧ row.preparedTxBlob.isSome ∧ row.preparedLedgerIndex.isSome ∧
    row.sequence.isSome ∧ row.feeDrops.isSome ∧ row.lastLedgerSequence.isSome ∧
    row.preparedAt.isSome

/-- The operation moves intent `id` from `CREATED` to `PREPARED`, with every prepared column and
one audit row, and changes no other intent; the index admits the account. -/
def TakesSlot (id : String) (d : Done Op Op.Ret State) (updated : IntentRow) : Prop :=
  ∃ cur details, d.before.db.find id = some cur ∧ cur.status = .created ∧
    updated.status = .prepared ∧ updated.identity = cur.identity ∧ HasPreparedColumns updated ∧
    d.before.db.conflictsActive updated = false ∧
    (∀ id', d.after.db.find id' = if id' = id then some updated else d.before.db.find id') ∧
    d.after.db.audit = d.before.db.audit ++
      [⟨id, some .created, .prepared, .transactionPrepared, details⟩]

variable {P} {s s' : State}

/-- The transition to `PREPARED` takes the slot, or changes nothing. -/
theorem exec_prepared {id : String} {transaction : Record} {preparedTxBlob : String}
    {index sequence : ℕ} {fee : String} {last t : ℕ}
    {r : Op.Ret (.transition id (preparedRequest transaction preparedTxBlob index sequence fee last
      t))} (hx : (system P).exec s (.transition id _) r s') :
    (s'.db = s.db ∧ ∀ row, r ≠ .ok (some row)) ∨
      ∃ updated, TakesSlot id ⟨s, _, r, s'⟩ updated ∧ r = .ok (some updated) := by
  rcases exec_transition hx with ⟨rfl, rfl⟩ | ⟨now, rfl, rfl⟩
  · exact .inl ⟨rfl, by simp⟩
  · rcases s.db.transition_cases P now id (preparedRequest transaction preparedTxBlob index sequence
      fee last t) with ⟨out, ho, hn, -⟩ | ⟨cur, hf, hfrom, -, hv, ho⟩
    · rw [ho]
      exact .inl ⟨rfl, hn⟩
    · set request := preparedRequest transaction preparedTxBlob index sequence fee last t
      set updated := request.updated P now cur
      have hst : cur.status = .created := List.mem_singleton.mp hfrom
      have hid : updated.id = id := (Db.find_id hf : cur.id = id)
      have hconf : s.db.conflictsActive updated = false := by
        unfold Db.violation at hv
        split_ifs at hv with h1 h2
        simpa using h2
      refine .inr ⟨updated, ⟨cur, request.details, hf, hst, rfl, rfl,
        ⟨rfl, rfl, rfl, rfl, rfl, rfl, rfl⟩, hconf,
        fun id' => ?_, ?_⟩, by rw [ho]⟩
      · rw [ho, ← hid]
        exact Db.find_put (hid.symm ▸ hf) id'
      · rw [ho, ← hst]
        rfl

/-- **Whatever happens between its operations**, such a program leaves the tables alone and does
not return a row; or its last operation takes the slot, the others leave the tables alone, and it
returns the row. -/
theorem PreparesLast.trace {id : String} {p p' : Service (Option IntentRow)}
    {tr : List (Done Op Op.Ret State)} (hp : PreparesLast id p) (ht : Trace (system P) p tr p') :
    ((∀ d ∈ tr, Untouched d) ∧ ∀ row, p' ≠ .ret (some row)) ∨
      ∃ before d updated, tr = before ++ [d] ∧ (∀ d ∈ before, Untouched d) ∧
        TakesSlot id d updated ∧ p' = .ret (some updated) := by
  induction ht with
  | refl p =>
    refine .inl ⟨by simp, fun row he => ?_⟩
    rw [he] at hp
    exact hp
  | @call s op k r s' tr p' hx ht ih =>
    by_cases hw : op.writes = true
    · cases op with
      | transition id' request =>
        obtain ⟨rfl, ⟨transaction, blob, index, sequence, fee, last, t, rfl⟩, hret, hfail⟩ := hp
        -- after the transition the program has ended
        have hend : tr = [] ∧ p' = k r := by
          cases r with
          | ok out =>
            rw [hret] at ht ⊢
            cases ht
            exact ⟨rfl, rfl⟩
          | error e =>
            obtain ⟨failure, hf⟩ := hfail e
            rw [hf] at ht ⊢
            cases ht
            exact ⟨rfl, rfl⟩
        obtain ⟨rfl, rfl⟩ := hend
        rcases exec_prepared hx with ⟨hdb, hn⟩ | ⟨updated, htakes, rfl⟩
        · refine .inl ⟨fun d hd => ?_, fun row he => ?_⟩
          · rw [List.mem_singleton.mp hd]
            exact hdb
          · cases r with
            | ok out =>
              rw [hret] at he
              cases he
              exact hn row rfl
            | error e =>
              obtain ⟨failure, hf⟩ := hfail e
              rw [hf] at he
              cases he
        · exact .inr ⟨[], _, updated, rfl, by simp, htakes, hret _⟩
      | updateInStatus => exact absurd hw (by rw [hp.1]; decide)
      | createIdempotent => exact absurd hw (by rw [hp.1]; decide)
      | _ => cases hw
    · have hread : op.writes = false := by simpa using hw
      have hk : PreparesLast id (k r) := by
        cases op with
        | transition => cases hread
        | _ => exact hp.2 r
      obtain ⟨choice, hperform⟩ := hx
      have hdb : Untouched ⟨s, op, r, s'⟩ := perform_db hread hperform
      rcases ih hk with ⟨hall, hn⟩ | ⟨before, d, updated, rfl, hall, hrest⟩
      · exact .inl ⟨List.forall_mem_cons.mpr ⟨hdb, hall⟩, hn⟩
      · exact .inr ⟨_ :: before, d, updated, rfl, List.forall_mem_cons.mpr ⟨hdb, hall⟩, hrest⟩

/-- **Sequence ownership.** In every run, with any calls in flight, two sequence-active intents of
one account and network are the same; and every run of `prepareCreated`, whatever happens between
its operations, leaves the tables alone, and fails, or returns no row, or is not over; or leaves
them alone but for its last operation, which takes the slot. -/
theorem sequence_ownership (P : Platform) :
    (∀ (ok : StepCond Op Op.Ret Failure Reply Call State) (k : Sys), Reach (system P) ok k →
      ∀ r ∈ k.state.db.rows, ∀ o ∈ k.state.db.rows, r.status ∈ sequenceActiveStatuses →
        o.status ∈ sequenceActiveStatuses → o.networkId = r.networkId →
        o.sourceAccount = r.sourceAccount → o = r) ∧
    ∀ (row : IntentRow) (tr : List (Done Op Op.Ret State)) (p' : Service (Option IntentRow)),
      Trace (system P) (prepareCreated P row) tr p' →
      ((∀ d ∈ tr, Untouched d) ∧ ∀ row, p' ≠ .ret (some row)) ∨
        ∃ before d updated, tr = before ++ [d] ∧ (∀ d ∈ before, Untouched d) ∧
          TakesSlot row.id d updated ∧ p' = .ret (some updated) := by
  refine ⟨fun ok k hk r hr o ho hra hoa hn ha => ?_,
    fun row tr p' ht => (prepareCreated_preparesLast P row).trace ht⟩
  have hok := reach_ok hk
  have hindex : ∀ r : IntentRow, r.status ∈ sequenceActiveStatuses → r.active = true :=
    fun r h => List.contains_iff_mem.mpr h
  have hid := hok.active r hr o ho (hindex r hra) (hindex o hoa) hn ha
  exact Option.some.inj ((hok.ids o ho).symm.trans (hid ▸ hok.ids r hr))

/-- Two intents of one account, prepared at the same time: one of them is `PREPARED`, and no other
intent of the account is sequence-active. -/
theorem sequence_ownership_contended : ∃ (k : Sys) (r : IntentRow), r ∈ k.state.db.rows ∧
    k.state.db.rows.length = 2 ∧ r.status = .prepared ∧ ∀ o ∈ k.state.db.rows,
      o.status ∈ sequenceActiveStatuses → o.networkId = r.networkId →
        o.sourceAccount = r.sourceAccount → o = r := by
  obtain ⟨k, -, hk, hφ⟩ := exists_of_play Sample.platform anyStep [] (Sample.recovered 0 3 ++
      Sample.created 1 "i5" ++ Sample.created 2 "i6" ++ [.start (.prepare "i5")] ++
      Sample.tick 3 1 ++ [.start (.prepare "i6")] ++ Sample.tick 4 1 ++ Sample.gathered 3 5 3 ++
      Sample.gathered 4 5 3 ++ Sample.tick 4 1 ++ Sample.tick 3 1 ++ [.finish 3])
    (fun k => k.state.db.rows.length = 2 && k.state.db.rows.any fun r => r.status = .prepared)
    (by decide +kernel)
  obtain ⟨hlen, hany⟩ := Bool.and_eq_true_iff.mp hφ
  obtain ⟨r, hr, hst⟩ := List.any_eq_true.mp hany
  have hst : r.status = .prepared := of_decide_eq_true hst
  exact ⟨k, r, hr, of_decide_eq_true hlen, hst, fun o ho => (sequence_ownership
    Sample.platform).1 anyStep k hk r hr o ho (by rw [hst]; decide)⟩

end Orchestrator
