import Orchestrator.Finality.Passes

/-!
# Degraded finality

An intent whose finality cannot be proven makes the tracker report `DEGRADED`. The flag is local
to the loop of a cycle and is published only if every later row is reconciled without an error.

* `Reports`: what the program of a cycle publishes is what it returns;
* `NotHidden`, `uncut`: the health that the outcomes ask for, and the step that misses it;
* **`degraded_not_hidden`** and **`degraded_hidden`**: with the condition, and without it.
-/

namespace Orchestrator

open Interleave

/-- An outcome of the pass was unprovable. -/
def Pass.unprovable (p : Pass) : Prop := p.outcomes.any (· == .unprovable) = true

instance (p : Pass) : Decidable p.unprovable := inferInstanceAs (Decidable (_ = true))

/-! ## What a cycle publishes -/

/-- The program completes a cycle only as its last operation, with the flag of its outcomes. -/
def Reports : Service Pass → Prop
  | .ret p => p.completed = false
  | .fail _ => True
  | .call op k => ((∀ degraded, op ≠ .completeCycle degraded) ∧ ∀ r, Reports (k r)) ∨
      ∃ p : Pass, op = .completeCycle (p.outcomes.any (· == .unprovable)) ∧ p.completed = true ∧
        ∀ r, k r = .ret p

/-- An operation that does not complete a cycle. -/
def Op.inCycle (op : Op) : Prop := ∀ degraded, op ≠ .completeCycle degraded

theorem reports_bind {α : Type} {p : Service α} {f : α → Service Pass} (hp : p.Performs Op.inCycle)
    (hf : ∀ a, Reports (f a)) : Reports (p >>= f) := by
  induction p with
  | ret a => exact hf a
  | fail e => trivial
  | call op k ih => exact .inl ⟨hp.1, fun r => ih r (hp.2 r)⟩

theorem reports_pass (P : Platform) : Reports (pass P) := by
  have resolving : ∀ row, Resolving Op.inCycle row := fun row =>
    ⟨⟨fun _ _ => nofun, fun _ _ => nofun, nofun, fun _ _ => nofun⟩, fun _ => nofun⟩
  have rows : passRows.toExcept.Performs Op.inCycle :=
    Prog.Performs.toExcept <| (performs_ask _ _ nofun nofun).bind fun n =>
      Prog.Performs.bind ⟨nofun, fun _ => performs_orThrow _ _⟩ fun rows => trivial
  refine reports_bind rows fun r => ?_
  cases r with
  | error e => rfl
  | ok r =>
    refine reports_bind (performs_examine resolving (fun _ _ => nofun) _ _ _) fun found => ?_
    obtain ⟨outcomes, result⟩ := found
    cases result with
    | ok u => exact .inr ⟨⟨outcomes, true⟩, rfl, rfl, fun _ => rfl⟩
    | error e => rfl

/-! ## The health after any number of cycles -/

abbrev FinalityFlight := Flight Op Op.Ret Failure Pass FinalityMemory

/-- The tracker is `DEGRADED` from a cycle with an unprovable outcome on, until one is completed
without. -/
def NotHidden (s : FinalityFlight) : Prop :=
  ∀ before after n (p : Pass), s.log = before ++ .finished n (.ok p) :: after → p.unprovable →
    (∀ m (q : Pass), Mark.finished m (.ok q) ∈ after → q.completed = true → q.unprovable) →
    s.memory.health = .degraded

/-- The answer ends a cycle with an error after an intent came out unprovable. -/
def cutsShort (s : FinalityFlight) : FlightEvent Op Op.Ret → Bool
  | .reply promise answer => s.loops.any fun l => l.promise == promise && match l.prog with
    | .call op k => match k (answer op) with
      | .ret p => !p.completed && decide p.unprovable
      | _ => false
    | _ => false
  | _ => false

/-- The steps that do not cut a cycle short. -/
def uncut (s : FinalityFlight) (e : FlightEvent Op Op.Ret) : Prop := cutsShort s e = false

instance (s : FinalityFlight) (e : FlightEvent Op Op.Ret) : Decidable (uncut s e) :=
  inferInstanceAs (Decidable (_ = false))

/-- What is known of the health, and of the cycle that is running. -/
structure Tracked (s : FinalityFlight) : Prop where
  shown : NotHidden s
  reports : ∀ l ∈ s.loops, l.prog.outcome? = none → Reports l.prog

variable {P : Platform} {s : FinalityFlight}

/-- The log goes on without a cycle that finishes. -/
theorem NotHidden.append (h : NotHidden s) {s' : FinalityFlight} (marks : List (Mark Failure Pass))
    (hm : ∀ n p, Mark.finished n (.ok p) ∉ marks) (hlog : s'.log = s.log ++ marks)
    (hmem : s'.memory = s.memory) : NotHidden s' := by
  intro before after n p he hp hafter
  rw [hlog] at he
  rw [hmem]
  obtain ⟨as, -, has⟩ | ⟨bs, hbs, hcs⟩ := List.append_eq_append_iff.mp he
  · exact absurd (has ▸ List.mem_append_right as List.mem_cons_self) (hm n _)
  · cases bs with
    | nil => exact absurd (hcs ▸ List.mem_cons_self) (hm n _)
    | cons b bs =>
      obtain ⟨rfl, rfl⟩ := List.cons.inj hcs
      exact h before bs n p hbs hp fun m q hq => hafter m q (List.mem_append_left _ hq)

/-- A cycle finishes: cut short without an unprovable outcome, or with its flag published. -/
theorem NotHidden.finish (h : NotHidden s) {s' : FinalityFlight} {n : ℕ} {p : Pass}
    (hlog : s'.log = s.log ++ [.finished n (.ok p)])
    (hp : (p.completed = false ∧ ¬ p.unprovable ∧ s'.memory = s.memory) ∨
      (p.completed = true ∧ (p.unprovable → s'.memory.health = .degraded))) : NotHidden s' := by
  intro before after m q he hq hafter
  rw [hlog] at he
  obtain rfl | ⟨as, y, rfl⟩ := List.eq_nil_or_concat after
  · obtain ⟨-, hy⟩ := List.append_inj' he rfl
    obtain rfl : p = q := by simpa using (Mark.finished.inj (List.cons.inj hy).1).2
    exact hp.elim (fun ⟨_, hnot, _⟩ => absurd hq hnot) fun ⟨_, hd⟩ => hd hq
  · have he : s.log ++ [.finished n (.ok p)] = (before ++ .finished m (.ok q) :: as) ++ [y] := by
      simpa using he
    obtain ⟨hs, hy⟩ := List.append_inj' he rfl
    obtain rfl := (List.cons.inj hy).1
    obtain ⟨-, -, hmem⟩ | ⟨hc, hd⟩ := hp
    · exact hmem ▸ h before as m q hs hq fun m q hm => hafter m q (by simp [hm])
    · exact hd (hafter n p (by simp) hc)

theorem update_inCycle (memory : FinalityMemory) {op : Op} (h : op.inCycle) (r : op.Ret) :
    memory.update op r = memory := by
  cases op with
  | completeCycle degraded => exact absurd rfl (h degraded)
  | _ => rfl

/-- **Every step keeps the health in line**, unless it cuts a cycle short. -/
theorem Tracked.step (h : Tracked s) {e : FlightEvent Op Op.Ret} {s' : FinalityFlight}
    (hs : (finalityService P).step s e = some s') (hok : uncut s e) : Tracked s' := by
  obtain grows | ⟨l, hl, answer, op, k, rfl, hprog, rfl⟩ := Flight.step_cases hs
  · obtain ⟨marks, hlog, hm⟩ := grows.log
    refine ⟨h.shown.append marks (fun n p => hm n _) hlog grows.memory, fun l hl hn => ?_⟩
    obtain hl | hl := grows.loops l hl
    · exact h.reports l hl hn
    · exact hl ▸ reports_pass P
  · have hreports : Reports (.call op k) := hprog ▸ h.reports l hl (by rw [hprog]; rfl)
    -- What is left of the cycle, and whether the health is published with this answer.
    have hcases : (op.inCycle ∧ Reports (k (answer op))) ∨ ∃ p : Pass,
        op = .completeCycle (p.outcomes.any (· == .unprovable)) ∧ p.completed = true ∧
          k (answer op) = .ret p :=
      hreports.imp (fun ⟨hop, hk⟩ => ⟨hop, hk _⟩) fun ⟨p, hop, hc, hk⟩ => ⟨p, hop, hc, hk _⟩
    refine ⟨?_, fun l' hl' hn => ?_⟩
    · obtain ⟨hop, hk⟩ | ⟨p, rfl, hc, hk⟩ := hcases
      · have hmem : s.memory.update op (answer op) = s.memory := update_inCycle _ hop _
        cases hout : k (answer op) with
        | ret p =>
          rw [hout] at hk
          have hnot : ¬ p.unprovable := by
            intro hp
            refine Bool.eq_false_iff.mp hok (List.any_eq_true.mpr ⟨l, hl, ?_⟩)
            simp [hprog, hout, show p.completed = false from hk, hp]
          exact h.shown.finish rfl (.inl ⟨hk, hnot, hmem⟩)
        | fail e => exact h.shown.append [.finished l.number (.error e)] (by simp) rfl hmem
        | call op' k' => exact h.shown.append [] (by simp) rfl hmem
      · rw [hk]
        refine h.shown.finish rfl (.inr ⟨hc, fun hp => ?_⟩)
        rw [Pass.unprovable] at hp
        simp [FinalityMemory.update, hp]
    · obtain ⟨l₀, hl₀, rfl⟩ := List.mem_map.mp hl'
      by_cases hp : l₀.promise = l.promise
      · rw [if_pos hp] at hn ⊢
        obtain ⟨-, hk⟩ | ⟨p, -, -, hk⟩ := hcases
        · exact hk
        · rw [hk] at hn
          cases hn
      · rw [if_neg hp] at hn ⊢
        exact h.reports l₀ hl₀ hn

/-- **Degraded is never hidden** in a run in which no error cuts a cycle short after an intent came
out unprovable. -/
theorem degraded_not_hidden (P : Platform) {s : FinalityFlight}
    (h : (finalityService P).Reach uncut s) : NotHidden s := by
  refine (h.inv (P := Tracked) (fun s hi => ?_) fun s e s' _ ih hs hok => ih.step hs hok).shown
  obtain rfl := hi
  exact ⟨fun before after n p he => by simp at he, by simp⟩

/-! ## A cycle that is cut short -/

namespace Sample

/-- An intent with Sequence `n` and a signature, prepared at ledger 1. -/
def waiting (n : ℕ) : IntentRow :=
  { NewIntentRow.row platform ⟨"i", "k", hash 0, 0, .payment, "rA", .null, 1, 1⟩ with
    id := String.ofList ['i', Nat.digitChar n]
    sourceAccount := String.ofList ['r', Nat.digitChar n]
    status := .signed
    preparedTxJson := some (.obj [("Sequence", .num n)])
    preparedTxBlob := some (String.ofList ['0', Nat.digitChar n])
    preparedLedgerIndex := some 1
    sequence := some n
    feeDrops := some "10"
    lastLedgerSequence := some 21
    simulationEngineResult := some "tesSUCCESS"
    signedTxBlob := some (String.ofList ['0', Nat.digitChar n, 'A', 'B'])
    transactionHash := some (hash n)
    signingPubKey := some "ED01" }

/-- The answers at ledger 30 with these intents waiting: no endpoint has the whole range of the
intent with Sequence 5, and the look-up of any other comes to `other`. -/
def gapFor5 (rows : List IntentRow) (other : LedgerResponse) : (op : Op) → op.Ret
  | .receive .ledger => .ok (.ok (ledgerAnswer 30))
  | .receive (.tx transaction _ _) =>
    .ok (if transaction = hash 5 then .error "txnNotFound" [("searched_all", .bool false)]
      else other)
  | .findByStatuses _ => .ok rows
  | .switchEndpoint _ => .ok ()
  | op => unreachable op

/-- One call of `runCycle` whose cycle asks for `n` operations, with the loop to its end. -/
def cycled (promise n : ℕ) (answer : (op : Op) → op.Ret) : List (FlightEvent Op Op.Ret) :=
  [.call] ++ List.replicate n (.reply promise answer) ++ [.resume promise]

end Sample

/-- An error after an unprovable intent leaves the health as it was. -/
theorem degraded_hidden : ∃ s : FinalityFlight,
    (finalityService Sample.platform).Reach Machine.anyEvent s ∧ s.memory.health = .healthy ∧
      ¬ NotHidden s := by
  refine ⟨_, .of_play rfl (show (finalityService Sample.platform).play
    ⟨false, none, [], 0, 0, ⟨.starting, false⟩, []⟩
    (Sample.cycled 0 4 (Sample.gapFor5 [] (.error "internal" [])) ++ Sample.cycled 1 10
      (Sample.gapFor5 [Sample.waiting 5, Sample.waiting 6] (.error "internal" []))) = some _
    from rfl), rfl, fun h => ?_⟩
  have hidden := h [.called 0, .started 0, .finished 0 (.ok ⟨[], true⟩), .settled 0, .called 1,
    .started 1] [.settled 1] 1 ⟨[.unprovable], false⟩ rfl rfl (by simp)
  cases hidden

/-- An unprovable intent, with an error only before it and another intent pending after it. -/
theorem degraded_not_hidden_gap : ∃ s : FinalityFlight, NotHidden s ∧
    s.memory.health = .degraded ∧ s.log = [.called 0, .started 0, .finished 0 (.ok ⟨[], false⟩),
      .settled 0, .called 1, .started 1, .finished 1 (.ok ⟨[.unprovable, .pending], true⟩),
      .settled 1] :=
  ⟨_, degraded_not_hidden Sample.platform (.of_restrict rfl
    (show ((finalityService Sample.platform).restrict uncut).play
      ⟨false, none, [], 0, 0, ⟨.starting, false⟩, []⟩
      (Sample.cycled 0 2 Sample.unreachable ++ Sample.cycled 1 11
        (Sample.gapFor5 [Sample.waiting 5, Sample.waiting 6] (.ok []))) = some _ from rfl)),
    rfl, rfl⟩

end Orchestrator
