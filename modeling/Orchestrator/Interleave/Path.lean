import Orchestrator.Interleave.Calls

/-!
# Runs with what happened in them

* `Path`: a run, labelled with its steps in order;
* `Path.log_prefix`, `Path.started`: the history and the steps;
* `Along`: what every step of a run satisfies;
* **`Path.finished`**: a call that has returned has run its program to the end.
-/

namespace Interleave

variable {Op : Type} {Ret : Op → Type} {ε α L S : Type} (sys : System Op Ret ε α L S)

/-- A run from `c` to the last index, and the list of its steps. -/
inductive Path (c : Config Op Ret ε α L S) :
    List (Act Op Ret ε α L) → Config Op Ret ε α L S → Prop
  | refl : Path c [] c
  | step {as c' a c''} : Path c as c' → Step sys c' a c'' → Path c (as ++ [a]) c''

variable {sys} {c c' c'' : Config Op Ret ε α L S} {as bs : List (Act Op Ret ε α L)}

/-- Every step of a run from `c` to `c'` with the steps `acts` satisfies `φ`. -/
def Along (sys : System Op Ret ε α L S) (c : Config Op Ret ε α L S)
    (acts : List (Act Op Ret ε α L)) (c' : Config Op Ret ε α L S)
    (φ : StepCond Op Ret ε α L S) : Prop :=
  ∀ as a bs c₁ c₂, acts = as ++ a :: bs → Path sys c as c₁ → Step sys c₁ a c₂ →
    Path sys c₂ bs c' → φ c₁ a c₂

theorem Path.runs (h : Path sys c as c') : Runs sys anyStep c c' := by
  induction h with
  | refl => exact .refl
  | step _ hs ih => exact .step ih hs trivial

/-- Every run has its steps. -/
theorem Runs.path {ok : StepCond Op Ret ε α L S} (h : Runs sys ok c c') :
    ∃ as, Path sys c as c' := by
  induction h with
  | refl => exact ⟨[], .refl⟩
  | step _ hs _ ih =>
    obtain ⟨as, has⟩ := ih
    exact ⟨_, has.step hs⟩

/-- A start without history or calls in flight. -/
abbrev Config.start (s : S) : Config Op Ret ε α L S := ⟨⟨s, []⟩, [], 0⟩

theorem Path.reach {s : S} (hs : sys.init s) (h : Path sys (.start s) as c') :
    Reach sys anyStep c' :=
  ⟨s, hs, h.runs⟩

theorem Step.log_prefix {a : Act Op Ret ε α L} (h : Step sys c a c') : c.log <+: c'.log := by
  cases h with
  | op => exact List.prefix_append _ _
  | start | finish | kill | env | restart => exact List.prefix_rfl

theorem Step.mem_log {pid : ℕ} {l : L} {op : Op} {r : Ret op} (h : Step sys c (.op pid l op r) c') :
    ⟨pid, l, op, r⟩ ∈ c'.log := by
  cases h with
  | op => exact List.mem_append_right _ List.mem_cons_self

theorem Path.log_prefix (h : Path sys c as c') : c.log <+: c'.log := by
  induction h with
  | refl => exact List.prefix_rfl
  | step _ hs ih => exact ih.trans hs.log_prefix

/-- Every call in flight, and every call of the history, has started in the run. -/
theorem Path.started {s : S} (h : Path sys (.start s) as c) :
    (∀ t ∈ c.pool, .start t.pid t.label ∈ as) ∧ ∀ e ∈ c.log, .start e.pid e.label ∈ as := by
  induction h with
  | refl => exact ⟨fun _ ht => (nomatch ht), fun _ he => (nomatch he)⟩
  | @step as c a c' _ hs ih =>
    have mono {a' : Act Op Ret ε α L} (ha : a' ∈ as) : a' ∈ as ++ [a] :=
      List.mem_append_left _ ha
    cases hs with
    | start l =>
      refine ⟨fun t ht => ?_, fun e he => mono (ih.2 e he)⟩
      rcases List.mem_append.mp ht with ht | ht
      · exact mono (ih.1 t ht)
      · rw [List.mem_singleton.mp ht]
        simp
    | @op as bs pid l op k r s' hp hx =>
      have hself : Act.start pid l ∈ _ := ih.1 ⟨pid, l, .call op k⟩ (by simp [hp])
      refine ⟨fun t ht => ?_, fun e he => ?_⟩
      · simp only [List.mem_append, List.mem_cons] at ht
        rcases ht with ht | rfl | ht
        · exact mono (ih.1 t (by simp [hp, ht]))
        · exact mono hself
        · exact mono (ih.1 t (by simp [hp, ht]))
      · rcases List.mem_append.mp he with he | he
        · exact mono (ih.2 e he)
        · rw [List.mem_singleton.mp he]
          exact mono hself
    | finish hp | kill hp =>
      refine ⟨fun t ht => mono (ih.1 t ?_), fun e he => mono (ih.2 e he)⟩
      rcases List.mem_append.mp ht with ht | ht <;> simp [hp, ht]
    | env => exact ⟨fun t ht => mono (ih.1 t ht), fun e he => mono (ih.2 e he)⟩
    | restart => exact ⟨fun _ ht => (nomatch ht), fun e he => mono (ih.2 e he)⟩

/-- What is known of a call that has returned `out`. -/
structure Finished (sys : System Op Ret ε α L S) (c : Config Op Ret ε α L S) (pid : ℕ) (l : L)
    (out : Except ε α) : Prop where
  lt : pid < c.next
  gone : ∀ t ∈ c.pool, t.pid ≠ pid
  trace : ∃ tr p, Trace sys (sys.body l) tr p ∧ p.outcome? = some out ∧
    own pid c.log = tr.map (Done.entry pid l)

/-- **A call that has returned** has run its program to the end, and its operations are in the
history. -/
theorem Path.finished {s : S} (hi : sys.init s) (h : Path sys (.start s) as c) {pid : ℕ} {l : L}
    {out : Except ε α} (hf : .finish pid l out ∈ as) : Finished sys c pid l out := by
  induction h with
  | refl => cases hf
  | @step as c a c' hp hs ih =>
    have hcalls := (hp.reach hi).calls
    rcases List.mem_append.mp hf with hf | hf
    · obtain ⟨hlt, hgone, tr, p, htr, hout, hown⟩ := ih hf
      cases hs with
      | start l' =>
        refine ⟨Nat.lt_succ_of_lt hlt, fun t ht => ?_, tr, p, htr, hout, hown⟩
        rcases List.mem_append.mp ht with ht | ht
        · exact hgone t ht
        · rw [List.mem_singleton.mp ht]
          exact (Nat.ne_of_lt hlt).symm
      | @op as bs pid' l' op k r s' hpool hx =>
        have hne : pid' ≠ pid := hgone ⟨pid', l', .call op k⟩ (by simp [hpool])
        refine ⟨hlt, fun t ht => ?_, tr, p, htr, hout, (own_append_other hne ..).trans hown⟩
        simp only [List.mem_append, List.mem_cons] at ht
        rcases ht with ht | rfl | ht
        · exact hgone t (by simp [hpool, ht])
        · exact hne
        · exact hgone t (by simp [hpool, ht])
      | finish hpool | kill hpool =>
        refine ⟨hlt, fun t ht => hgone t ?_, tr, p, htr, hout, hown⟩
        rcases List.mem_append.mp ht with ht | ht <;> simp [hpool, ht]
      | env => exact ⟨hlt, hgone, tr, p, htr, hout, hown⟩
      | restart => exact ⟨hlt, fun _ ht => (nomatch ht), tr, p, htr, hout, hown⟩
    · obtain rfl := List.mem_singleton.mp hf
      cases hs with
      | @finish as bs _ _ p _ hpool hout =>
        have hself : ⟨pid, l, p⟩ ∈ c.pool := by simp [hpool]
        obtain ⟨tr, htr, hown⟩ := hcalls.trace _ hself
        exact ⟨hcalls.pool_lt _ hself, ne_of_nodup (hpool ▸ hcalls.nodup), tr, p, htr, hout, hown⟩

end Interleave
