import Orchestrator.Interleave.System

/-!
# Single calls in a run

A call in a run performs its operations one by one, in states that the others have moved in
between. `Trace` is that: a program with the operations it has performed, each in a state of its
own. A `Monitor` is an automaton that reads the operations of one call and says which may come
next.

* `Done`, `Trace`, `own`: the operations of one call;
* **`Reach.calls`**: the numbers of calls are distinct, and every call in flight is a trace of what
  it runs, made of its own part of the history;
* `Monitor`, `Follows`, `Follows.bind`, **`Monitor.sound`**;
* **`Monitor.tracks`**: what the monitor of a call in flight says of the state.
-/

namespace Interleave

variable {Op : Type} {Ret : Op → Type} {ε α β L S σ : Type}

/-- An operation with the states before and after it. -/
structure Done (Op : Type) (Ret : Op → Type) (S : Type) where
  before : S
  op : Op
  ret : Ret op
  after : S

/-- `p` performs the operations `tr`, whatever happens between them, and is left with `p'`. -/
inductive Trace (sys : System Op Ret ε β L S) :
    Prog Op Ret ε α → List (Done Op Ret S) → Prog Op Ret ε α → Prop
  | refl (p : Prog Op Ret ε α) : Trace sys p [] p
  | call {s : S} {op : Op} {k : Ret op → Prog Op Ret ε α} {r : Ret op} {s' : S} {tr p'} :
      sys.exec s op r s' → Trace sys (k r) tr p' → Trace sys (.call op k) (⟨s, op, r, s'⟩ :: tr) p'

theorem Trace.snoc {sys : System Op Ret ε β L S} {p : Prog Op Ret ε α} {tr op k s r s'}
    (h : Trace sys p tr (.call op k)) (hx : sys.exec s op r s') :
    Trace sys p (tr ++ [⟨s, op, r, s'⟩]) (k r) := by
  generalize hq : Prog.call op k = q at h
  induction h with
  | refl => subst hq; exact .call hx (.refl _)
  | call hx' _ ih => exact .call hx' (ih hq)

/-- A program that has ended performs nothing more. -/
theorem Trace.of_outcome {sys : System Op Ret ε β L S} {p p' : Prog Op Ret ε α}
    {tr : List (Done Op Ret S)} {out : Except ε α} (h : Trace sys p tr p')
    (hout : p.outcome? = some out) : tr = [] ∧ p' = p := by
  cases h with
  | refl => exact ⟨rfl, rfl⟩
  | call => cases hout

/-- The history entry of an operation of call `pid`. -/
def Done.entry (pid : ℕ) (l : L) (d : Done Op Ret S) : Entry Op Ret L := ⟨pid, l, d.op, d.ret⟩

/-- The operations of call `pid`. -/
def own (pid : ℕ) (log : List (Entry Op Ret L)) : List (Entry Op Ret L) :=
  log.filter fun e => e.pid = pid

theorem mem_own {pid : ℕ} {log : List (Entry Op Ret L)} {e : Entry Op Ret L} :
    e ∈ own pid log ↔ e ∈ log ∧ e.pid = pid := by
  simp [own]

theorem own_append_self (pid : ℕ) (log : List (Entry Op Ret L)) (l : L) (op : Op) (r : Ret op) :
    own pid (log ++ [⟨pid, l, op, r⟩]) = own pid log ++ [⟨pid, l, op, r⟩] := by
  simp [own]

theorem own_append_other {pid pid' : ℕ} (h : pid' ≠ pid) (log : List (Entry Op Ret L)) (l : L)
    (op : Op) (r : Ret op) : own pid (log ++ [⟨pid', l, op, r⟩]) = own pid log := by
  simp [own, h]

variable (sys : System Op Ret ε α L S)

/-- What the calls of a configuration have in common. -/
structure Calls (c : Config Op Ret ε α L S) : Prop where
  nodup : (c.pool.map (·.pid)).Nodup
  pool_lt : ∀ t ∈ c.pool, t.pid < c.next
  log_lt : ∀ e ∈ c.log, e.pid < c.next
  trace : ∀ t ∈ c.pool, ∃ tr, Trace sys (sys.body t.label) tr t.prog ∧
    own t.pid c.log = tr.map (Done.entry t.pid t.label)

variable {sys} {ok : StepCond Op Ret ε α L S} {c c' : Config Op Ret ε α L S}

/-- In a pool without repetition, the others have other numbers. -/
theorem ne_of_nodup {as bs : List (Thread Op Ret ε α L)} {t : Thread Op Ret ε α L}
    (h : ((as ++ t :: bs).map (·.pid)).Nodup) : ∀ t' ∈ as ++ bs, t'.pid ≠ t.pid := by
  simp only [List.map_append, List.map_cons, List.nodup_append, List.nodup_cons, List.mem_map,
    List.mem_cons] at h
  obtain ⟨-, ⟨hb, -⟩, hab⟩ := h
  intro t' ht'
  rcases List.mem_append.mp ht' with ht' | ht'
  · exact hab _ ⟨t', ht', rfl⟩ _ (.inl rfl)
  · exact fun he => hb ⟨t', ht', he⟩

theorem Calls.sub (h : Calls sys c) {pool : List (Thread Op Ret ε α L)} (s : S)
    (hsub : pool.Sublist c.pool) : Calls sys { c with state := s, pool := pool } :=
  ⟨h.nodup.sublist (hsub.map _), fun t ht => h.pool_lt t (hsub.subset ht), h.log_lt,
    fun t ht => h.trace t (hsub.subset ht)⟩

theorem Calls.step (h : Calls sys c) {a} (hs : Step sys c a c') : Calls sys c' := by
  cases hs with
  | start l =>
    refine ⟨?_, fun t ht => ?_, fun e he => Nat.lt_succ_of_lt (h.log_lt e he), fun t ht => ?_⟩
    · simp only [List.map_append, List.map_cons, List.map_nil]
      refine List.nodup_append.mpr ⟨h.nodup, by simp, fun n hn m hm => ?_⟩
      obtain ⟨t, ht, rfl⟩ := List.mem_map.mp hn
      rw [List.mem_singleton.mp hm]
      exact Nat.ne_of_lt (h.pool_lt t ht)
    · rcases List.mem_append.mp ht with ht | ht
      · exact Nat.lt_succ_of_lt (h.pool_lt t ht)
      · rw [List.mem_singleton.mp ht]
        exact Nat.lt_succ_self _
    · rcases List.mem_append.mp ht with ht | ht
      · exact h.trace t ht
      · rw [List.mem_singleton.mp ht]
        refine ⟨[], .refl _, List.filter_eq_nil_iff.mpr fun e he => ?_⟩
        simpa using Nat.ne_of_lt (h.log_lt e he)
  | @op as bs pid l op k r s hp hx =>
    have hnodup := h.nodup
    rw [hp] at hnodup
    have hmem : ∀ t ∈ as ++ bs, t ∈ c.pool := by
      intro t ht
      rw [hp]
      rcases List.mem_append.mp ht with ht | ht <;> simp [ht]
    have hself : ⟨pid, l, .call op k⟩ ∈ c.pool := by simp [hp]
    refine ⟨by simpa using hnodup, fun t ht => ?_, fun e he => ?_, fun t ht => ?_⟩
    · simp only [List.mem_append, List.mem_cons] at ht
      rcases ht with ht | rfl | ht
      · exact h.pool_lt t (hmem t (by simp [ht]))
      · exact h.pool_lt ⟨pid, l, .call op k⟩ hself
      · exact h.pool_lt t (hmem t (by simp [ht]))
    · rcases List.mem_append.mp he with he | he
      · exact h.log_lt e he
      · rw [List.mem_singleton.mp he]
        exact h.pool_lt _ hself
    · have other : t ∈ as ++ bs → ∃ tr, Trace sys (sys.body t.label) tr t.prog ∧
          own t.pid (c.log ++ [⟨pid, l, op, r⟩]) = tr.map (Done.entry t.pid t.label) := by
        intro ht
        rw [own_append_other (ne_of_nodup hnodup t ht).symm]
        exact h.trace t (hmem t ht)
      simp only [List.mem_append, List.mem_cons] at ht
      rcases ht with ht | rfl | ht
      · exact other (by simp [ht])
      · obtain ⟨tr, htr, hown⟩ := h.trace _ hself
        refine ⟨tr ++ [⟨c.state, op, r, s⟩], htr.snoc hx, ?_⟩
        change own pid (c.log ++ [⟨pid, l, op, r⟩]) = _
        rw [own_append_self, hown, List.map_append]
        rfl
      · exact other (by simp [ht])
  | finish hp => exact h.sub _ (by rw [hp]; simp)
  | kill hp => exact h.sub _ (by rw [hp]; simp)
  | env => exact h.sub _ (List.Sublist.refl _)
  | restart => exact h.sub _ (List.nil_sublist _)

/-- **Every call of a run is a trace of its program.** -/
theorem Reach.calls (h : Reach sys ok c) : Calls sys c :=
  h.inv (fun _ _ => ⟨List.nodup_nil, by simp, by simp, by simp⟩)
    fun _ _ _ _ hc hs _ => hc.step hs

/-- Every entry of a call in flight names what was called. -/
theorem Reach.label (h : Reach sys ok c) {t : Thread Op Ret ε α L} (ht : t ∈ c.pool)
    {e : Entry Op Ret L} (he : e ∈ c.log) (hp : e.pid = t.pid) : e.label = t.label := by
  obtain ⟨tr, -, hown⟩ := h.calls.trace t ht
  have hmem : e ∈ own t.pid c.log := List.mem_filter.mpr ⟨he, by simpa using hp⟩
  rw [hown] at hmem
  obtain ⟨d, -, rfl⟩ := List.mem_map.mp hmem
  rfl

theorem Reach.step_label (h : Reach sys ok c) {pid : ℕ} {l : L} {op : Op} {r : Ret op}
    (hs : Step sys c (.op pid l op r) c') {e : Entry Op Ret L} (he : e ∈ c.log)
    (hp : e.pid = pid) : e.label = l := by
  cases hs with
  | @op as bs _ _ _ k _ _ hpool hx =>
    have hmem : ⟨pid, l, .call op k⟩ ∈ c.pool := by simp [hpool]
    exact h.label hmem he hp

theorem Reach.finish_label (h : Reach sys ok c) {pid : ℕ} {l : L} {out : Except ε α}
    (hs : Step sys c (.finish pid l out) c') {e : Entry Op Ret L} (he : e ∈ c.log)
    (hp : e.pid = pid) : e.label = l := by
  cases hs with
  | @finish as bs _ _ p _ hpool hout =>
    have hmem : ⟨pid, l, p⟩ ∈ c.pool := by simp [hpool]
    exact h.label hmem he hp

/-! ## Monitors -/

/-- An automaton over the operations of one call. -/
structure Monitor (Op : Type) (Ret : Op → Type) (σ : Type) where
  allow : σ → Op → Prop
  next : σ → (op : Op) → Ret op → σ

variable (m : Monitor Op Ret σ)

/-- From `st` on, every operation of the program is allowed, and `Q` holds where it ends. -/
def Monitor.Follows (Q : Except ε β → σ → Prop) : Prog Op Ret ε β → σ → Prop
  | .ret a, st => Q (.ok a) st
  | .fail e, st => Q (.error e) st
  | .call op k, st => m.allow st op ∧ ∀ r, Monitor.Follows Q (k r) (m.next st op r)

variable {m} {γ : Type} {Q Q' : Except ε β → σ → Prop}

theorem Monitor.Follows.mono {p : Prog Op Ret ε β} {st : σ} (h : m.Follows Q p st)
    (hQ : ∀ out st', Q out st' → Q' out st') : m.Follows Q' p st := by
  induction p generalizing st with
  | ret a => exact hQ _ _ h
  | fail e => exact hQ _ _ h
  | call op k ih => exact ⟨h.1, fun r => ih r (h.2 r)⟩

theorem Monitor.Follows.bind {R : Except ε γ → σ → Prop} {p : Prog Op Ret ε β} {f : β → Prog Op Ret ε γ}
    {st : σ} (h : m.Follows Q p st) (hok : ∀ a st', Q (.ok a) st' → m.Follows R (f a) st')
    (herr : ∀ e st', Q (.error e) st' → R (.error e) st') : m.Follows R (p >>= f) st := by
  induction p generalizing st with
  | ret a => exact hok a st h
  | fail e => exact herr e st h
  | call op k ih => exact ⟨h.1, fun r => ih r (h.2 r)⟩

theorem Monitor.Follows.toExcept {R : Except ε (Except ε β) → σ → Prop} {p : Prog Op Ret ε β} {st : σ}
    (h : m.Follows (fun out st' => R (.ok out) st') p st) : m.Follows R p.toExcept st := by
  induction p generalizing st with
  | ret a => exact h
  | fail e => exact h
  | call op k ih => exact ⟨h.1, fun r => ih r (h.2 r)⟩

/-- A program that performs only operations that the monitor ignores in a state. -/
theorem Monitor.Follows.idle {φ : Op → Prop} {st : σ} (hφ : ∀ op, φ op → m.allow st op ∧
    ∀ r, m.next st op r = st) {p : Prog Op Ret ε β} (h : p.Performs φ) :
    m.Follows (fun _ st' => st' = st) p st := by
  induction p with
  | ret a => rfl
  | fail e => rfl
  | call op k ih =>
    refine ⟨(hφ op h.1).1, fun r => ?_⟩
    rw [(hφ op h.1).2 r]
    exact ih r (h.2 r)

/-- The state of the monitor after a part of the history. -/
def Monitor.after (m : Monitor Op Ret σ) (st : σ) (es : List (Entry Op Ret L)) : σ :=
  es.foldl (fun st e => m.next st e.op e.ret) st

theorem Monitor.after_self (st : σ) (pid : ℕ) (log : List (Entry Op Ret L)) (l : L) (op : Op)
    (r : Ret op) : m.after st (own pid (log ++ [⟨pid, l, op, r⟩])) =
      m.next (m.after st (own pid log)) op r := by
  rw [own_append_self, Monitor.after, List.foldl_append]
  rfl

theorem Monitor.after_other {pid pid' : ℕ} (h : pid' ≠ pid) (st : σ) (log : List (Entry Op Ret L))
    (l : L) (op : Op) (r : Ret op) : m.after st (own pid (log ++ [⟨pid', l, op, r⟩])) =
      m.after st (own pid log) := by
  rw [own_append_other h]

theorem Monitor.Follows.trace {p p' : Prog Op Ret ε β} {tr : List (Done Op Ret S)} {st : σ}
    (h : m.Follows Q p st) (ht : Trace sys p tr p') (pid : ℕ) (l : L) :
    m.Follows Q p' (m.after st (tr.map (Done.entry pid l))) := by
  induction ht generalizing st with
  | refl => exact h
  | call _ _ ih => exact ih (h.2 _)

/-- **Soundness**: in every run, every call in flight follows the monitor from the state that its
own operations have led to. -/
theorem Monitor.sound {start : σ} {R : Except ε α → σ → Prop} {D : L → Prop}
    (hbody : ∀ l, D l → m.Follows R (sys.body l) start) (h : Reach sys ok c) :
    ∀ t ∈ c.pool, D t.label → m.Follows R t.prog (m.after start (own t.pid c.log)) := by
  intro t ht hl
  obtain ⟨tr, htr, hown⟩ := h.calls.trace t ht
  rw [hown]
  exact (hbody _ hl).trace htr _ _

theorem Step.mem_pool {pid : ℕ} {l : L} {op : Op} {r : Ret op}
    (hs : Step sys c (.op pid l op r) c') : ∃ k, ⟨pid, l, .call op k⟩ ∈ c.pool := by
  cases hs with
  | @op as bs _ _ _ k _ _ hp hx => exact ⟨k, by simp [hp]⟩

/-- **What is performed is allowed.** -/
theorem Monitor.step_allows {start : σ} {R : Except ε α → σ → Prop} {D : L → Prop}
    (hbody : ∀ l, D l → m.Follows R (sys.body l) start) (h : Reach sys ok c) {pid : ℕ} {l : L}
    {op : Op} {r : Ret op} (hs : Step sys c (.op pid l op r) c') (hl : D l) :
    m.allow (m.after start (own pid c.log)) op := by
  obtain ⟨k, hmem⟩ := hs.mem_pool
  exact (Monitor.sound hbody h _ hmem hl).1

/-- **What the monitor of a call in flight says of the state**: `G` holds at the start, the call's
own operations keep it, and so do those of the others and the surroundings. A restart leaves no call
in flight. -/
theorem Monitor.tracks {G : S → σ → Prop} {start : σ} (hstart : ∀ s, G s start)
    (hown : ∀ {c c' : Config Op Ret ε α L S} {pid l op r st}, Reach sys ok c →
      Step sys c (.op pid l op r) c' → G c.state st → G c'.state (m.next st op r))
    (hother : ∀ {c c' : Config Op Ret ε α L S} {pid l op r st}, Reach sys ok c →
      Step sys c (.op pid l op r) c' → G c.state st → G c'.state st)
    (henv : ∀ {s s' st}, sys.env s s' → G s st → G s' st) (h : Reach sys ok c) :
    ∀ t ∈ c.pool, G c.state (m.after start (own t.pid c.log)) := by
  refine h.inv (P := fun c => ∀ t ∈ c.pool, G c.state (m.after start (own t.pid c.log)))
    (fun s _ t ht => by cases ht) fun c a c' hc ih hs _ => ?_
  cases hs with
  | start l =>
    intro t ht
    rcases List.mem_append.mp ht with ht | ht
    · exact ih t ht
    · obtain rfl := List.mem_singleton.mp ht
      have hnew : own c.next c.log = [] :=
        List.filter_eq_nil_iff.mpr fun e he => by simpa using Nat.ne_of_lt (hc.calls.log_lt e he)
      change G c.state (m.after start (own c.next c.log))
      rw [hnew]
      exact hstart _
  | @op as bs pid l op k r s hp hx =>
    have hnodup := hc.calls.nodup
    rw [hp] at hnodup
    have other : ∀ t ∈ as ++ bs,
        G s (m.after start (own t.pid (c.log ++ [⟨pid, l, op, r⟩]))) := by
      intro t ht
      rw [Monitor.after_other (ne_of_nodup hnodup t ht).symm]
      refine hother hc (.op hp hx) (ih t ?_)
      rw [hp]
      rcases List.mem_append.mp ht with ht | ht <;> simp [ht]
    intro t ht
    simp only [List.mem_append, List.mem_cons] at ht
    rcases ht with ht | rfl | ht
    · exact other t (by simp [ht])
    · change G s (m.after start (own pid (c.log ++ [⟨pid, l, op, r⟩])))
      rw [Monitor.after_self]
      exact hown hc (.op hp hx) (ih ⟨pid, l, .call op k⟩ (by simp [hp]))
    · exact other t (by simp [ht])
  | finish hp | kill hp =>
    refine fun t ht => ih t ?_
    rw [hp]
    rcases List.mem_append.mp ht with ht | ht <;> simp [ht]
  | env hx => exact fun t ht => henv hx (ih t ht)
  | restart => exact fun t ht => by cases ht

end Interleave
