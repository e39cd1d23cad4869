import Mathlib.Data.List.Sort

/-!
# Keyset paging

Rows with pairwise different keys, listed in descending order a page at a time; the next page
begins below the last key of this one. The rows may be others from page to page.

* `rowsBelow`, `page`, `Traversal`: what is left to list, one page of it, pages until none is left;
* `page_last`, `page_more`: the two kinds of page;
* **`Traversal.descending`**, **`Traversal.once`**, **`Traversal.exists_of_rows`**.
-/

namespace Keyset

variable {α κ : Type*} [LinearOrder κ] (key : α → κ)

/-- The rows below a bound, in descending order. -/
def rowsBelow (before : Option κ) (rows : List α) : List α :=
  (rows.filter fun x => before.all fun k => decide (key x < k)).insertionSort
    fun x y => key y ≤ key x

/-- A page of at most `limit` rows, and the bound of the next page if there is one. -/
def page (limit : ℕ) (before : Option κ) (rows : List α) : List α × Option κ :=
  let left := rowsBelow key before rows
  let listed := left.take limit
  (listed, if limit < left.length then listed.getLast?.map key else none)

/-- The pages from a bound on, each with the rows that it was read from. -/
inductive Traversal (limit : ℕ) : Option κ → List (List α × List α) → Prop
  | last {before rows listed} : page key limit before rows = (listed, none) →
      Traversal limit before [(rows, listed)]
  | more {before rows listed next pages} : page key limit before rows = (listed, some next) →
      Traversal limit (some next) pages → Traversal limit before ((rows, listed) :: pages)

/-- What the pages list. -/
def listing (pages : List (List α × List α)) : List α := (pages.map Prod.snd).flatten

variable {key} {limit : ℕ} {before : Option κ} {rows listed : List α}

theorem mem_rowsBelow {x : α} :
    x ∈ rowsBelow key before rows ↔ x ∈ rows ∧ ∀ k, before = some k → key x < k := by
  rw [rowsBelow, List.mem_insertionSort, List.mem_filter]
  cases before <;> simp

/-- Different keys make the order strict. -/
theorem pairwise_rowsBelow (h : (rows.map key).Nodup) :
    (rowsBelow key before rows).Pairwise fun x y => key y < key x := by
  have sorted : (rowsBelow key before rows).Pairwise fun x y => key y ≤ key x :=
    List.pairwise_insertionSort _ _
  have distinct : (rowsBelow key before rows).Pairwise fun x y => key x ≠ key y := by
    have perm : (rowsBelow key before rows).Perm (rows.filter fun x =>
        before.all fun k => decide (key x < k)) := List.perm_insertionSort _ _
    refine (perm.pairwise_iff fun h => Ne.symm h).mpr ?_
    exact (List.pairwise_map.mp h).filter _
  exact (sorted.and distinct).imp fun ⟨hle, hne⟩ => lt_of_le_of_ne hle hne.symm

/-- A page without a next one lists all that is left. -/
theorem page_last (hl : 0 < limit) (h : page key limit before rows = (listed, none)) :
    listed = rowsBelow key before rows := by
  obtain ⟨rfl, hn⟩ := Prod.mk.inj h
  split at hn
  next hlt =>
    rw [Option.map_eq_none_iff, List.getLast?_eq_none_iff, List.take_eq_nil_iff] at hn
    obtain rfl | hn := hn
    · exact absurd hl (lt_irrefl 0)
    · simp [hn] at hlt
  next hlt => exact List.take_of_length_le (not_lt.mp hlt)

/-- A page with a next one begins what is left, and its last row gives the bound. -/
theorem page_more {next : κ} (h : page key limit before rows = (listed, some next)) :
    ∃ x rest, listed.getLast? = some x ∧ key x = next ∧ rowsBelow key before rows = listed ++ rest := by
  obtain ⟨rfl, hn⟩ := Prod.mk.inj h
  split at hn
  · obtain ⟨x, hx, rfl⟩ := Option.map_eq_some_iff.mp hn
    exact ⟨x, _, hx, rfl, (List.take_append_drop _ _).symm⟩
  · cases hn

/-- The bound separates the rows of the page from those that are left. -/
theorem page_bound (hk : (rows.map key).Nodup) {next : κ}
    (h : page key limit before rows = (listed, some next)) :
    (∀ x ∈ listed, next ≤ key x) ∧ (∀ x ∈ rowsBelow key before rows, next ≤ key x → x ∈ listed) ∧
      ∀ k, before = some k → next < k := by
  obtain ⟨z, rest, hz, rfl, hb⟩ := page_more h
  have sorted : (rowsBelow key before rows).Pairwise fun x y => key y < key x :=
    pairwise_rowsBelow hk
  rw [hb, List.pairwise_append] at sorted
  have hz' : z ∈ listed := List.mem_of_getLast? hz
  refine ⟨fun x hx => ?_, fun x hx hle => ?_, fun k hk => ?_⟩
  · obtain ⟨init, rfl⟩ := List.getLast?_eq_some_iff.mp hz
    obtain hx | hx := List.mem_append.mp hx
    · exact ((List.pairwise_append.mp sorted.1).2.2 x hx z (by simp)).le
    · exact (congrArg key (List.mem_singleton.mp hx)).ge
  · rw [hb] at hx
    obtain hx | hx := List.mem_append.mp hx
    · exact hx
    · exact absurd (sorted.2.2 z hz' x hx) (not_lt.mpr hle)
  · exact (mem_rowsBelow.mp (hb ▸ List.mem_append_left rest hz')).2 k hk

theorem mem_listing {pages : List (List α × List α)} {x : α} :
    x ∈ listing pages ↔ ∃ p ∈ pages, x ∈ p.2 := by
  simp only [listing, List.mem_flatten, List.mem_map]
  exact ⟨fun ⟨_, ⟨p, hp, he⟩, hx⟩ => ⟨p, hp, he ▸ hx⟩, fun ⟨p, hp, hx⟩ => ⟨_, ⟨p, hp, rfl⟩, hx⟩⟩

/-- What is listed was among the rows of its page, below the first bound. -/
theorem Traversal.mem {pages : List (List α × List α)} (h : Traversal key limit before pages)
    (hl : 0 < limit) (hk : ∀ p ∈ pages, (p.1.map key).Nodup) :
    ∀ p ∈ pages, ∀ x ∈ p.2, x ∈ p.1 ∧ ∀ k, before = some k → key x < k := by
  induction h with
  | last hp =>
    intro p hpm x hx
    obtain rfl := List.mem_singleton.mp hpm
    exact mem_rowsBelow.mp (page_last hl hp ▸ hx)
  | more hp _ ih =>
    intro p hpm x hx
    obtain rfl | hpm := List.mem_cons.mp hpm
    · obtain ⟨_, rest, -, -, hb⟩ := page_more hp
      exact mem_rowsBelow.mp (hb ▸ List.mem_append_left rest hx)
    · obtain ⟨hx, hlt⟩ := ih (fun p hp => hk p (List.mem_cons_of_mem _ hp)) p hpm x hx
      exact ⟨hx, fun k hbk => (hlt _ rfl).trans
        ((page_bound (hk _ List.mem_cons_self) hp).2.2 k hbk)⟩

/-- **The pages list in strictly descending order**, whatever the rows are from page to page. -/
theorem Traversal.descending {pages : List (List α × List α)}
    (h : Traversal key limit before pages) (hl : 0 < limit)
    (hk : ∀ p ∈ pages, (p.1.map key).Nodup) :
    (listing pages).Pairwise fun x y => key y < key x := by
  induction h with
  | last hp =>
    simpa [listing, page_last hl hp] using pairwise_rowsBelow (hk _ List.mem_cons_self)
  | @more before rows listed next pages hp hr ih =>
    have hk' : ∀ p ∈ pages, (p.1.map key).Nodup := fun p hp => hk p (List.mem_cons_of_mem _ hp)
    obtain ⟨_, rest, -, -, hb⟩ := page_more hp
    have sorted : (rowsBelow key before rows).Pairwise fun x y => key y < key x :=
      pairwise_rowsBelow (hk _ List.mem_cons_self)
    rw [hb, List.pairwise_append] at sorted
    rw [listing, List.map_cons, List.flatten_cons, List.pairwise_append]
    refine ⟨sorted.1, ih hk', fun x hx y hy => ?_⟩
    obtain ⟨p, hpm, hy⟩ := mem_listing.mp hy
    exact ((hr.mem hl hk' p hpm y hy).2 next rfl).trans_le
      ((page_bound (hk _ List.mem_cons_self) hp).1 x hx)

/-- **A row that is there throughout is listed exactly once.** -/
theorem Traversal.once {pages : List (List α × List α)} (h : Traversal key limit before pages)
    (hl : 0 < limit) (hk : ∀ p ∈ pages, (p.1.map key).Nodup) {k : κ}
    (hbefore : ∀ b, before = some b → k < b) (hmem : ∀ p ∈ pages, ∃ x ∈ p.1, key x = k) :
    (listing pages).countP (fun x => decide (key x = k)) = 1 := by
  have nodup : ((listing pages).map key).Nodup :=
    List.pairwise_map.mpr ((h.descending hl hk).imp fun hlt => hlt.ne')
  have count : (listing pages).countP (fun x => decide (key x = k)) =
      ((listing pages).map key).count k := by
    rw [List.count_eq_countP, List.countP_map]
    exact List.countP_congr fun x _ => by simp
  rw [count]
  refine List.count_eq_one_of_mem nodup ?_
  clear nodup count
  induction h with
  | last hp =>
    obtain ⟨x, hx, rfl⟩ := hmem _ List.mem_cons_self
    refine List.mem_map_of_mem (mem_listing.mpr ⟨_, List.mem_cons_self, ?_⟩)
    rw [page_last hl hp]
    exact mem_rowsBelow.mpr ⟨hx, hbefore⟩
  | @more before rows listed next pages hp hr ih =>
    rw [listing, List.map_cons, List.flatten_cons, List.map_append, List.mem_append]
    obtain ⟨x, hx, rfl⟩ := hmem _ List.mem_cons_self
    -- Either the page reaches down to the row, or the row is below the bound of the next page.
    obtain hle | hlt := le_or_gt next (key x)
    · exact .inl (List.mem_map_of_mem ((page_bound (hk _ List.mem_cons_self) hp).2.1 x
        (mem_rowsBelow.mpr ⟨hx, hbefore⟩) hle))
    · exact .inr (ih (fun p hp => hk p (List.mem_cons_of_mem _ hp))
        (fun b hb => Option.some.inj hb ▸ hlt) fun p hp => hmem p (List.mem_cons_of_mem _ hp))

/-- **Following the pages of fixed rows comes to an end.** -/
theorem Traversal.exists_of_rows (limit : ℕ) (hk : (rows.map key).Nodup)
    (before : Option κ) : ∃ pages, Traversal key limit before pages ∧ ∀ p ∈ pages, p.1 = rows := by
  induction hn : (rowsBelow key before rows).length using Nat.strong_induction_on generalizing before with
  | _ n ih =>
    cases hp : page key limit before rows with
    | mk listed next =>
      cases next with
      | none => exact ⟨[(rows, listed)], .last hp, fun p hp => List.mem_singleton.mp hp ▸ rfl⟩
      | some next =>
        obtain ⟨x, rest, hx, rfl, hb⟩ := page_more hp
        have hx : x ∈ rowsBelow key before rows :=
          hb ▸ List.mem_append_left rest (List.mem_of_getLast? hx)
        -- The last row of the page is no longer left.
        have nodup : (x :: rowsBelow key (some (key x)) rows).Nodup := by
          refine List.nodup_cons.mpr ⟨fun hm => lt_irrefl _ ((mem_rowsBelow.mp hm).2 _ rfl), ?_⟩
          exact (pairwise_rowsBelow hk).imp fun hlt he => hlt.ne (congrArg key he).symm
        have subset : x :: rowsBelow key (some (key x)) rows ⊆ rowsBelow key before rows := by
          intro y hy
          obtain rfl | hy := List.mem_cons.mp hy
          · exact hx
          · obtain ⟨hy, hlt⟩ := mem_rowsBelow.mp hy
            exact mem_rowsBelow.mpr
              ⟨hy, fun k hbk => (hlt _ rfl).trans ((mem_rowsBelow.mp hx).2 k hbk)⟩
        obtain ⟨pages, hpages, hrows⟩ :=
          ih _ (hn ▸ (List.subperm_of_subset nodup subset).length_le) (some (key x)) rfl
        exact ⟨_, .more hp hpages,
          fun p hp => (List.mem_cons.mp hp).elim (fun he => he ▸ rfl) (hrows p)⟩

end Keyset
