import Orchestrator.Common.Keyset
import Orchestrator.Database.Tables
import Orchestrator.Intents.Cursor
import Orchestrator.Runtime.Schedules

/-!
# Listing intents

`IntentsService.list` over `IntentsRepository.list`: the intents of a filter, newest first, a page
at a time. Whoever follows `nextCursor` may find other tables at every page.

* `ListIntentsQuery`, `IntentListFilter`, `Db.list`, `list`;
* `listKey`, `list_eq_page`: a page of the service is a page of keyset paging;
* `Db.Keyed`: distinct ids and times that a cursor can name;
* **`keyset_paging`**.
-/

namespace Orchestrator

/-- The query of `GET /v1/intents`, once it is validated. -/
structure ListIntentsQuery where
  type : Option IntentType
  status : Option Status
  account : Option String
  limit : Option ℕ
  cursor : Option String

structure IntentListFilter where
  type : Option IntentType
  status : Option Status
  account : Option String
  before : Option IntentCursor
  limit : ℕ

def intentListDefaultLimit : ℕ := 25

/-- The conditions on the columns that are compared with the filter. -/
def columnsMatch (type : Option IntentType) (status : Option Status) (account : Option String)
    (r : IntentRow) : Bool :=
  type.all (fun t => r.intentType == t) && status.all (fun s => r.status == s) &&
    account.all fun a => r.sourceAccount == a

def olderOrTiedLowerId (cursor : IntentCursor) (r : IntentRow) : Bool :=
  decide ((r.createdAt : ℤ) < cursor.createdAt) ||
    decide ((r.createdAt : ℤ) = cursor.createdAt) && decide (r.id.toList < cursor.id.toList)

def Db.list (db : Db) (filter : IntentListFilter) : List IntentRow :=
  let conditions (r : IntentRow) : Bool :=
    columnsMatch filter.type filter.status filter.account r &&
      filter.before.all fun cursor => olderOrTiedLowerId cursor r
  -- `ORDER BY created_at DESC, id DESC`
  ((db.rows.filter conditions).insertionSort fun r o => Db.createdBefore o r).take filter.limit

structure IntentPage where
  intents : List IntentRow
  nextCursor : Option String

/-- The place of a row in the list. -/
def IntentRow.cursor (r : IntentRow) : IntentCursor := ⟨r.createdAt, r.id⟩

/-- `query.limit ?? INTENT_LIST_DEFAULT_LIMIT`. -/
def ListIntentsQuery.pageSize (query : ListIntentsQuery) : ℕ :=
  query.limit.getD intentListDefaultLimit

def list (lossy : ByteArray → String) (db : Db) (query : ListIntentsQuery) :
    Except Failure IntentPage := do
  let limit := query.pageSize
  let before ← query.cursor.mapM (decodeCursor lossy)
  let rows := db.list
    { type := query.type, status := query.status, account := query.account, before,
      limit := limit + 1 }
  let page := rows.take limit
  let nextCursor :=
    if limit < rows.length then page.getLast?.map fun last => encodeCursor last.cursor else none
  return { intents := page, nextCursor }

/-- What the columns of a query ask for. -/
def ListIntentsQuery.matches (query : ListIntentsQuery) (r : IntentRow) : Bool :=
  columnsMatch query.type query.status query.account r

/-! ## Pages of the service are pages of keyset paging -/

/-- What the list is ordered by. -/
def IntentCursor.key (cursor : IntentCursor) : ℤ ×ₗ List Char :=
  toLex (cursor.createdAt, cursor.id.toList)

def listKey (r : IntentRow) : ℤ ×ₗ List Char := r.cursor.key

theorem createdBefore_iff (r o : IntentRow) : Db.createdBefore r o ↔ listKey r ≤ listKey o := by
  simp [Db.createdBefore, listKey, IntentCursor.key, IntentRow.cursor, Prod.Lex.toLex_le_toLex]

theorem olderOrTiedLowerId_iff (cursor : IntentCursor) (r : IntentRow) :
    olderOrTiedLowerId cursor r = decide (listKey r < cursor.key) := by
  simp [olderOrTiedLowerId, listKey, IntentCursor.key, IntentRow.cursor, Prod.Lex.toLex_lt_toLex]

/-- A row is found again by its key. -/
theorem listKey_injective {r o : IntentRow} (h : listKey r = listKey o) :
    r.id = o.id ∧ r.createdAt = o.createdAt := by
  have h := Prod.mk.inj (toLex.injective h)
  exact ⟨String.toList_injective h.2, Int.ofNat.inj h.1⟩

/-- **A query of the repository** reads the first rows below its bound. -/
theorem db_list_eq (db : Db) (filter : IntentListFilter) :
    db.list filter = (Keyset.rowsBelow listKey (filter.before.map IntentCursor.key)
      (db.rows.filter (columnsMatch filter.type filter.status filter.account))).take filter.limit := by
  have order : (fun r o => Db.createdBefore o r) = fun r o => listKey o ≤ listKey r :=
    funext fun r => funext fun o => propext (createdBefore_iff o r)
  have conditions : (fun r => columnsMatch filter.type filter.status filter.account r &&
      filter.before.all fun cursor => olderOrTiedLowerId cursor r) =
      fun r => ((filter.before.map IntentCursor.key).all fun k => decide (listKey r < k)) &&
        columnsMatch filter.type filter.status filter.account r := by
    funext r
    rw [Bool.and_comm, Option.all_map]
    simp only [olderOrTiedLowerId_iff]
  rw [Db.list, Keyset.rowsBelow, List.filter_filter, conditions]
  congr!

variable {lossy : ByteArray → String} {query : ListIntentsQuery}

/-- The page that the service reads is a page of keyset paging; the cursor names its last row. -/
theorem list_eq_page (query : ListIntentsQuery) (db : Db) {before : Option IntentCursor}
    (hb : query.cursor.mapM (decodeCursor lossy) = .ok before) :
    ∃ intents last, list lossy db query = .ok ⟨intents, last.map fun r => encodeCursor r.cursor⟩ ∧
      Keyset.page listKey query.pageSize (before.map IntentCursor.key)
        (db.rows.filter query.matches) = (intents, last.map listKey) ∧
      ∀ r, last = some r → intents.getLast? = some r := by
  let left := Keyset.rowsBelow listKey (before.map IntentCursor.key)
    (db.rows.filter query.matches)
  let last := if query.pageSize < left.length then (left.take query.pageSize).getLast? else none
  refine ⟨left.take query.pageSize, last, ?_, ?_, fun r hr => ?_⟩
  · have rows : db.list ⟨query.type, query.status, query.account, before, query.pageSize + 1⟩ =
        left.take (query.pageSize + 1) := db_list_eq db _
    have hlt : query.pageSize < (left.take (query.pageSize + 1)).length ↔
        query.pageSize < left.length := by
      rw [List.length_take]
      omega
    rw [list, hb]
    change Except.ok (IntentPage.mk _ _) = _
    simp only [rows, List.take_take, hlt, last]
    rw [min_eq_left (Nat.le_succ _)]
    split <;> rfl
  · rw [Keyset.page]
    simp only [last, left]
    split <;> rfl
  · simp only [last] at hr
    split at hr
    · exact hr
    · cases hr

/-- A page is only read for a cursor that can be read. -/
theorem cursor_of_list {db : Db} {page : IntentPage} (h : list lossy db query = .ok page) :
    ∃ before, query.cursor.mapM (decodeCursor lossy) = .ok before := by
  cases hb : query.cursor.mapM (decodeCursor lossy) with
  | ok before => exact ⟨before, rfl⟩
  | error e =>
    rw [list, hb] at h
    cases h

/-! ## Following the cursors -/

/-- A table that paging is for: ids tell rows apart, and a cursor can name every row. -/
structure Db.Keyed (db : Db) : Prop where
  nodup : (db.rows.map (·.id)).Nodup
  uuid : ∀ r ∈ db.rows, isUuid r.id = true
  time : ∀ r ∈ db.rows, r.createdAt ≤ IsoDate.maxTime

/-- The pages that are read by following `nextCursor`, each with the tables it was read from. -/
inductive Pages (lossy : ByteArray → String) (query : ListIntentsQuery) :
    Option String → List (Db × List IntentRow) → Prop
  | last {cursor db intents} : list lossy db { query with cursor } = .ok ⟨intents, none⟩ →
      Pages lossy query cursor [(db, intents)]
  | more {cursor db intents next pages} :
      list lossy db { query with cursor } = .ok ⟨intents, some next⟩ →
      Pages lossy query (some next) pages → Pages lossy query cursor ((db, intents) :: pages)

def listed (pages : List (Db × List IntentRow)) : List IntentRow := (pages.map Prod.snd).flatten

theorem Db.Keyed.keys {db : Db} (h : db.Keyed) (p : IntentRow → Bool) :
    ((db.rows.filter p).map listKey).Nodup :=
  List.pairwise_map.mpr (((List.pairwise_map.mp h.nodup).filter p).imp
    fun hne he => hne (listKey_injective he).1)

theorem Db.Keyed.cursor {db : Db} (h : db.Keyed) {r : IntentRow} (hr : r ∈ db.rows) :
    decodeCursor lossy (encodeCursor r.cursor) = .ok r.cursor :=
  decodeCursor_encodeCursor lossy (h.uuid r hr) (h.time r hr)

/-- What keyset paging sees of the pages. -/
def traversed (query : ListIntentsQuery) (pages : List (Db × List IntentRow)) :
    List (List IntentRow × List IntentRow) :=
  pages.map fun p => (p.1.rows.filter query.matches, p.2)

theorem listing_traversed (query : ListIntentsQuery) (pages : List (Db × List IntentRow)) :
    Keyset.listing (traversed query pages) = listed pages := by
  rw [Keyset.listing, listed, traversed, List.map_map]
  rfl

theorem mem_rows_of_page {db : Db} {p : IntentRow → Bool} {limit : ℕ}
    {bound next : Option (ℤ ×ₗ List Char)} {intents : List IntentRow}
    (h : Keyset.page listKey limit bound (db.rows.filter p) = (intents, next)) {r : IntentRow}
    (hr : r ∈ intents) : r ∈ db.rows := by
  rw [← (Prod.mk.inj h).1] at hr
  exact (List.mem_filter.mp (Keyset.mem_rowsBelow.mp (List.mem_of_mem_take hr)).1).1

/-- The cursor of a page is read back as the key of its last row. -/
theorem list_next {db : Db} (hd : db.Keyed) {before : Option IntentCursor} {cursor : Option String}
    {intents : List IntentRow} {next : Option String}
    (hb : cursor.mapM (decodeCursor lossy) = .ok before)
    (h : list lossy db { query with cursor } = .ok ⟨intents, next⟩) :
    ∃ last : Option IntentRow, next = last.map (fun r => encodeCursor r.cursor) ∧
      Keyset.page listKey query.pageSize (before.map IntentCursor.key)
        (db.rows.filter query.matches) = (intents, last.map listKey) ∧
      ∀ r, last = some r → intents.getLast? = some r ∧
        decodeCursor lossy (encodeCursor r.cursor) = .ok r.cursor := by
  obtain ⟨page, last, hl, hp, hlast⟩ :=
    list_eq_page { query with cursor } db hb
  obtain ⟨rfl, rfl⟩ := IntentPage.mk.inj (Except.ok.inj (hl.symm.trans h))
  exact ⟨last, rfl, hp, fun r hr => ⟨hlast r hr,
    hd.cursor (mem_rows_of_page hp (List.mem_of_getLast? (hlast r hr)))⟩⟩

/-- **Following the cursors is a traversal.** -/
theorem Pages.traversal {cursor : Option String} {pages : List (Db × List IntentRow)}
    (h : Pages lossy query cursor pages) (hd : ∀ p ∈ pages, p.1.Keyed)
    (before : Option IntentCursor)
    (hb : cursor.mapM (decodeCursor lossy) = .ok before) :
    Keyset.Traversal listKey query.pageSize (before.map IntentCursor.key)
      (traversed query pages) := by
  induction h generalizing before with
  | last hl =>
    obtain ⟨last, hn, hp, -⟩ := list_next (hd _ List.mem_cons_self) hb hl
    obtain rfl := Option.map_eq_none_iff.mp hn.symm
    exact .last hp
  | more hl hr ih =>
    obtain ⟨last, hn, hp, hlast⟩ := list_next (hd _ List.mem_cons_self) hb hl
    obtain ⟨r, rfl, rfl⟩ := Option.map_eq_some_iff.mp hn.symm
    exact .more hp (ih (fun p hp => hd p (List.mem_cons_of_mem _ hp))
      (some r.cursor) (by rw [Option.mapM_some, (hlast r rfl).2]; rfl))

/-- A traversal of one table is what following the cursors reads. -/
theorem Pages.exists_of_traversal {db : Db} (hd : db.Keyed) {bound : Option (ℤ ×ₗ List Char)}
    {pages : List (List IntentRow × List IntentRow)}
    (h : Keyset.Traversal listKey query.pageSize bound pages)
    (hrows : ∀ p ∈ pages, p.1 = db.rows.filter query.matches) {cursor : Option String}
    (before : Option IntentCursor) (hb : cursor.mapM (decodeCursor lossy) = .ok before)
    (hbound : before.map IntentCursor.key = bound) :
    Pages lossy query cursor (pages.map fun p => (db, p.2)) := by
  induction h generalizing cursor before with
  | last hp =>
    obtain ⟨intents, last, hl, hp', -⟩ := list_eq_page { query with cursor } db hb
    obtain rfl : _ = db.rows.filter query.matches := hrows _ List.mem_cons_self
    subst hbound
    obtain ⟨rfl, hn⟩ := Prod.mk.inj (hp'.symm.trans hp)
    obtain rfl := Option.map_eq_none_iff.mp hn
    exact .last hl
  | more hp hr ih =>
    obtain ⟨intents, last, hl, hp', hlast⟩ := list_eq_page { query with cursor } db hb
    obtain rfl : _ = db.rows.filter query.matches := hrows _ List.mem_cons_self
    subst hbound
    obtain ⟨rfl, hn⟩ := Prod.mk.inj (hp'.symm.trans hp)
    obtain ⟨r, rfl, hk⟩ := Option.map_eq_some_iff.mp hn
    have hnext : decodeCursor lossy (encodeCursor r.cursor) = .ok r.cursor :=
      hd.cursor (mem_rows_of_page hp' (List.mem_of_getLast? (hlast r rfl)))
    exact .more hl (ih (fun p hp => hrows p (List.mem_cons_of_mem _ hp))
      (some r.cursor) (by rw [Option.mapM_some, hnext]; rfl) (congrArg some hk))

/-! ## Paging is complete -/

/-- The order of the list: newest first, and by id where the times are equal. -/
def newerThan (r o : IntentRow) : Prop :=
  o.createdAt < r.createdAt ∨ (o.createdAt = r.createdAt ∧ o.id.toList < r.id.toList)

theorem newerThan_iff (r o : IntentRow) : newerThan r o ↔ listKey o < listKey r := by
  simp [newerThan, listKey, IntentCursor.key, IntentRow.cursor, Prod.Lex.toLex_lt_toLex]

theorem Pages.descending {pages : List (Db × List IntentRow)} (h : Pages lossy query none pages)
    (hl : 0 < query.pageSize) (hd : ∀ p ∈ pages, p.1.Keyed) :
    (listed pages).Pairwise newerThan := by
  have ht := h.traversal hd none rfl
  rw [← listing_traversed query]
  refine (ht.descending hl ?_).imp fun hlt => (newerThan_iff _ _).mpr hlt
  exact List.forall_mem_map.mpr fun p hp => (hd p hp).keys _

/-- A row that is there and matches at every page is listed exactly once. -/
theorem Pages.once {pages : List (Db × List IntentRow)} (h : Pages lossy query none pages)
    (hl : 0 < query.pageSize) (hd : ∀ p ∈ pages, p.1.Keyed) {id : String} {createdAt : ℕ}
    (hr : ∀ p ∈ pages, ∃ r ∈ p.1.rows, r.id = id ∧ r.createdAt = createdAt ∧
      query.matches r = true) : ((listed pages).map (·.id)).count id = 1 := by
  have ht := h.traversal hd none rfl
  have hk : ∀ p ∈ traversed query pages, (p.1.map listKey).Nodup :=
    List.forall_mem_map.mpr fun p hp => (hd p hp).keys _
  have key := ht.once hl hk (k := IntentCursor.key ⟨createdAt, id⟩) (by simp)
    (List.forall_mem_map.mpr fun p hp => by
      obtain ⟨r, hrm, hid, htime, hm⟩ := hr p hp
      exact ⟨r, List.mem_filter.mpr ⟨hrm, hm⟩, by rw [listKey, IntentRow.cursor, hid, htime]⟩)
  rw [listing_traversed query] at key
  rw [List.count_eq_countP, List.countP_map, ← key]
  refine List.countP_congr fun r hrl => ?_
  -- The row of a page that has the id is the one that is there throughout.
  rw [← listing_traversed query] at hrl
  obtain ⟨p, hp, hrp⟩ := Keyset.mem_listing.mp hrl
  have hrp := (ht.mem hl hk p hp r hrp).1
  obtain ⟨q, hq, rfl⟩ := List.mem_map.mp hp
  obtain ⟨o, ho, hoid, rfl, -⟩ := hr q hq
  simp only [Function.comp_apply, beq_iff_eq, decide_eq_true_eq]
  refine ⟨fun he => ?_, fun he => (listKey_injective (o := { o with id := id }) he).1⟩
  obtain rfl : r = o := List.inj_on_of_nodup_map (hd q hq).nodup (List.mem_filter.mp hrp).1 ho
    (he.trans hoid.symm)
  exact he ▸ rfl

/-- One table, read to the end: every match is listed, and nothing else. -/
theorem exists_pages (lossy : ByteArray → String) (query : ListIntentsQuery) {db : Db}
    (hd : db.Keyed) (hl : 0 < query.pageSize) :
    ∃ pages, Pages lossy query none pages ∧ (∀ p ∈ pages, p.1 = db) ∧
      ∀ r, r ∈ listed pages ↔ r ∈ db.rows ∧ query.matches r = true := by
  obtain ⟨found, ht, hrows⟩ := Keyset.Traversal.exists_of_rows query.pageSize
    (hd.keys query.matches) none
  have hp : Pages lossy query none (found.map fun p => (db, p.2)) :=
    .exists_of_traversal hd ht hrows none rfl rfl
  have hdb : ∀ p ∈ found.map fun p => (db, p.2), p.1 = db :=
    List.forall_mem_map.mpr fun _ _ => rfl
  have hkeyed : ∀ p ∈ found.map fun p => (db, p.2), p.1.Keyed := fun p hm => hdb p hm ▸ hd
  have sound : ∀ r ∈ listed (found.map fun p => (db, p.2)),
      r ∈ db.rows ∧ query.matches r = true := by
    intro r hr
    rw [listed, List.map_map] at hr
    obtain ⟨q, hq, hr⟩ := Keyset.mem_listing.mp hr
    have hk : ∀ p ∈ found, (p.1.map listKey).Nodup := fun p hp => hrows p hp ▸ hd.keys _
    exact List.mem_filter.mp (hrows q hq ▸ (ht.mem hl hk q hq r hr).1)
  refine ⟨_, hp, hdb, fun r => ⟨sound r, fun ⟨hr, hm⟩ => ?_⟩⟩
  have once := hp.once hl hkeyed fun p hp => ⟨r, (hdb p hp).symm ▸ hr, rfl, rfl, hm⟩
  obtain ⟨o, ho, hid⟩ := List.mem_map.mp (List.count_pos_iff.mp (once ▸ Nat.one_pos))
  exact List.inj_on_of_nodup_map hd.nodup (sound o ho).1 hr hid ▸ ho

/-- **Keyset paging is complete.** -/
theorem keyset_paging (lossy : ByteArray → String) (query : ListIntentsQuery)
    (hl : 0 < query.pageSize) :
    (∀ db : Db, db.Keyed → ∃ pages, Pages lossy query none pages ∧ (∀ p ∈ pages, p.1 = db) ∧
      (listed pages).Pairwise newerThan ∧
      ∀ r, r ∈ listed pages ↔ r ∈ db.rows ∧ query.matches r = true) ∧
    (∀ pages, Pages lossy query none pages → (∀ p ∈ pages, p.1.Keyed) →
      (listed pages).Pairwise newerThan ∧
      ∀ id createdAt, (∀ p ∈ pages, ∃ r ∈ p.1.rows, r.id = id ∧ r.createdAt = createdAt ∧
        query.matches r = true) → ((listed pages).map (·.id)).count id = 1) ∧
    ∀ (db : Db) cursor intents next, db.Keyed →
      list lossy db { query with cursor } = .ok ⟨intents, some next⟩ →
      ∃ last, intents.getLast? = some last ∧ next = encodeCursor last.cursor ∧
        decodeCursor lossy next = .ok last.cursor := by
  refine ⟨fun db hd => ?_, fun pages hp hd => ⟨hp.descending hl hd, fun _ _ => hp.once hl hd⟩,
    fun db cursor intents next hd hlist => ?_⟩
  · obtain ⟨pages, hp, hdb, hmem⟩ := exists_pages lossy query hd hl
    exact ⟨pages, hp, hdb, hp.descending hl fun p hm => hdb p hm ▸ hd, hmem⟩
  · obtain ⟨before, hb⟩ := cursor_of_list hlist
    obtain ⟨last, hn, -, hlast⟩ := list_next hd hb hlist
    obtain ⟨r, rfl, rfl⟩ := Option.map_eq_some_iff.mp hn.symm
    exact ⟨r, (hlast r rfl).1, rfl, (hlast r rfl).2⟩

namespace Sample

/-- An intent that was created in the first millisecond. -/
def listedRow (id : String) : IntentRow :=
  NewIntentRow.row platform ⟨id, id, hash 0, 0, .payment, "rA", .null, 1, 1⟩

/-- Two intents of the same time. -/
def tied : Db :=
  ⟨[listedRow "00000000-0000-4000-8000-000000000001",
    listedRow "00000000-0000-4000-8000-000000000002"], []⟩

theorem tied_keyed : tied.Keyed where
  nodup := by decide
  uuid := by decide
  time := by decide

end Sample

theorem keyset_paging_tied : ∃ pages,
    Pages (fun _ => "") ⟨none, none, none, some 1, none⟩ none pages ∧
    ((listed pages).map (·.id)).count "00000000-0000-4000-8000-000000000001" = 1 ∧
    ((listed pages).map (·.id)).count "00000000-0000-4000-8000-000000000002" = 1 := by
  obtain ⟨fixed, moving, -⟩ :=
    keyset_paging (fun _ => "") ⟨none, none, none, some 1, none⟩ (by decide)
  obtain ⟨pages, hp, hdb, -, -⟩ := fixed Sample.tied Sample.tied_keyed
  obtain ⟨-, once⟩ := moving pages hp fun p hm => hdb p hm ▸ Sample.tied_keyed
  refine ⟨pages, hp, once _ 1 fun p hm => ?_, once _ 1 fun p hm => ?_⟩
  · exact hdb p hm ▸ ⟨_, List.mem_cons_self, rfl, rfl, rfl⟩
  · exact hdb p hm ▸ ⟨_, List.mem_cons_of_mem _ List.mem_cons_self, rfl, rfl, rfl⟩

end Orchestrator
