import Mathlib
import Orchestrator.Common.Json

/-!
# The text of a JSON value

`JSON.stringify` is injective: from the text of a value, with anything behind it, the value can be
told. Numbers kept as text are left out, since what stands for them could be any text.

* `Json.Exact`: values without such numbers;
* `unescape_escapeChar`, `escaped_inj`: strings;
* `toString_int_inj`: numbers;
* **`stringify_injective`**.
-/

namespace Orchestrator

mutual

/-- No part of the value is a number kept as its text. -/
def Json.Exact : Json → Prop
  | .dec _ => False
  | .arr items => ExactItems items
  | .obj fields => ExactFields fields
  | _ => True

def ExactItems : List Json → Prop
  | [] => True
  | x :: xs => x.Exact ∧ ExactItems xs

def ExactFields : List (String × Json) → Prop
  | [] => True
  | (_, x) :: xs => x.Exact ∧ ExactFields xs

end

/-! ## Strings -/

section Strings

def hexDigit (c : Char) : ℕ := if c.isDigit then c.toNat - 48 else c.toNat - 87

/-- Reads the first character of a string back. -/
def unescape : List Char → Option (Char × List Char)
  | '\\' :: 'u' :: _ :: _ :: a :: b :: x => some (Char.ofNat (hexDigit a * 16 + hexDigit b), x)
  | '\\' :: 'n' :: x => some ('\n', x)
  | '\\' :: 'r' :: x => some ('\r', x)
  | '\\' :: 't' :: x => some ('\t', x)
  | '\\' :: 'b' :: x => some (Char.ofNat 8, x)
  | '\\' :: 'f' :: x => some (Char.ofNat 12, x)
  | '\\' :: c :: x => some (c, x)
  | c :: x => some (c, x)
  | [] => none

theorem hexDigit_digitChar : ∀ n < 32, Char.ofNat
    (hexDigit (Nat.digitChar (n / 16)) * 16 + hexDigit (Nat.digitChar (n % 16))) = Char.ofNat n := by
  decide

theorem unescape_escapeChar (c : Char) (x : List Char) :
    unescape ((escapeChar c).toList ++ x) = some (c, x) := by
  unfold escapeChar
  split_ifs with h1 h2 h3 h4 h5 h6 h7 h8
  · subst h1; rfl
  · subst h2; rfl
  · subst h3; rfl
  · subst h4; rfl
  · subst h5; rfl
  · obtain rfl : c = Char.ofNat 8 := by
      rw [← Char.ofNat_toNat c]
      exact congrArg Char.ofNat (congrArg UInt32.toNat h6)
    rfl
  · obtain rfl : c = Char.ofNat 12 := by
      rw [← Char.ofNat_toNat c]
      exact congrArg Char.ofNat (congrArg UInt32.toNat h7)
    rfl
  · have hlt : c.toNat < 32 := UInt32.lt_iff_toNat_lt.mp h8
    have hc := hexDigit_digitChar c.toNat hlt
    rw [Char.ofNat_toNat] at hc
    simpa [unescape] using hc
  · have hne : c ≠ '\\' := h2
    simp only [String.toList_ofList, List.singleton_append]
    unfold unescape
    split <;> simp_all

/-- No escape begins like the end of a string. -/
theorem escapeChar_ne_quote (c : Char) (x y : List Char) :
    (escapeChar c).toList ++ x ≠ '"' :: y := by
  unfold escapeChar
  split_ifs with h1 <;> simp_all

/-- The characters of a string between its quotes. -/
def escaped (cs : List Char) : List Char := cs.flatMap fun c => (escapeChar c).toList

/-- **The end of a string can be told.** -/
theorem escaped_inj {cs cs' r r' : List Char}
    (h : escaped cs ++ '"' :: r = escaped cs' ++ '"' :: r') : cs = cs' ∧ r = r' := by
  induction cs generalizing cs' with
  | nil =>
    cases cs' with
    | nil => exact ⟨rfl, List.tail_eq_of_cons_eq h⟩
    | cons c' cs' =>
      simp only [escaped, List.flatMap_cons, List.append_assoc] at h
      exact absurd h.symm (escapeChar_ne_quote _ _ _)
  | cons c cs ih =>
    simp only [escaped, List.flatMap_cons, List.append_assoc] at h ih
    cases cs' with
    | nil => exact absurd h (escapeChar_ne_quote _ _ _)
    | cons c' cs' =>
      simp only [List.flatMap_cons, List.append_assoc] at h
      have hc := congrArg unescape h
      rw [unescape_escapeChar, unescape_escapeChar, Option.some.injEq, Prod.mk.injEq] at hc
      obtain ⟨rfl, hrest⟩ := hc
      obtain ⟨rfl, hr⟩ := ih hrest
      exact ⟨rfl, hr⟩

theorem toList_quote (s : String) : (quote s).toList = '"' :: (escaped s.toList ++ ['"']) := by
  simp [quote, escaped, String.toList_join, List.flatMap_map]

theorem quote_inj {s t : String} {r r' : List Char}
    (h : (quote s).toList ++ r = (quote t).toList ++ r') : s = t ∧ r = r' := by
  simp only [toList_quote, List.cons_append, List.append_assoc] at h
  obtain ⟨hs, hr⟩ := escaped_inj (List.tail_eq_of_cons_eq h)
  exact ⟨String.toList_inj.mp hs, hr⟩

end Strings

/-! ## Numbers -/

section Numbers

/-- The characters of integers. -/
def isNumChar (c : Char) : Bool := c.isDigit || c == '-'

/-- What is behind a value in a text: nothing, or a comma or a bracket. -/
def Delimited (r : List Char) : Prop := ∀ c ∈ r.head?, isNumChar c = false

theorem isNumChar_of_mem_toString {n : ℤ} {c : Char} (h : c ∈ (toString n).toList) :
    isNumChar c = true := by
  have hnat : ∀ {m : ℕ}, c ∈ (toString m).toList → isNumChar c = true := by
    intro m hm
    have hd : c ∈ Nat.toDigits 10 m := by simpa [Nat.repr] using hm
    simp [isNumChar, Nat.isDigit_of_mem_toDigits (by decide) (by decide) hd]
  cases n with
  | ofNat m => exact hnat h
  | negSucc m =>
    have h' : c ∈ ("-" ++ toString (m + 1)).toList := h
    rw [String.toList_append, List.mem_append] at h'
    rcases h' with h' | h'
    · obtain rfl : c = '-' := List.mem_singleton.mp h'
      rfl
    · exact hnat h'

theorem toString_int_ne_empty (n : ℤ) : toString n ≠ "" := by
  cases n with
  | ofNat m => exact Nat.repr_ne_empty
  | negSucc m => exact fun h => absurd (congrArg String.toList h) (by simp [toString, Int.repr])

theorem takeWhile_append_delimited {cs r : List Char} (hcs : ∀ c ∈ cs, isNumChar c = true)
    (hr : Delimited r) : (cs ++ r).takeWhile isNumChar = cs := by
  rw [List.takeWhile_append_of_pos hcs]
  cases r with
  | nil => simp
  | cons c r => simp [hr c rfl]

/-- **The end of a number can be told.** -/
theorem toString_int_inj {n m : ℤ} {r r' : List Char} (hr : Delimited r) (hr' : Delimited r')
    (h : (toString n).toList ++ r = (toString m).toList ++ r') : n = m ∧ r = r' := by
  have hn := takeWhile_append_delimited (fun _ => isNumChar_of_mem_toString (n := n)) hr
  rw [h, takeWhile_append_delimited (fun _ => isNumChar_of_mem_toString) hr'] at hn
  rw [hn] at h
  have hrepr : n.repr = m.repr := (String.toList_inj.mp hn).symm
  exact ⟨Int.repr_inj.mp hrepr, List.append_cancel_left h⟩

end Numbers

/-! ## Values -/

section Values

/-- The rest of an array or object behind an item: more items, and the bracket that closes it. -/
def closing (close : Char) : List String → List Char
  | [] => [close]
  | x :: xs => ',' :: (x.toList ++ closing close xs)

theorem toList_intercalate_cons (close : Char) (x : String) (xs : List String) :
    (",".intercalate (x :: xs)).toList ++ [close] = x.toList ++ closing close xs := by
  induction xs generalizing x with
  | nil => simp [closing]
  | cons y xs ih =>
    rw [String.intercalate_cons_cons, String.toList_append, List.append_assoc, ih y]
    simp [closing]

/-- The text of the items between brackets. -/
def enclosed (close : Char) : List String → List Char
  | [] => [close]
  | x :: xs => x.toList ++ closing close xs

theorem toList_intercalate (close : Char) (xs : List String) :
    (",".intercalate xs).toList ++ [close] = enclosed close xs := by
  cases xs with
  | nil => simp [enclosed]
  | cons x xs => exact toList_intercalate_cons close x xs

/-- What the text of a value begins with. -/
def Json.Leads : Json → Char → Prop
  | .null, c => c = 'n'
  | .bool b, c => (c = 't' ∧ b = true) ∨ (c = 'f' ∧ b = false)
  | .num _, c => isNumChar c = true
  | .dec _, _ => False
  | .str _, c => c = '"'
  | .arr _, c => c = '['
  | .obj _, c => c = '\x7b'

theorem toList_arr (items : List Json) :
    (Json.arr items).stringify.toList = '[' :: enclosed ']' (stringifyItems items) := by
  rw [← toList_intercalate]
  simp [Json.stringify]

theorem toList_obj (fields : List (String × Json)) :
    (Json.obj fields).stringify.toList = '\x7b' :: enclosed '\x7d' (stringifyFields fields) := by
  rw [← toList_intercalate]
  simp [Json.stringify]

theorem Json.leads (j : Json) (hj : j.Exact) : ∃ c cs, j.stringify.toList = c :: cs ∧ j.Leads c := by
  cases j with
  | null => exact ⟨_, _, rfl, rfl⟩
  | bool b =>
    cases b with
    | false => exact ⟨_, _, rfl, .inr ⟨rfl, rfl⟩⟩
    | true => exact ⟨_, _, rfl, .inl ⟨rfl, rfl⟩⟩
  | num n =>
    cases hn : (toString n).toList with
    | nil => exact absurd (String.toList_eq_nil_iff.mp hn) (toString_int_ne_empty n)
    | cons c cs => exact ⟨c, cs, hn, isNumChar_of_mem_toString (hn ▸ List.mem_cons_self)⟩
  | dec t => exact hj.elim
  | str s => exact ⟨_, _, toList_quote s, rfl⟩
  | arr items => exact ⟨_, _, toList_arr items, rfl⟩
  | obj fields => exact ⟨_, _, toList_obj fields, rfl⟩

theorem delimited_close {close : Char} (hclose : isNumChar close = false) (xs : List String)
    (r : List Char) : Delimited (closing close xs ++ r) := by
  cases xs with
  | nil => exact fun c hc => by obtain rfl := Option.some.inj hc; exact hclose
  | cons x xs => exact fun c hc => by obtain rfl := Option.some.inj hc; rfl

/-- Two values of one kind. -/
inductive SameKind : Json → Json → Prop
  | null : SameKind .null .null
  | bool (b : Bool) : SameKind (.bool b) (.bool b)
  | num (n m : ℤ) : SameKind (.num n) (.num m)
  | str (s t : String) : SameKind (.str s) (.str t)
  | arr (xs ys : List Json) : SameKind (.arr xs) (.arr ys)
  | obj (xs ys : List (String × Json)) : SameKind (.obj xs) (.obj ys)

theorem Json.Leads.sameKind {a b : Json} {c : Char} (ha : a.Leads c) (hb : b.Leads c) :
    SameKind a b := by
  cases a <;> cases b
  case bool.bool b b' =>
    rcases ha with ⟨rfl, rfl⟩ | ⟨rfl, rfl⟩ <;> rcases hb with ⟨hc, rfl⟩ | ⟨hc, rfl⟩
    · exact .bool true
    · exact absurd hc (by decide)
    · exact absurd hc (by decide)
    · exact .bool false
  case bool.num => rcases ha with ⟨rfl, -⟩ | ⟨rfl, -⟩ <;> exact Bool.noConfusion hb
  case num.bool => rcases hb with ⟨rfl, -⟩ | ⟨rfl, -⟩ <;> exact Bool.noConfusion ha
  all_goals first
    | constructor
    | exact (Bool.false_ne_true (by simp_all [Json.Leads, isNumChar])).elim

/-- **The first character of a text tells the kind of the value.** -/
theorem sameKind_of_append {a b : Json} (ha : a.Exact) (hb : b.Exact) {r r' : List Char}
    (h : a.stringify.toList ++ r = b.stringify.toList ++ r') : SameKind a b := by
  obtain ⟨c, cs, hc, hl⟩ := a.leads ha
  obtain ⟨d, ds, hd, hl'⟩ := b.leads hb
  rw [hc, hd, List.cons_append, List.cons_append] at h
  exact hl.sameKind ((List.cons_eq_cons.mp h).1 ▸ hl')

/-- No value begins with a bracket that closes. -/
theorem Json.stringify_ne_close {j : Json} (hj : j.Exact) {close : Char}
    (hclose : close ∈ [']', '\x7d']) (x y : List Char) : j.stringify.toList ++ x ≠ close :: y := by
  obtain ⟨c, cs, hc, hl⟩ := j.leads hj
  rw [hc, List.cons_append]
  intro h
  obtain ⟨rfl, -⟩ := List.cons_eq_cons.mp h
  rcases List.mem_pair.mp hclose with rfl | rfl <;> cases j <;> simp [Json.Leads, isNumChar] at hl

theorem member_append_inj {k m : String} {x y : Json} {r r' : List Char}
    (h : (quote k ++ ":" ++ x.stringify).toList ++ r =
      (quote m ++ ":" ++ y.stringify).toList ++ r') :
    k = m ∧ x.stringify.toList ++ r = y.stringify.toList ++ r' := by
  simp only [String.toList_append, List.append_assoc] at h
  obtain ⟨rfl, hrest⟩ := quote_inj h
  exact ⟨rfl, List.tail_eq_of_cons_eq hrest⟩

theorem member_ne_close (k : String) (x : Json) (r r' : List Char) :
    (quote k ++ ":" ++ x.stringify).toList ++ r ≠ '\x7d' :: r' := by
  simp only [String.toList_append, toList_quote, List.cons_append]
  exact fun h => absurd (List.head_eq_of_cons_eq h) (by decide)

mutual

/-- **The end of a value can be told.** -/
theorem stringify_append_inj : ∀ (a b : Json), a.Exact → b.Exact → ∀ {r r' : List Char},
    Delimited r → Delimited r' → a.stringify.toList ++ r = b.stringify.toList ++ r' →
    a = b ∧ r = r'
  | .null, b, ha, hb, r, r', hr, hr', h => by
    cases sameKind_of_append ha hb h
    exact ⟨rfl, List.append_cancel_left h⟩
  | .bool t, b, ha, hb, r, r', hr, hr', h => by
    cases sameKind_of_append ha hb h
    exact ⟨rfl, List.append_cancel_left h⟩
  | .num n, b, ha, hb, r, r', hr, hr', h => by
    cases sameKind_of_append ha hb h
    obtain ⟨rfl, hrest⟩ := toString_int_inj hr hr' h
    exact ⟨rfl, hrest⟩
  | .dec t, b, ha, hb, r, r', hr, hr', h => ha.elim
  | .str s, b, ha, hb, r, r', hr, hr', h => by
    cases sameKind_of_append ha hb h
    obtain ⟨rfl, hrest⟩ := quote_inj h
    exact ⟨rfl, hrest⟩
  | .arr xs, b, ha, hb, r, r', hr, hr', h => by
    cases sameKind_of_append ha hb h with
    | arr _ ys =>
      simp only [toList_arr, List.cons_append] at h
      obtain ⟨rfl, hrest⟩ := enclosedItems_inj xs ys ha hb (List.tail_eq_of_cons_eq h)
      exact ⟨rfl, hrest⟩
  | .obj xs, b, ha, hb, r, r', hr, hr', h => by
    cases sameKind_of_append ha hb h with
    | obj _ ys =>
      simp only [toList_obj, List.cons_append] at h
      obtain ⟨rfl, hrest⟩ := enclosedFields_inj xs ys ha hb (List.tail_eq_of_cons_eq h)
      exact ⟨rfl, hrest⟩

theorem enclosedItems_inj : ∀ xs ys : List Json, ExactItems xs → ExactItems ys →
    ∀ {r r' : List Char},
    enclosed ']' (stringifyItems xs) ++ r = enclosed ']' (stringifyItems ys) ++ r' →
    xs = ys ∧ r = r'
  | [], [], _, _, r, r', h => ⟨rfl, List.tail_eq_of_cons_eq h⟩
  | [], y :: ys, _, hy, r, r', h => by
    simp only [stringifyItems, enclosed, List.append_assoc] at h
    exact absurd h.symm (Json.stringify_ne_close hy.1 (by decide) _ _)
  | x :: xs, [], hx, _, r, r', h => by
    simp only [stringifyItems, enclosed, List.append_assoc] at h
    exact absurd h (Json.stringify_ne_close hx.1 (by decide) _ _)
  | x :: xs, y :: ys, hx, hy, r, r', h => by
    simp only [stringifyItems, enclosed, List.append_assoc] at h
    obtain ⟨rfl, hxs⟩ := stringify_append_inj x y hx.1 hy.1
      (delimited_close rfl _ r) (delimited_close rfl _ r') h
    obtain ⟨rfl, hrest⟩ := closingItems_inj xs ys hx.2 hy.2 hxs
    exact ⟨rfl, hrest⟩

theorem closingItems_inj : ∀ xs ys : List Json, ExactItems xs → ExactItems ys →
    ∀ {r r' : List Char},
    closing ']' (stringifyItems xs) ++ r = closing ']' (stringifyItems ys) ++ r' →
    xs = ys ∧ r = r'
  | [], [], _, _, r, r', h => ⟨rfl, List.tail_eq_of_cons_eq h⟩
  | [], y :: ys, _, hy, r, r', h => absurd (List.head_eq_of_cons_eq h) (by decide)
  | x :: xs, [], hx, _, r, r', h => absurd (List.head_eq_of_cons_eq h) (by decide)
  | x :: xs, y :: ys, hx, hy, r, r', h => by
    simp only [stringifyItems, closing, List.cons_append, List.append_assoc] at h
    obtain ⟨rfl, hxs⟩ := stringify_append_inj x y hx.1 hy.1
      (delimited_close rfl _ r) (delimited_close rfl _ r') (List.tail_eq_of_cons_eq h)
    obtain ⟨rfl, hrest⟩ := closingItems_inj xs ys hx.2 hy.2 hxs
    exact ⟨rfl, hrest⟩

theorem enclosedFields_inj : ∀ xs ys : List (String × Json), ExactFields xs → ExactFields ys →
    ∀ {r r' : List Char},
    enclosed '\x7d' (stringifyFields xs) ++ r = enclosed '\x7d' (stringifyFields ys) ++ r' →
    xs = ys ∧ r = r'
  | [], [], _, _, r, r', h => ⟨rfl, List.tail_eq_of_cons_eq h⟩
  | [], (m, y) :: ys, _, hy, r, r', h => by
    simp only [stringifyFields, enclosed, List.append_assoc] at h
    exact absurd h.symm (member_ne_close m y _ _)
  | (k, x) :: xs, [], hx, _, r, r', h => by
    simp only [stringifyFields, enclosed, List.append_assoc] at h
    exact absurd h (member_ne_close k x _ _)
  | (k, x) :: xs, (m, y) :: ys, hx, hy, r, r', h => by
    simp only [stringifyFields, enclosed, List.append_assoc] at h
    obtain ⟨rfl, hv⟩ := member_append_inj h
    obtain ⟨rfl, hxs⟩ := stringify_append_inj x y hx.1 hy.1
      (delimited_close rfl _ r) (delimited_close rfl _ r') hv
    obtain ⟨rfl, hrest⟩ := closingFields_inj xs ys hx.2 hy.2 hxs
    exact ⟨rfl, hrest⟩

theorem closingFields_inj : ∀ xs ys : List (String × Json), ExactFields xs → ExactFields ys →
    ∀ {r r' : List Char},
    closing '\x7d' (stringifyFields xs) ++ r = closing '\x7d' (stringifyFields ys) ++ r' →
    xs = ys ∧ r = r'
  | [], [], _, _, r, r', h => ⟨rfl, List.tail_eq_of_cons_eq h⟩
  | [], _ :: _, _, _, r, r', h => absurd (List.head_eq_of_cons_eq h) (by decide)
  | _ :: _, [], _, _, r, r', h => absurd (List.head_eq_of_cons_eq h) (by decide)
  | (k, x) :: xs, (m, y) :: ys, hx, hy, r, r', h => by
    simp only [stringifyFields, closing, List.cons_append, List.append_assoc] at h
    obtain ⟨rfl, hv⟩ := member_append_inj (List.tail_eq_of_cons_eq h)
    obtain ⟨rfl, hxs⟩ := stringify_append_inj x y hx.1 hy.1
      (delimited_close rfl _ r) (delimited_close rfl _ r') hv
    obtain ⟨rfl, hrest⟩ := closingFields_inj xs ys hx.2 hy.2 hxs
    exact ⟨rfl, hrest⟩

end

/-- **`JSON.stringify` is injective.** -/
theorem stringify_injective {a b : Json} (ha : a.Exact) (hb : b.Exact)
    (h : a.stringify = b.stringify) : a = b := by
  have hend : Delimited [] := fun _ hc => nomatch hc
  have htext : a.stringify.toList ++ [] = b.stringify.toList ++ [] := by rw [h]
  exact (stringify_append_inj a b ha hb hend hend htext).1

end Values

end Orchestrator
