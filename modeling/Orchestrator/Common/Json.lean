import Mathlib.Data.Int.Notation
import Mathlib.Data.List.Basic
import Mathlib.Tactic.Common

/-!
# JSON values

Everything from the network and every JSONB column is a JSON value that the code narrows field by
field. Objects keep the order of their keys, because `JSON.stringify` shows it; a JSONB column
does not, and `Json.Same` is equality up to it.

* `Json`, `Record`, `Record.get?`, `Record.remove`: values and JavaScript's operations on objects;
* `asRecord`: the narrowing of `types.ts`;
* `Json.stringify`: `JSON.stringify`;
* `Json.Same`: the same value, with the keys of objects in any order.
-/

namespace Orchestrator

/-- A JSON value. A number that is not an integer is kept as its text. -/
inductive Json where
  | null
  | bool (b : Bool)
  | num (n : ℤ)
  | dec (text : String)
  | str (s : String)
  | arr (items : List Json)
  | obj (fields : List (String × Json))
  deriving Inhabited

/-- `Record<string, unknown>`. -/
abbrev Record := List (String × Json)

namespace Json

mutual

/-- Equality of values, keys in order. -/
def beq : Json → Json → Bool
  | .null, .null => true
  | .bool a, .bool b => a == b
  | .num a, .num b => a == b
  | .dec a, .dec b => a == b
  | .str a, .str b => a == b
  | .arr a, .arr b => beqItems a b
  | .obj a, .obj b => beqFields a b
  | _, _ => false

def beqItems : List Json → List Json → Bool
  | [], [] => true
  | x :: xs, y :: ys => x.beq y && beqItems xs ys
  | _, _ => false

def beqFields : List (String × Json) → List (String × Json) → Bool
  | [], [] => true
  | (k, x) :: xs, (m, y) :: ys => k == m && x.beq y && beqFields xs ys
  | _, _ => false

end

mutual

theorem beq_iff : ∀ a b : Json, a.beq b = true ↔ a = b
  | .null, b => by cases b <;> simp [beq]
  | .bool _, b => by cases b <;> simp [beq]
  | .num _, b => by cases b <;> simp [beq]
  | .dec _, b => by cases b <;> simp [beq]
  | .str _, b => by cases b <;> simp [beq]
  | .arr xs, b => by cases b <;> simp [beq, beqItems_iff xs]
  | .obj xs, b => by cases b <;> simp [beq, beqFields_iff xs]

theorem beqItems_iff : ∀ a b : List Json, beqItems a b = true ↔ a = b
  | [], b => by cases b <;> simp [beqItems]
  | x :: xs, b => by cases b <;> simp [beqItems, beq_iff x, beqItems_iff xs]

theorem beqFields_iff : ∀ a b : List (String × Json), beqFields a b = true ↔ a = b
  | [], b => by cases b <;> simp [beqFields]
  | (k, x) :: xs, b => by
    cases b <;> simp [beqFields, beq_iff x, beqFields_iff xs, Prod.ext_iff, and_assoc]

end

instance : DecidableEq Json := fun a b => decidable_of_iff _ (beq_iff a b)

end Json

/-! ## Objects -/

namespace Record

/-- `r[k]`, absent when the object has no such key. -/
def get? : Record → String → Option Json
  | [], _ => none
  | (m, v) :: r, k => if m = k then some v else get? r k

/-- `k in r`. -/
def has (r : Record) (k : String) : Bool := (r.get? k).isSome

/-- `const { k: _, ...rest } = r`. -/
def remove (k : String) (r : Record) : Record := r.filter fun f => f.1 ≠ k

/-- `{ ...r, k: v }`: a key already there keeps its place. -/
def set (r : Record) (k : String) (v : Json) : Record :=
  if r.has k then r.map fun f => if f.1 = k then (k, v) else f else r ++ [(k, v)]

@[simp] theorem get?_nil (k : String) : get? [] k = none := rfl

@[simp] theorem get?_cons (m k : String) (v : Json) (r : Record) :
    get? ((m, v) :: r) k = if m = k then some v else get? r k := rfl

theorem get?_append (r r' : Record) (k : String) :
    get? (r ++ r') k = (get? r k).or (get? r' k) := by
  induction r with
  | nil => simp
  | cons f r ih =>
    obtain ⟨m, v⟩ := f
    simp only [List.cons_append, get?_cons, ih]
    split <;> simp

theorem get?_remove (m k : String) (r : Record) :
    get? (remove m r) k = if k = m then none else get? r k := by
  induction r with
  | nil => simp [remove]
  | cons f r ih =>
    obtain ⟨n, v⟩ := f
    simp only [remove] at ih ⊢
    by_cases hn : n = m
    · subst hn
      simp only [ne_eq, not_true_eq_false, decide_false, Bool.false_eq_true, not_false_eq_true,
        List.filter_cons_of_neg, ih, get?_cons]
      by_cases hk : k = n
      · simp [hk]
      · simp [hk, Ne.symm hk]
    · simp only [ne_eq, hn, not_false_eq_true, decide_true, List.filter_cons_of_pos, get?_cons, ih]
      by_cases hk : n = k
      · subst hk; simp [hn]
      · simp [hk]

theorem remove_of_get?_none {k : String} {r : Record} (h : r.get? k = none) : r.remove k = r := by
  induction r with
  | nil => rfl
  | cons f r ih =>
    obtain ⟨m, v⟩ := f
    rw [get?_cons] at h
    split_ifs at h with hm
    rw [remove, List.filter_cons_of_pos (by simpa using hm)]
    exact congrArg _ (ih h)

theorem get?_set (r : Record) (k m : String) (v : Json) :
    (r.set k v).get? m = if m = k then some v else r.get? m := by
  unfold set has
  split
  · next h =>
    induction r with
    | nil => simp at h
    | cons f r ih =>
      obtain ⟨n, w⟩ := f
      by_cases hn : n = k
      · subst hn
        by_cases hm : m = n
        · simp [hm]
        · have key : ∀ r : Record,
              get? (r.map fun f => if f.1 = n then (n, v) else f) m = get? r m := by
            intro r
            induction r with
            | nil => rfl
            | cons f r ih =>
              obtain ⟨p, u⟩ := f
              by_cases hp : p = n
              · subst hp; simp [Ne.symm hm, ih]
              · simp [hp, ih]
          simp [hm, Ne.symm hm, key]
      · rw [get?_cons, if_neg hn] at h
        simp only [List.map_cons, hn, if_false, get?_cons, ih h]
        by_cases hm : m = k
        · simp [hm, hn]
        · simp [hm]
  · next h =>
    rw [Option.not_isSome_iff_eq_none] at h
    rw [get?_append]
    by_cases hm : m = k
    · subst hm; simp [h]
    · simp [hm, Ne.symm hm]

theorem mem_of_get? {r : Record} {k : String} {v : Json} (h : r.get? k = some v) :
    (k, v) ∈ r := by
  induction r with
  | nil => simp at h
  | cons f r ih =>
    obtain ⟨m, w⟩ := f
    rw [get?_cons] at h
    split at h
    · next hm => subst hm; cases h; exact List.mem_cons_self
    · exact List.mem_cons_of_mem _ (ih h)

theorem has_of_mem {r : Record} {f : String × Json} (h : f ∈ r) : r.has f.1 = true := by
  induction r with
  | nil => cases h
  | cons g r ih =>
    obtain ⟨m, w⟩ := g
    rw [has, get?_cons]
    obtain rfl | h := List.mem_cons.mp h
    · simp
    · split
      · rfl
      · exact ih h

end Record

/-- `asRecord` of `types.ts`: an object that is neither null nor an array. -/
def asRecord : Json → Option Record
  | .obj fields => some fields
  | _ => none

theorem asRecord_some {value : Json} {r : Record} (h : asRecord value = some r) :
    value = .obj r := by
  cases value <;> simp_all [asRecord]

/-! ## `JSON.stringify` -/

/-- The escape of one character inside a JSON string. -/
def escapeChar (c : Char) : String :=
  if c = '"' then "\\\""
  else if c = '\\' then "\\\\"
  else if c = '\n' then "\\n"
  else if c = '\r' then "\\r"
  else if c = '\t' then "\\t"
  else if c.val = 8 then "\\b"
  else if c.val = 12 then "\\f"
  else if c.val < 32 then
    "\\u00" ++ String.ofList [Nat.digitChar (c.val.toNat / 16), Nat.digitChar (c.val.toNat % 16)]
  else String.ofList [c]

def quote (s : String) : String :=
  "\"" ++ String.join (s.toList.map escapeChar) ++ "\""

mutual

/-- `JSON.stringify` of a JSON value. -/
def Json.stringify : Json → String
  | .null => "null"
  | .bool b => if b then "true" else "false"
  | .num n => toString n
  | .dec text => text
  | .str s => quote s
  | .arr items => "[" ++ ",".intercalate (stringifyItems items) ++ "]"
  | .obj fields => "\x7b" ++ ",".intercalate (stringifyFields fields) ++ "\x7d"

def stringifyItems : List Json → List String
  | [] => []
  | x :: xs => x.stringify :: stringifyItems xs

def stringifyFields : List (String × Json) → List String
  | [] => []
  | (k, x) :: xs => (quote k ++ ":" ++ x.stringify) :: stringifyFields xs

end

/-- `JSON.stringify(a) === JSON.stringify(b)`: the text determines the value with the order of
its keys. -/
def sameText (a b : Json) : Bool := decide (a = b)

/-! ## Equality up to the order of keys -/

/-- The same JSON value: objects are compared key by key, whatever the order. -/
inductive Json.Same : Json → Json → Prop
  | null : Same .null .null
  | bool (b : Bool) : Same (.bool b) (.bool b)
  | num (n : ℤ) : Same (.num n) (.num n)
  | dec (text : String) : Same (.dec text) (.dec text)
  | str (s : String) : Same (.str s) (.str s)
  | arr {xs ys : List Json} : xs.length = ys.length →
      (∀ (i : ℕ) x y, xs[i]? = some x → ys[i]? = some y → Same x y) → Same (.arr xs) (.arr ys)
  | obj {xs ys : Record} : (∀ k, (xs.get? k).isSome = (ys.get? k).isSome) →
      (∀ k x y, xs.get? k = some x → ys.get? k = some y → Same x y) → Same (.obj xs) (.obj ys)

theorem Json.Same.refl : ∀ j : Json, j.Same j
  | .null => .null
  | .bool b => .bool b
  | .num n => .num n
  | .dec t => .dec t
  | .str s => .str s
  | .arr xs => .arr rfl fun i x y hx hy => by
      rw [hx] at hy
      cases hy
      have := List.sizeOf_lt_of_mem (List.mem_of_getElem? hx)
      exact Json.Same.refl x
  | .obj fs => .obj (fun _ => rfl) fun k x y hx hy => by
      rw [hx] at hy
      cases hy
      have h : sizeOf x < sizeOf fs :=
        Nat.lt_trans (by simp only [Prod.mk.sizeOf_spec]; omega)
          (List.sizeOf_lt_of_mem (Record.mem_of_get? hx))
      exact Json.Same.refl x
termination_by j => sizeOf j
decreasing_by
  all_goals simp only [Json.arr.sizeOf_spec, Json.obj.sizeOf_spec]; omega

theorem Json.Same.symm {x y : Json} (h : x.Same y) : y.Same x := by
  induction h with
  | null => exact .null
  | bool b => exact .bool b
  | num n => exact .num n
  | dec text => exact .dec text
  | str s => exact .str s
  | arr hlen _ ih => exact .arr hlen.symm fun i x y hx hy => ih i y x hy hx
  | obj hsome _ ih => exact .obj (fun k => (hsome k).symm) fun k x y hx hy => ih k y x hy hx

theorem Json.Same.trans {x y z : Json} (h : x.Same y) (h' : y.Same z) : x.Same z := by
  induction h generalizing z with
  | arr hlen _ ih =>
    cases h' with
    | arr hlen' hs' =>
      refine .arr (hlen.trans hlen') fun i x z hx hz => ?_
      obtain ⟨hi, -⟩ := List.getElem?_eq_some_iff.mp hx
      have hy := List.getElem?_eq_getElem (hlen ▸ hi)
      exact ih i x _ hx hy (hs' i _ z hy hz)
  | obj hsome _ ih =>
    cases h' with
    | obj hsome' hs' =>
      refine .obj (fun k => (hsome k).trans (hsome' k)) fun k x z hx hz => ?_
      have hk := hsome k
      rw [hx, Option.isSome_some, eq_comm, Option.isSome_iff_exists] at hk
      obtain ⟨y, hy⟩ := hk
      exact ih k x y hx hy (hs' k y z hy hz)
  | _ => exact h'

/-- Two objects with the same values under the same keys. -/
abbrev Record.Same (r r' : Record) : Prop := Json.Same (.obj r) (.obj r')

theorem Record.Same.isSome {r r' : Record} (h : r.Same r') (k : String) :
    (r.get? k).isSome = (r'.get? k).isSome := by
  cases h with
  | obj hs _ => exact hs k

theorem Record.Same.get {r r' : Record} (h : r.Same r') {k : String} {x : Json}
    (hx : r.get? k = some x) : ∃ y, r'.get? k = some y ∧ x.Same y := by
  have hs := h.isSome k
  rw [hx, Option.isSome_some, eq_comm, Option.isSome_iff_exists] at hs
  obtain ⟨y, hy⟩ := hs
  cases h with
  | obj _ hv => exact ⟨y, hy, hv k x y hx hy⟩

theorem Record.Same.get_str {r r' : Record} (h : r.Same r') {k s : String}
    (hx : r.get? k = some (.str s)) : r'.get? k = some (.str s) := by
  obtain ⟨y, hy, hs⟩ := h.get hx
  cases hs
  exact hy

theorem Record.Same.get_num {r r' : Record} (h : r.Same r') {k : String} {n : ℤ}
    (hx : r.get? k = some (.num n)) : r'.get? k = some (.num n) := by
  obtain ⟨y, hy, hs⟩ := h.get hx
  cases hs
  exact hy

theorem Record.Same.get_none {r r' : Record} (h : r.Same r') {k : String}
    (hx : r.get? k = none) : r'.get? k = none := by
  have hs := h.isSome k
  rw [hx] at hs
  simpa using hs.symm

/-- Objects are the same when their lookups are equal. -/
theorem Record.same_of_get? {r r' : Record} (h : ∀ k, r.get? k = r'.get? k) : r.Same r' := by
  refine .obj (fun k => by rw [h]) fun k x y hx hy => ?_
  obtain rfl := Option.some.inj (hx.symm.trans ((h k).trans hy))
  exact .refl x

theorem Record.Same.set {r r' : Record} (h : r.Same r') (k : String) (v : Json) :
    Record.Same (r.set k v) (r'.set k v) := by
  refine .obj (fun m => ?_) fun m x y hx hy => ?_
  · simp only [Record.get?_set]
    split_ifs
    · rfl
    · exact h.isSome m
  · rw [Record.get?_set] at hx hy
    split_ifs at hx hy
    · obtain rfl := Option.some.inj (hx.symm.trans hy)
      exact .refl _
    · obtain ⟨z, hz, hs⟩ := h.get hx
      obtain rfl := Option.some.inj (hy.symm.trans hz)
      exact hs

theorem Record.Same.remove {r r' : Record} (h : r.Same r') (k : String) :
    Record.Same (r.remove k) (r'.remove k) := by
  refine .obj (fun m => ?_) fun m x y hx hy => ?_
  · simp only [Record.get?_remove]
    split_ifs
    · rfl
    · exact h.isSome m
  · rw [Record.get?_remove] at hx hy
    split_ifs at hx hy
    obtain ⟨z, hz, hs⟩ := h.get hx
    obtain rfl := Option.some.inj (hy.symm.trans hz)
    exact hs

end Orchestrator
