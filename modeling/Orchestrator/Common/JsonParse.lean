import Orchestrator.Common.JsonText

/-!
# Reading JSON

`JSON.parse`, with strings as lists of characters. A lone surrogate, which no string here can
hold, is read as the replacement character; a number that is not an integer is kept as its text.

* `readString`, `readNumber`, `readValue`, `parseJson`;
* **`readString_escaped`**: a string comes back from its text.
-/

namespace Orchestrator

def skipSpace (cs : List Char) : List Char :=
  cs.dropWhile fun c => c == ' ' || c == '\t' || c == '\n' || c == '\r'

/-! ## Strings -/

def hexValue (c : Char) : Option ℕ :=
  if c.isDigit then some (c.toNat - 48)
  else if 'a' ≤ c ∧ c ≤ 'f' then some (c.toNat - 87)
  else if 'A' ≤ c ∧ c ≤ 'F' then some (c.toNat - 55)
  else none

/-- Four hexadecimal digits. -/
def readUnit : List Char → Option (ℕ × List Char)
  | a :: b :: c :: d :: cs => do
    some (((← hexValue a) * 16 + (← hexValue b)) * 256 + (← hexValue c) * 16 + (← hexValue d), cs)
  | _ => none

def replacement : Char := Char.ofNat 0xFFFD

/-- What follows the `u` of an escape: one code unit, or two that make up one character. -/
def readUnicode (cs : List Char) : Option (Char × List Char) := do
  let (high, rest) ← readUnit cs
  if high < 0xD800 ∨ 0xE000 ≤ high then some (Char.ofNat high, rest)
  else if high < 0xDC00 then
    match rest with
    | '\\' :: 'u' :: cs => do
      let (low, rest') ← readUnit cs
      if 0xDC00 ≤ low ∧ low < 0xE000 then
        some (Char.ofNat (0x10000 + (high - 0xD800) * 0x400 + (low - 0xDC00)), rest')
      else some (replacement, rest)
    | _ => some (replacement, rest)
  else some (replacement, rest)

/-- What follows a backslash. -/
def readEscape : List Char → Option (Char × List Char)
  | '"' :: cs => some ('"', cs)
  | '\\' :: cs => some ('\\', cs)
  | '/' :: cs => some ('/', cs)
  | 'b' :: cs => some (Char.ofNat 8, cs)
  | 'f' :: cs => some (Char.ofNat 12, cs)
  | 'n' :: cs => some ('\n', cs)
  | 'r' :: cs => some ('\r', cs)
  | 't' :: cs => some ('\t', cs)
  | 'u' :: cs => readUnicode cs
  | _ => none

/-- The characters up to the closing quote, and what follows it. -/
def readString : ℕ → List Char → Option (List Char × List Char)
  | 0, _ => none
  | _ + 1, [] => none
  | fuel + 1, c :: cs =>
    if c = '"' then some ([], cs)
    else if c = '\\' then do
      let (d, cs) ← readEscape cs
      let (ds, rest) ← readString fuel cs
      some (d :: ds, rest)
    else if c.val < 32 then none
    else do
      let (ds, rest) ← readString fuel cs
      some (c :: ds, rest)

/-! ## Values -/

def digitsOnly (cs : List Char) : Bool := !cs.isEmpty && cs.all Char.isDigit

/-- `0` or digits that do not begin with `0`, after an optional sign. -/
def isIntegerText : List Char → Bool
  | '-' :: cs => digitsOnly cs && (cs == ['0'] || cs.head? != some '0')
  | cs => digitsOnly cs && (cs == ['0'] || cs.head? != some '0')

def isExponent : List Char → Bool
  | [] => true
  | c :: '+' :: cs | c :: '-' :: cs => (c == 'e' || c == 'E') && digitsOnly cs
  | c :: cs => (c == 'e' || c == 'E') && digitsOnly cs

/-- An integer, an optional fraction and an optional exponent. -/
def isNumberText (cs : List Char) : Bool :=
  let integer := cs.takeWhile fun c => c.isDigit || c == '-'
  isIntegerText integer && match cs.drop integer.length with
    | '.' :: rest =>
      let fraction := rest.takeWhile Char.isDigit
      !fraction.isEmpty && isExponent (rest.drop fraction.length)
    | rest => isExponent rest

def naturalOf (digits : List Char) : ℕ := digits.foldl (fun n c => 10 * n + (c.toNat - 48)) 0

def readNumber (cs : List Char) : Option (Json × List Char) :=
  let text := cs.takeWhile fun c =>
    c.isDigit || c == '-' || c == '+' || c == '.' || c == 'e' || c == 'E'
  let rest := cs.drop text.length
  if isIntegerText text then
    some (.num (match text with
      | '-' :: ds => -(naturalOf ds : ℤ)
      | ds => naturalOf ds), rest)
  else if isNumberText text then some (.dec (String.ofList text), rest)
  else none

mutual

/-- A value, and what follows it. -/
def readValue : ℕ → List Char → Option (Json × List Char)
  | 0, _ => none
  | fuel + 1, cs => match skipSpace cs with
    | '\x7b' :: cs => match skipSpace cs with
      | '\x7d' :: cs => some (.obj [], cs)
      | cs => do
        let (fields, rest) ← readFields fuel cs
        -- of two members with one name the last one counts
        some (.obj (fields.foldl (fun r f => Record.set r f.1 f.2) []), rest)
    | '[' :: cs => match skipSpace cs with
      | ']' :: cs => some (.arr [], cs)
      | cs => do
        let (items, rest) ← readItems fuel cs
        some (.arr items, rest)
    | '"' :: cs => do
      let (ds, rest) ← readString (cs.length + 1) cs
      some (.str (String.ofList ds), rest)
    | 't' :: 'r' :: 'u' :: 'e' :: cs => some (.bool true, cs)
    | 'f' :: 'a' :: 'l' :: 's' :: 'e' :: cs => some (.bool false, cs)
    | 'n' :: 'u' :: 'l' :: 'l' :: cs => some (.null, cs)
    | cs => readNumber cs

def readFields : ℕ → List Char → Option (List (String × Json) × List Char)
  | 0, _ => none
  | fuel + 1, cs => match skipSpace cs with
    | '"' :: cs => do
      let (ds, cs) ← readString (cs.length + 1) cs
      match skipSpace cs with
      | ':' :: cs => do
        let (value, cs) ← readValue fuel cs
        match skipSpace cs with
        | ',' :: cs => do
          let (fields, rest) ← readFields fuel cs
          some ((String.ofList ds, value) :: fields, rest)
        | '\x7d' :: cs => some ([(String.ofList ds, value)], cs)
        | _ => none
      | _ => none
    | _ => none

def readItems : ℕ → List Char → Option (List Json × List Char)
  | 0, _ => none
  | fuel + 1, cs => do
    let (value, cs) ← readValue fuel cs
    match skipSpace cs with
    | ',' :: cs => do
      let (items, rest) ← readItems fuel cs
      some (value :: items, rest)
    | ']' :: cs => some ([value], cs)
    | _ => none

end

/-- `JSON.parse`. -/
def parseJson (text : String) : Option Json := do
  let (value, rest) ← readValue (text.toList.length + 1) text.toList
  if skipSpace rest = [] then some value else none

/-! ## Strings come back -/

theorem hexValue_digitChar : ∀ d < 16, hexValue (Nat.digitChar d) = some d := by decide

theorem readUnicode_control {n : ℕ} (h : n < 32) (x : List Char) :
    readUnicode ('0' :: '0' :: Nat.digitChar (n / 16) :: Nat.digitChar (n % 16) :: x) =
      some (Char.ofNat n, x) := by
  have hzero : hexValue '0' = some 0 := by decide
  have hsum : (0 * 16 + 0) * 256 + n / 16 * 16 + n % 16 = n := by omega
  rw [readUnicode, readUnit, hzero, hexValue_digitChar _ (by omega), hexValue_digitChar _ (by omega)]
  simp only [Option.bind_eq_bind, Option.bind_some, hsum]
  exact if_pos (.inl (by omega))

/-- An escaped character is read back, whatever follows it. -/
theorem readString_escapeChar (c : Char) (x : List Char) (fuel : ℕ) :
    readString (fuel + 1) ((escapeChar c).toList ++ x) =
      (readString fuel x).map fun p => (c :: p.1, p.2) := by
  have simple : ∀ {d e : Char}, readEscape (d :: x) = some (e, x) →
      readString (fuel + 1) ('\\' :: d :: x) = (readString fuel x).map fun p => (e :: p.1, p.2) :=
    fun h => by
      rw [readString, if_neg (by decide), if_pos rfl, h]
      cases hx : readString fuel x <;> simp [hx]
  unfold escapeChar
  split_ifs with h1 h2 h3 h4 h5 h6 h7 h8
  · subst h1; exact simple rfl
  · subst h2; exact simple rfl
  · subst h3; exact simple rfl
  · subst h4; exact simple rfl
  · subst h5; exact simple rfl
  · obtain rfl : c = Char.ofNat 8 := by
      rw [← Char.ofNat_toNat c]
      exact congrArg Char.ofNat (congrArg UInt32.toNat h6)
    exact simple rfl
  · obtain rfl : c = Char.ofNat 12 := by
      rw [← Char.ofNat_toNat c]
      exact congrArg Char.ofNat (congrArg UInt32.toNat h7)
    exact simple rfl
  · have hlt : c.toNat < 32 := UInt32.lt_iff_toNat_lt.mp h8
    have hu := readUnicode_control hlt x
    rw [Char.ofNat_toNat] at hu
    have hread : readString (fuel + 1) ('\\' :: 'u' :: '0' :: '0' ::
        Nat.digitChar (c.toNat / 16) :: Nat.digitChar (c.toNat % 16) :: x) =
        (readString fuel x).map fun p => (c :: p.1, p.2) := by
      rw [readString, if_neg (by decide), if_pos rfl, readEscape, hu]
      cases hx : readString fuel x <;> simp [hx]
    simpa using hread
  · rw [String.toList_ofList, List.singleton_append, readString, if_neg h1, if_neg h2, if_neg h8]
    cases readString fuel x <;> rfl

/-- **A string comes back from its text**, whatever follows it. -/
theorem readString_escaped (cs r : List Char) {fuel : ℕ} (h : cs.length < fuel) :
    readString fuel (escaped cs ++ '"' :: r) = some (cs, r) := by
  induction cs generalizing fuel with
  | nil =>
    obtain ⟨fuel, rfl⟩ := Nat.exists_eq_succ_of_ne_zero (Nat.ne_of_gt h)
    exact if_pos rfl
  | cons c cs ih =>
    obtain ⟨fuel, rfl⟩ := Nat.exists_eq_succ_of_ne_zero (Nat.ne_of_gt (Nat.zero_lt_of_lt h))
    have hcs : cs.length < fuel := Nat.lt_of_succ_lt_succ h
    rw [escaped, List.flatMap_cons, List.append_assoc]
    show readString (fuel + 1) _ = _
    rw [readString_escapeChar]
    show (readString fuel (escaped cs ++ '"' :: r)).map _ = _
    rw [ih hcs]
    rfl

/-- Every character of a string has an escape. -/
theorem length_le_escaped (cs : List Char) : cs.length ≤ (escaped cs).length := by
  induction cs with
  | nil => exact Nat.zero_le _
  | cons c cs ih =>
    have hone : 1 ≤ (escapeChar c).toList.length := by
      unfold escapeChar
      split_ifs <;> simp
    simp only [escaped, List.flatMap_cons, List.length_append, List.length_cons] at *
    omega

/-- A string literal, read with the characters that follow as fuel. -/
theorem readString_quote (s : String) (r : List Char) :
    readString ((escaped s.toList ++ '"' :: r).length + 1) (escaped s.toList ++ '"' :: r) =
      some (s.toList, r) := by
  have hle := length_le_escaped s.toList
  refine readString_escaped _ _ ?_
  rw [List.length_append]
  omega

/-! ## Objects of strings come back -/

theorem skipSpace_cons {c : Char} (h : (c == ' ' || c == '\t' || c == '\n' || c == '\r') = false)
    (cs : List Char) : skipSpace (c :: cs) = c :: cs := by
  rw [skipSpace, List.dropWhile_cons, h]
  rfl

theorem readValue_quote (s : String) (r : List Char) (fuel : ℕ) :
    readValue (fuel + 1) ((quote s).toList ++ r) = some (.str s, r) := by
  rw [toList_quote, List.cons_append, List.append_assoc, List.singleton_append, readValue,
    skipSpace_cons (by decide)]
  simp only [readString_quote, Option.bind_eq_bind, Option.bind_some, String.ofList_toList]

theorem readFields_quote (k s : String) (c : Char) (r : List Char) (fuel : ℕ)
    (hc : (c == ' ' || c == '\t' || c == '\n' || c == '\r') = false) :
    readFields (fuel + 2) ((quote k).toList ++ ':' :: ((quote s).toList ++ c :: r)) =
      if c = ',' then (readFields (fuel + 1) r).map fun p => ((k, .str s) :: p.1, p.2)
      else if c = '\x7d' then some ([(k, .str s)], r)
      else none := by
  rw [toList_quote, List.cons_append, List.append_assoc, List.singleton_append, readFields,
    skipSpace_cons (by decide)]
  simp only [readString_quote, Option.bind_eq_bind, Option.bind_some, String.ofList_toList]
  rw [skipSpace_cons (by decide)]
  simp only [readValue_quote, Option.bind_some]
  rw [skipSpace_cons hc]
  split_ifs with h1 h2
  · subst h1
    cases hx : readFields (fuel + 1) r <;> simp [hx]
  · subst h2
    rfl
  · split
    next he => exact absurd (List.cons.inj he).1 h1
    next he => exact absurd (List.cons.inj he).1 h2
    · rfl

theorem readValue_object {cs rest : List Char} {fields : Record} {fuel : ℕ}
    (h : readFields fuel ('"' :: cs) = some (fields, rest)) :
    readValue (fuel + 1) ('\x7b' :: '"' :: cs) =
      some (.obj (fields.foldl (fun r f => Record.set r f.1 f.2) []), rest) := by
  have hskip : skipSpace ('"' :: cs) = '"' :: cs := skipSpace_cons (by decide) cs
  rw [readValue, skipSpace_cons (by decide)]
  simp only [hskip]
  split
  next he => exact absurd (List.cons.inj he).1 (by decide)
  · rw [h]
    rfl

/-- **An object of two strings comes back from its text.** -/
theorem parseJson_stringify_pair {k m : String} (hk : k ≠ m) (s t : String) :
    parseJson (Json.stringify (.obj [(k, .str s), (m, .str t)])) =
      some (.obj [(k, .str s), (m, .str t)]) := by
  have htext : (Json.stringify (.obj [(k, .str s), (m, .str t)])).toList = '\x7b' ::
      ((quote k).toList ++ ':' :: ((quote s).toList ++ ',' ::
      ((quote m).toList ++ ':' :: ((quote t).toList ++ ['\x7d'])))) := by
    simp [Json.stringify, stringifyFields]
  obtain ⟨fuel, hfuel⟩ : ∃ fuel, ((quote k).toList ++ ':' :: ((quote s).toList ++ ',' ::
      ((quote m).toList ++ ':' :: ((quote t).toList ++ ['\x7d'])))).length = fuel + 2 :=
    ⟨_, Nat.eq_add_of_sub_eq (by simp; omega) rfl⟩
  have hfields : readFields (fuel + 3) ((quote k).toList ++ ':' :: ((quote s).toList ++ ',' ::
      ((quote m).toList ++ ':' :: ((quote t).toList ++ ['\x7d'])))) =
      some ([(k, .str s), (m, .str t)], []) := by
    rw [readFields_quote k s ',' _ (fuel + 1) (by decide), if_pos rfl,
      readFields_quote m t '\x7d' _ fuel (by decide), if_neg (by decide), if_pos rfl]
    rfl
  rw [toList_quote k, List.cons_append] at hfields
  have hvalue := readValue_object hfields
  rw [parseJson, htext, List.length_cons, hfuel, toList_quote k, List.cons_append, hvalue]
  have hset : Record.set (Record.set [] k (.str s)) m (.str t) = [(k, .str s), (m, .str t)] := by
    simp [Record.set, Record.has, hk]
  rw [Option.bind_eq_bind, Option.bind_some, List.foldl_cons, List.foldl_cons, List.foldl_nil, hset]
  exact if_pos rfl

end Orchestrator
