import Mathlib.Data.Nat.Find
import Mathlib.Tactic.IntervalCases

/-!
# Dates as text

The time values of JavaScript's `Date`, milliseconds around 1970, and their text in the format of
`toISOString`. Years are counted from 400 000 years before the year 0, a multiple of the cycle of
leap years, so that every time value has a year and a day that are natural numbers.

* `maxTime`, `Time`: the time values;
* `daysBeforeYear`, `yearOfDay`, `daysBeforeMonth`, `monthOfDay`: the calendar;
* `toISOString`, `ofISOString`: the text of a time value, and what the text denotes;
* **`ofISOString_toISOString`**.
-/

namespace IsoDate

/-! ## The calendar -/

def isLeap (y : ℕ) : Bool := y % 4 == 0 && (y % 100 != 0 || y % 400 == 0)

def daysBeforeYear (y : ℕ) : ℕ := 365 * y + (y + 3) / 4 - (y + 99) / 100 + (y + 399) / 400

/-- The year that the day is in. -/
def yearOfDay (day : ℕ) : ℕ := Nat.findGreatest (fun y => daysBeforeYear y ≤ day) (day / 365)

/-- The days of a year before a month, counted from 0. -/
def daysBeforeMonth (leap : Bool) (month : ℕ) : ℕ :=
  [0, 31, 59, 90, 120, 151, 181, 212, 243, 273, 304, 334].getD month 365 +
    if leap && 2 ≤ month then 1 else 0

/-- The month, counted from 0, that a day of a year is in. -/
def monthOfDay (leap : Bool) (day : ℕ) : ℕ :=
  Nat.findGreatest (fun m => daysBeforeMonth leap m ≤ day) 11

theorem daysBeforeYear_succ (y : ℕ) :
    daysBeforeYear (y + 1) = daysBeforeYear y + if isLeap y then 366 else 365 := by
  have h4 : (y + 1 + 3) / 4 = (y + 3) / 4 + if y % 4 = 0 then 1 else 0 := by split <;> omega
  have h100 : (y + 1 + 99) / 100 = (y + 99) / 100 + if y % 100 = 0 then 1 else 0 := by
    split <;> omega
  have h400 : (y + 1 + 399) / 400 = (y + 399) / 400 + if y % 400 = 0 then 1 else 0 := by
    split <;> omega
  have hle : (y + 99) / 100 ≤ 365 * y + (y + 3) / 4 := by omega
  have hundred : y % 400 = 0 → y % 100 = 0 := by omega
  have hfour : y % 100 = 0 → y % 4 = 0 := by omega
  simp only [daysBeforeYear, isLeap, h4, h100, h400, Bool.and_eq_true, Bool.or_eq_true, beq_iff_eq,
    bne_iff_ne]
  generalize (y + 3) / 4 = a, (y + 99) / 100 = b, (y + 399) / 400 = c at hle
  by_cases hy400 : y % 400 = 0
  · simp only [hy400, hundred hy400, hfour (hundred hy400), ne_eq, not_true_eq_false, or_true,
      and_self, if_true]
    omega
  · by_cases hy100 : y % 100 = 0
    · simp only [hy400, hy100, hfour hy100, ne_eq, not_true_eq_false, or_false, and_false, if_true,
        if_false]
      omega
    · by_cases hy4 : y % 4 = 0
      · simp only [hy400, hy100, hy4, ne_eq, not_false_eq_true, true_or, and_self, if_true,
          if_false]
        omega
      · simp only [hy400, hy100, hy4, false_and, if_false]
        omega

theorem mul_le_daysBeforeYear (y : ℕ) : 365 * y ≤ daysBeforeYear y := by
  unfold daysBeforeYear
  omega

theorem daysBeforeYear_le (day : ℕ) : daysBeforeYear (yearOfDay day) ≤ day :=
  Nat.findGreatest_spec (P := fun y => daysBeforeYear y ≤ day) (Nat.zero_le _) (Nat.zero_le day)

theorem lt_daysBeforeYear_succ (day : ℕ) : day < daysBeforeYear (yearOfDay day + 1) := by
  by_contra hle
  have hle : daysBeforeYear (yearOfDay day + 1) ≤ day := not_lt.mp hle
  have hbound : yearOfDay day + 1 ≤ day / 365 := by
    have := mul_le_daysBeforeYear (yearOfDay day + 1)
    omega
  exact Nat.findGreatest_is_greatest (Nat.lt_succ_self _) hbound hle

theorem daysBeforeMonth_le (leap : Bool) (day : ℕ) :
    daysBeforeMonth leap (monthOfDay leap day) ≤ day :=
  Nat.findGreatest_spec (P := fun m => daysBeforeMonth leap m ≤ day) (Nat.zero_le _)
    (by cases leap <;> exact Nat.zero_le day)

theorem monthOfDay_le (leap : Bool) (day : ℕ) : monthOfDay leap day ≤ 11 :=
  Nat.findGreatest_le _

/-- No month is longer than 31 days. -/
theorem day_lt (leap : Bool) {day : ℕ} (h : day < if leap then 366 else 365) :
    day - daysBeforeMonth leap (monthOfDay leap day) < 31 := by
  have hm := monthOfDay_le leap day
  have hlt : monthOfDay leap day = 11 ∨
      day < daysBeforeMonth leap (monthOfDay leap day + 1) := by
    rw [or_iff_not_imp_left]
    intro hne
    by_contra hge
    exact Nat.findGreatest_is_greatest (P := fun m => daysBeforeMonth leap m ≤ day)
      (Nat.lt_succ_self _) (show monthOfDay leap day + 1 ≤ 11 by omega) (not_lt.mp hge)
  generalize monthOfDay leap day = m at *
  cases leap <;> interval_cases m <;> simp [daysBeforeMonth] at * <;> omega

/-! ## Digits -/

/-- The last `w` decimal digits. -/
def digits : ℕ → ℕ → List Char
  | 0, _ => []
  | w + 1, n => digits w (n / 10) ++ [Nat.digitChar (n % 10)]

def digitValue (c : Char) : Option ℕ := if c.isDigit then some (c.toNat - 48) else none

def readDigits (cs : List Char) : Option ℕ :=
  cs.foldlM (fun n c => (digitValue c).map (10 * n + ·)) 0

/-- A number of `w` digits, and what follows it. -/
def field (w : ℕ) (cs : List Char) : Option (ℕ × List Char) :=
  if w ≤ cs.length then (readDigits (cs.take w)).map (·, cs.drop w) else none

def expect (c : Char) : List Char → Option (List Char)
  | [] => none
  | d :: cs => if d = c then some cs else none

@[simp] theorem length_digits (w n : ℕ) : (digits w n).length = w := by
  induction w generalizing n with
  | zero => rfl
  | succ w ih => simp [digits, ih]

theorem digitValue_digitChar : ∀ d < 10, digitValue (Nat.digitChar d) = some d := by decide

theorem readDigits_digits (w n : ℕ) : readDigits (digits w n) = some (n % 10 ^ w) := by
  induction w generalizing n with
  | zero => simp [digits, readDigits, Nat.mod_one]
  | succ w ih =>
    have hd := digitValue_digitChar (n % 10) (Nat.mod_lt _ (by decide))
    have ih' : (digits w (n / 10)).foldlM (fun n c => (digitValue c).map (10 * n + ·)) 0 =
        some (n / 10 % 10 ^ w) := ih (n / 10)
    show (digits w (n / 10) ++ [Nat.digitChar (n % 10)]).foldlM _ 0 = _
    rw [List.foldlM_append, ih']
    simp only [Option.bind_eq_bind, Option.bind_some, List.foldlM_cons, hd, Option.map_some,
      List.foldlM_nil, Option.pure_def, Option.some.injEq]
    rw [Nat.pow_succ', Nat.mod_mul]
    omega

theorem field_digits {w n : ℕ} (h : n < 10 ^ w) (r : List Char) :
    field w (digits w n ++ r) = some (n, r) := by
  have htake : (digits w n ++ r).take w = digits w n := List.take_left' (length_digits w n)
  have hdrop : (digits w n ++ r).drop w = r := List.drop_left' (length_digits w n)
  rw [field, if_pos (by simp), htake, hdrop, readDigits_digits, Nat.mod_eq_of_lt h]
  rfl

@[simp] theorem expect_cons (c : Char) (cs : List Char) : expect c (c :: cs) = some cs := if_pos rfl

/-! ## The text of a time value -/

/-- Milliseconds from the first year that is counted to 1970. -/
def origin : ℕ := daysBeforeYear 401970 * 86400000

/-- The largest time value, and the negative of the smallest. -/
def maxTime : ℕ := 8640000000000000

def yearText (y : ℕ) : List Char :=
  if y < 400000 then '-' :: digits 6 (400000 - y)
  else if y < 410000 then digits 4 (y - 400000)
  else '+' :: digits 6 (y - 400000)

/-- The text of a time counted from the first year. -/
def text (n : ℕ) : List Char :=
  let y := yearOfDay (n / 86400000)
  let day := n / 86400000 - daysBeforeYear y
  let m := monthOfDay (isLeap y) day
  let time := n % 86400000
  yearText y ++ ('-' :: (digits 2 (m + 1) ++ ('-' ::
    (digits 2 (day - daysBeforeMonth (isLeap y) m + 1) ++ ('T' ::
    (digits 2 (time / 3600000) ++ (':' :: (digits 2 (time / 60000 % 60) ++ (':' ::
    (digits 2 (time / 1000 % 60) ++ ('.' :: (digits 3 (time % 1000) ++ ['Z']))))))))))))

/-- A year of four digits, or of six digits with a sign. -/
def year : List Char → Option (ℕ × List Char)
  | [] => none
  | c :: cs =>
    if c = '+' then (field 6 cs).map fun (y, r) => (400000 + y, r)
    else if c = '-' then (field 6 cs).bind fun (y, r) =>
      if 0 < y ∧ y ≤ 400000 then some (400000 - y, r) else none
    else (field 4 (c :: cs)).map fun (y, r) => (400000 + y, r)

/-- The time that a text denotes, counted from the first year. -/
def ofText (cs : List Char) : Option ℕ := do
  let (y, cs) ← year cs
  let (m, cs) ← field 2 (← expect '-' cs)
  let (d, cs) ← field 2 (← expect '-' cs)
  let (hours, cs) ← field 2 (← expect 'T' cs)
  let (minutes, cs) ← field 2 (← expect ':' cs)
  let (seconds, cs) ← field 2 (← expect ':' cs)
  let (ms, cs) ← field 3 (← expect '.' cs)
  let rest ← expect 'Z' cs
  if rest = [] ∧ 1 ≤ m ∧ m ≤ 12 ∧ 1 ≤ d ∧ d ≤ 31 ∧ hours < 24 ∧ minutes < 60 ∧ seconds < 60 then
    some ((daysBeforeYear y + daysBeforeMonth (isLeap y) (m - 1) + (d - 1)) * 86400000 +
      hours * 3600000 + minutes * 60000 + seconds * 1000 + ms)
  else none

/-- `Date.prototype.toISOString`. -/
def toISOString (t : ℤ) : String := .ofList (text (t + origin).toNat)

/-- `new Date(s)` of a text in the format of `toISOString`. -/
def ofISOString (s : String) : Option ℤ :=
  (ofText s.toList).bind fun n =>
    if ((n : ℤ) - origin).natAbs ≤ maxTime then some ((n : ℤ) - origin) else none

theorem digitChar_ne : ∀ d < 10, Nat.digitChar d ≠ '+' ∧ Nat.digitChar d ≠ '-' := by decide

theorem digits_succ_eq (w n : ℕ) : ∃ d < 10, ∃ cs, digits (w + 1) n = Nat.digitChar d :: cs := by
  induction w generalizing n with
  | zero => exact ⟨n % 10, Nat.mod_lt _ (by decide), [], rfl⟩
  | succ w ih =>
    obtain ⟨d, hd, cs, h⟩ := ih (n / 10)
    exact ⟨d, hd, cs ++ [Nat.digitChar (n % 10)], by rw [digits, h, List.cons_append]⟩

theorem year_yearText {y : ℕ} (h : y < 1400000) (r : List Char) :
    year (yearText y ++ r) = some (y, r) := by
  unfold yearText
  split
  next hlt =>
    rw [List.cons_append, year, if_neg (by decide), if_pos rfl, field_digits (by omega),
      Option.bind_some]
    dsimp only
    rw [if_pos (by omega), Nat.sub_sub_self (by omega)]
  next hge =>
    split
    next hlt =>
      have hf := field_digits (w := 4) (n := y - 400000) (by omega) r
      obtain ⟨d, hd, cs, hcs⟩ := digits_succ_eq 3 (y - 400000)
      obtain ⟨hplus, hminus⟩ := digitChar_ne d hd
      rw [hcs, List.cons_append] at hf
      rw [hcs, List.cons_append, year, if_neg hplus, if_neg hminus, hf, Option.map_some]
      dsimp only
      rw [Nat.add_sub_cancel' (by omega)]
    next hge =>
      rw [List.cons_append, year, if_pos rfl, field_digits (by omega), Option.map_some]
      dsimp only
      rw [Nat.add_sub_cancel' (by omega)]

/-- The fields come back. -/
theorem ofText_fields {y m d hours minutes seconds ms : ℕ} (hy : y < 1400000) (hm : 1 ≤ m)
    (hm' : m ≤ 12) (hd : 1 ≤ d) (hd' : d ≤ 31) (hh : hours < 24) (hmin : minutes < 60)
    (hs : seconds < 60) (hms : ms < 1000) :
    ofText (yearText y ++ ('-' :: (digits 2 m ++ ('-' :: (digits 2 d ++ ('T' :: (digits 2 hours ++
      (':' :: (digits 2 minutes ++ (':' :: (digits 2 seconds ++ ('.' :: (digits 3 ms ++
      ['Z'])))))))))))))
      = some ((daysBeforeYear y + daysBeforeMonth (isLeap y) (m - 1) + (d - 1)) * 86400000 +
        hours * 3600000 + minutes * 60000 + seconds * 1000 + ms) := by
  have two : ∀ {k}, k < 100 → ∀ r, field 2 (digits 2 k ++ r) = some (k, r) :=
    fun h => field_digits h
  unfold ofText
  simp only [Option.bind_eq_bind]
  rw [year_yearText hy, Option.bind_some, expect_cons, Option.bind_some, two (by omega),
    Option.bind_some, expect_cons, Option.bind_some, two (by omega), Option.bind_some, expect_cons,
    Option.bind_some, two (by omega), Option.bind_some, expect_cons, Option.bind_some,
    two (by omega), Option.bind_some, expect_cons, Option.bind_some, two (by omega),
    Option.bind_some, expect_cons, Option.bind_some, field_digits (by omega), Option.bind_some,
    expect_cons, Option.bind_some]
  exact if_pos ⟨rfl, hm, hm', hd, hd', hh, hmin, hs⟩

/-- The date and the time of day come back. -/
theorem ofText_text {n : ℕ} (h : yearOfDay (n / 86400000) < 1400000) :
    ofText (text n) = some n := by
  have hyear := daysBeforeYear_le (n / 86400000)
  have hnext := lt_daysBeforeYear_succ (n / 86400000)
  rw [daysBeforeYear_succ] at hnext
  unfold text
  dsimp only
  generalize yearOfDay (n / 86400000) = y at *
  have hlt : n / 86400000 - daysBeforeYear y < if isLeap y then 366 else 365 := by omega
  have hmonth := daysBeforeMonth_le (isLeap y) (n / 86400000 - daysBeforeYear y)
  have hmonth' := monthOfDay_le (isLeap y) (n / 86400000 - daysBeforeYear y)
  have hd := day_lt (isLeap y) hlt
  generalize monthOfDay (isLeap y) (n / 86400000 - daysBeforeYear y) = m at *
  rw [ofText_fields h (by omega) (by omega) (by omega) (by omega) (by omega) (by omega)
    (by omega) (by omega), Nat.add_sub_cancel, Nat.add_sub_cancel]
  congr 1
  omega

/-- **A time value comes back from its text.** -/
theorem ofISOString_toISOString {t : ℤ} (h : t.natAbs ≤ maxTime) :
    ofISOString (toISOString t) = some t := by
  have horigin : origin = 12684948019200000 := by decide
  have hmax : maxTime = 8640000000000000 := rfl
  obtain ⟨n, hn⟩ : ∃ n : ℕ, t + origin = n := Int.eq_ofNat_of_zero_le (by omega)
  have hyear : yearOfDay (n / 86400000) < 1400000 := by
    have hle := daysBeforeYear_le (n / 86400000)
    have hmul := mul_le_daysBeforeYear (yearOfDay (n / 86400000))
    omega
  rw [toISOString, hn, Int.toNat_natCast, ofISOString, String.toList_ofList, ofText_text hyear,
    Option.bind_some, if_pos (by omega)]
  congr 1
  omega

end IsoDate
