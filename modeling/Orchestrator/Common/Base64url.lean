import Mathlib.Data.List.Basic
import Mathlib.Data.List.TakeWhile
import Mathlib.Tactic.Common

/-!
# Base64 in the URL alphabet

Text as the base64url text of its UTF-8 bytes, without padding, and the way back: a reader takes
both alphabets, ends at padding, skips every other character and drops bits that make up no byte.

* `digit`, `digitValue`: the alphabet;
* `sextets`, `octets`: three bytes as four digits, and the way back;
* `encode`, `decode`: the same for text;
* **`decode_encode`**.
-/

namespace Base64url

def digit (n : ℕ) : Char :=
  if n < 26 then Char.ofNat (n + 65)
  else if n < 52 then Char.ofNat (n + 71)
  else if n < 62 then Char.ofNat (n - 4)
  else if n = 62 then '-' else '_'

def digitValue (c : Char) : Option ℕ :=
  if c.isUpper then some (c.toNat - 65)
  else if c.isLower then some (c.toNat - 71)
  else if c.isDigit then some (c.toNat + 4)
  else if c = '-' ∨ c = '+' then some 62
  else if c = '_' ∨ c = '/' then some 63
  else none

theorem digitValue_digit {n : ℕ} (h : n < 64) : digitValue (digit n) = some n ∧ digit n ≠ '=' := by
  have key : ∀ n : Fin 64, digitValue (digit n) = some n.val ∧ digit n ≠ '=' := by decide
  exact key ⟨n, h⟩

/-! ## Bytes -/

def sextets : List ℕ → List ℕ
  | a :: b :: c :: bytes =>
    a / 4 :: (a % 4 * 16 + b / 16) :: (b % 16 * 4 + c / 64) :: c % 64 :: sextets bytes
  | [a, b] => [a / 4, a % 4 * 16 + b / 16, b % 16 * 4]
  | [a] => [a / 4, a % 4 * 16]
  | [] => []

def octets : List ℕ → List ℕ
  | w :: x :: y :: z :: digits =>
    (w * 4 + x / 16) :: (x % 16 * 16 + y / 4) :: (y % 4 * 64 + z) :: octets digits
  | [w, x, y] => [w * 4 + x / 16, x % 16 * 16 + y / 4]
  | [w, x] => [w * 4 + x / 16]
  | _ => []

theorem sextets_lt {bytes : List ℕ} (h : ∀ b ∈ bytes, b < 256) : ∀ d ∈ sextets bytes, d < 64 := by
  induction bytes using sextets.induct with
  | case1 a b c bytes ih =>
    simp only [List.mem_cons, forall_eq_or_imp] at h
    simp only [sextets, List.mem_cons, forall_eq_or_imp]
    exact ⟨by omega, by omega, by omega, by omega, ih h.2.2.2⟩
  | case2 a b =>
    simp only [List.mem_cons, forall_eq_or_imp] at h
    simp only [sextets, List.mem_cons, forall_eq_or_imp]
    exact ⟨by omega, by omega, by omega, by simp⟩
  | case3 a =>
    simp only [List.mem_cons, forall_eq_or_imp] at h
    simp only [sextets, List.mem_cons, forall_eq_or_imp]
    exact ⟨by omega, by omega, by simp⟩
  | case4 => simp [sextets]

theorem octets_sextets {bytes : List ℕ} (h : ∀ b ∈ bytes, b < 256) :
    octets (sextets bytes) = bytes := by
  induction bytes using sextets.induct with
  | case1 a b c bytes ih =>
    simp only [List.mem_cons, forall_eq_or_imp] at h
    have h₁ : a / 4 * 4 + (a % 4 * 16 + b / 16) / 16 = a := by omega
    have h₂ : (a % 4 * 16 + b / 16) % 16 * 16 + (b % 16 * 4 + c / 64) / 4 = b := by omega
    have h₃ : (b % 16 * 4 + c / 64) % 4 * 64 + c % 64 = c := by omega
    rw [sextets, octets, h₁, h₂, h₃, ih h.2.2.2]
  | case2 a b =>
    simp only [List.mem_cons, forall_eq_or_imp] at h
    have h₁ : a / 4 * 4 + (a % 4 * 16 + b / 16) / 16 = a := by omega
    have h₂ : (a % 4 * 16 + b / 16) % 16 * 16 + b % 16 * 4 / 4 = b := by omega
    rw [sextets, octets, h₁, h₂]
  | case3 a =>
    have h₁ : a / 4 * 4 + a % 4 * 16 / 16 = a := by omega
    rw [sextets, octets, h₁]
  | case4 => rfl

/-! ## Text -/

def encode (s : String) : String :=
  String.ofList ((sextets (s.toUTF8.data.toList.map UInt8.toNat)).map digit)

def decodeBytes (s : String) : ByteArray :=
  ⟨((octets ((s.toList.takeWhile (· ≠ '=')).filterMap digitValue)).map UInt8.ofNat).toArray⟩

/-- The text of the bytes; `lossy` reads bytes that are not UTF-8. -/
def decode (lossy : ByteArray → String) (s : String) : String :=
  (String.fromUTF8? (decodeBytes s)).getD (lossy (decodeBytes s))

theorem decodeBytes_encode (s : String) : decodeBytes (encode s) = s.toUTF8 := by
  have small : ∀ b ∈ s.toUTF8.data.toList.map UInt8.toNat, b < 256 := by
    intro b hb
    obtain ⟨u, -, rfl⟩ := List.mem_map.mp hb
    exact u.toNat_lt
  have plain : ∀ c ∈ (sextets (s.toUTF8.data.toList.map UInt8.toNat)).map digit,
      decide (c ≠ '=') = true := by
    intro c hc
    obtain ⟨d, hd, rfl⟩ := List.mem_map.mp hc
    simpa using (digitValue_digit (sextets_lt small d hd)).2
  have digits : ((sextets (s.toUTF8.data.toList.map UInt8.toNat)).map digit).filterMap digitValue =
      sextets (s.toUTF8.data.toList.map UInt8.toNat) := by
    rw [List.filterMap_map]
    refine (List.filterMap_congr fun d hd => ?_).trans List.filterMap_some
    exact (digitValue_digit (sextets_lt small d hd)).1
  rw [decodeBytes, encode, String.toList_ofList, List.takeWhile_eq_self_iff.mpr plain, digits,
    octets_sextets small, List.map_map]
  have back : UInt8.ofNat ∘ UInt8.toNat = id := funext fun u => UInt8.ofNat_toNat
  rw [back, List.map_id]

/-- **A text comes back from its base64url text.** -/
theorem decode_encode (lossy : ByteArray → String) (s : String) : decode lossy (encode s) = s := by
  have valid : s.toUTF8.IsValidUTF8 := s.isValidUTF8
  rw [decode, decodeBytes_encode, String.fromUTF8?, dif_pos valid]
  rfl

end Base64url
