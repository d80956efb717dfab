import Mathlib.Algebra.Group.Nat.Defs
import Mathlib.Data.Int.Notation
import Mathlib.Data.List.Basic
import Mathlib.Data.Nat.Notation

/-!
# Numbers as text

* `formatInt`, `format02` — the conversions `%d` and `%02d` of `sprintf`;
* `atoi` — as `strtol` in base ten computes it for 32-bit results;
* `atoi_formatInt` — a number is read back from its text.
-/

namespace IpncRdk.Lib

/-- The decimal digits of a number. -/
def digits (n : ℕ) : List UInt8 := (Nat.toDigits 10 n).map fun c => UInt8.ofNat c.toNat

/-- `%d`. -/
def formatInt (n : ℤ) : List UInt8 :=
  if n < 0 then 45 :: digits n.natAbs else digits n.natAbs

/-- Leading zeros up to a width. -/
def padZeros (width : ℕ) (text : List UInt8) : List UInt8 :=
  List.replicate (width - text.length) 48 ++ text

/-- `%02d`; a sign counts for the width. -/
def format02 (n : ℤ) : List UInt8 :=
  if n < 0 then 45 :: padZeros 1 (digits n.natAbs) else padZeros 2 (digits n.natAbs)

/-! ## Lengths and characters -/

lemma length_digits_le_iff {n k : ℕ} (hk : 0 < k) : (digits n).length ≤ k ↔ n < 10 ^ k := by
  unfold digits
  rw [List.length_map, Nat.length_toDigits_le_iff (by decide) hk]

lemma length_padZeros (width : ℕ) (text : List UInt8) :
    (padZeros width text).length = max width text.length := by
  unfold padZeros
  rw [List.length_append, List.length_replicate]
  omega

/-- A number from 0 to 99 takes two characters. -/
lemma length_format02 {n : ℤ} (hlo : 0 ≤ n) (hhi : n < 100) : (format02 n).length = 2 := by
  unfold format02
  rw [if_neg (by omega), length_padZeros]
  have hlen : (digits n.natAbs).length ≤ 2 := (length_digits_le_iff (by decide)).mpr (by omega)
  omega

lemma digit_of_mem_digits {n : ℕ} {b : UInt8} (hb : b ∈ digits n) : 48 ≤ b ∧ b ≤ 57 := by
  obtain ⟨c, hc, rfl⟩ := List.mem_map.mp hb
  have hdigit : c.isDigit := Nat.isDigit_of_mem_toDigits (by decide) (by decide) hc
  have hbounds : 48 ≤ c.toNat ∧ c.toNat ≤ 57 := by
    rw [Char.isDigit, Bool.and_eq_true, decide_eq_true_eq, decide_eq_true_eq] at hdigit
    exact ⟨UInt32.le_iff_toNat_le.mp hdigit.1, UInt32.le_iff_toNat_le.mp hdigit.2⟩
  have hnat : (UInt8.ofNat c.toNat).toNat = c.toNat := by
    rw [UInt8.toNat_ofNat']
    omega
  rw [UInt8.le_iff_toNat_le, UInt8.le_iff_toNat_le, hnat]
  exact hbounds

/-- `isspace`. -/
def isSpace (b : UInt8) : Bool := b == 32 || (9 ≤ b && b ≤ 13)

/-- The digits at the start of a text, added to what was read before. -/
def readDigits : List UInt8 → ℤ → ℤ
  | [], n => n
  | b :: text, n =>
    if 48 ≤ b ∧ b ≤ 57 then readDigits text (n * 10 + ((b.toNat : ℤ) - 48)) else n

/-- `atoi`; a result out of range is the nearest `int`. -/
def atoi (text : List UInt8) : ℤ :=
  let n := match text.dropWhile isSpace with
    | [] => 0
    | b :: rest =>
      if b = 45 then -readDigits rest 0
      else if b = 43 then readDigits rest 0
      else readDigits (b :: rest) 0
  if n < -2147483648 then -2147483648 else if 2147483647 < n then 2147483647 else n

/-! ## Reading a number back -/

lemma digitChar_eq {d : ℕ} (h : d < 10) :
    UInt8.ofNat (Nat.digitChar d).toNat = UInt8.ofNat (48 + d) := by
  revert d
  decide

/-- The last digit comes off the end. -/
lemma digits_eq (n : ℕ) :
    digits n = (if n < 10 then [] else digits (n / 10)) ++ [UInt8.ofNat (48 + n % 10)] := by
  unfold digits
  rw [Nat.toDigits_eq_if (by decide)]
  split
  next h =>
    rw [List.map_singleton, digitChar_eq h, Nat.mod_eq_of_lt h]
    rfl
  next h => rw [List.map_append, List.map_singleton, digitChar_eq (Nat.mod_lt _ (by decide))]

lemma readDigits_append {text : List UInt8} (h : ∀ b ∈ text, 48 ≤ b ∧ b ≤ 57)
    (rest : List UInt8) (n : ℤ) :
    readDigits (text ++ rest) n = readDigits rest (readDigits text n) := by
  induction text generalizing n with
  | nil => rfl
  | cons b text ih =>
    have hb := h b List.mem_cons_self
    rw [List.cons_append, readDigits, readDigits, if_pos hb, if_pos hb,
      ih fun c hc => h c (List.mem_cons_of_mem b hc)]

lemma readDigits_digits (n : ℕ) : readDigits (digits n) 0 = n := by
  induction n using Nat.strongRecOn with
  | ind n ih =>
    have hlast : n % 10 < 10 := Nat.mod_lt _ (by decide)
    have hnat : (UInt8.ofNat (48 + n % 10)).toNat = 48 + n % 10 := by
      rw [UInt8.toNat_ofNat']
      omega
    have hdigit : 48 ≤ UInt8.ofNat (48 + n % 10) ∧ UInt8.ofNat (48 + n % 10) ≤ 57 := by
      rw [UInt8.le_iff_toNat_le, UInt8.le_iff_toNat_le, hnat]
      exact ⟨Nat.le_add_right 48 _, by show 48 + n % 10 ≤ 57; omega⟩
    rw [digits_eq]
    split
    next h =>
      rw [List.nil_append, readDigits, if_pos hdigit, hnat]
      show (0 * 10 + (((48 + n % 10 : ℕ) : ℤ) - 48)) = n
      omega
    next h =>
      rw [readDigits_append fun b hb => digit_of_mem_digits hb, ih (n / 10) (by omega), readDigits,
        if_pos hdigit, hnat]
      show (((n / 10 : ℕ) : ℤ) * 10 + (((48 + n % 10 : ℕ) : ℤ) - 48)) = n
      omega

/-- A text of digits begins with one. -/
lemma digits_cons (n : ℕ) : ∃ b text, digits n = b :: text ∧ 48 ≤ b ∧ b ≤ 57 := by
  cases hdigits : digits n with
  | nil =>
    rw [digits_eq] at hdigits
    simp at hdigits
  | cons b text => exact ⟨b, text, rfl, digit_of_mem_digits (hdigits ▸ List.mem_cons_self)⟩

lemma not_isSpace_of_digit {b : UInt8} (h : 48 ≤ b) : ¬ isSpace b = true := by
  rw [UInt8.le_iff_toNat_le] at h
  unfold isSpace
  rw [Bool.or_eq_true, Bool.and_eq_true, beq_iff_eq, decide_eq_true_eq, decide_eq_true_eq,
    UInt8.le_iff_toNat_le, UInt8.le_iff_toNat_le]
  rintro (rfl | ⟨-, hle⟩)
  · exact absurd h (by decide)
  · have hlow : 48 ≤ b.toNat := h
    have hhigh : b.toNat ≤ 13 := hle
    omega

/-- **A number is read back** from its text. -/
theorem atoi_formatInt {n : ℤ} (hlo : -2147483648 ≤ n) (hhi : n ≤ 2147483647) :
    atoi (formatInt n) = n := by
  unfold formatInt atoi
  by_cases hneg : n < 0
  · have hread : -readDigits (digits n.natAbs) 0 = n := by
      rw [readDigits_digits]
      omega
    rw [if_pos hneg, List.dropWhile_cons_of_neg (by decide)]
    simp only [if_true, hread]
    rw [if_neg (by omega), if_neg (by omega)]
  · have hread : readDigits (digits n.natAbs) 0 = n := by
      rw [readDigits_digits]
      omega
    -- the first digit is neither a blank nor a sign
    obtain ⟨b, text, hdigits, hlow, hhigh⟩ := digits_cons n.natAbs
    rw [hdigits] at hread
    have hspace : ¬ isSpace b = true := not_isSpace_of_digit hlow
    have hminus : b ≠ 45 := fun h => absurd (h ▸ hlow) (by decide)
    have hplus : b ≠ 43 := fun h => absurd (h ▸ hlow) (by decide)
    rw [if_neg hneg, hdigits, List.dropWhile_cons_of_neg hspace]
    simp only [if_neg hminus, if_neg hplus, hread]
    rw [if_neg (by omega), if_neg (by omega)]

/-- The numbers of at most three characters. -/
lemma length_formatInt_lt_iff (n : ℤ) :
    (formatInt n).length < 4 ↔ -100 < n ∧ n < 1000 := by
  unfold formatInt
  by_cases hneg : n < 0
  · have hlen : (digits n.natAbs).length ≤ 2 ↔ n.natAbs < 10 ^ 2 :=
      length_digits_le_iff (by decide)
    rw [if_pos hneg, List.length_cons]
    omega
  · have hlen : (digits n.natAbs).length ≤ 3 ↔ n.natAbs < 10 ^ 3 :=
      length_digits_le_iff (by decide)
    rw [if_neg hneg]
    omega

end IpncRdk.Lib
