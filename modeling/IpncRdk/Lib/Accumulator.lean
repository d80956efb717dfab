import Mathlib.Order.Monotone.Basic
import Mathlib.Tactic.Linarith
import Mathlib.Tactic.Ring

/-!
# Exact division by an accumulator

An error grows by `m` at a time, and `d` is taken away from it whenever it is greater than `d`. For
`m ≤ d` one subtraction is enough, and the subtractions so far are the multiples of `d` that the
sum has left behind: a division without a division.

* `accumulate` — the error and the number of subtractions after some additions;
* `accumulate_total` — no amount is lost;
* `accumulate_count` — the number as a quotient;
* `accumulate_close` — it is never one off the exact ratio.
-/

namespace IpncRdk.Lib

/-- The error and the number of subtractions after `k` additions of `m`. -/
def accumulate (m d : ℕ) : ℕ → ℕ × ℕ
  | 0 => (0, 0)
  | k + 1 =>
    let err := (accumulate m d k).1 + m
    if d < err then (err - d, (accumulate m d k).2 + 1) else (err, (accumulate m d k).2)

section Accumulate
variable {m d k : ℕ}

lemma accumulate_of_lt (h : d < (accumulate m d k).1 + m) :
    accumulate m d (k + 1) = ((accumulate m d k).1 + m - d, (accumulate m d k).2 + 1) := if_pos h

lemma accumulate_of_le (h : (accumulate m d k).1 + m ≤ d) :
    accumulate m d (k + 1) = ((accumulate m d k).1 + m, (accumulate m d k).2) :=
  if_neg (not_lt.mpr h)

/-- The sum of the additions is the error and what has been taken away. -/
lemma accumulate_total (m d k : ℕ) :
    (accumulate m d k).1 + d * (accumulate m d k).2 = k * m := by
  induction k with
  | zero => simp [accumulate]
  | succ k ih =>
    rw [Nat.succ_mul, ← ih]
    rcases lt_or_ge d ((accumulate m d k).1 + m) with hover | hbelow
    · rw [accumulate_of_lt hover, Nat.mul_succ]
      dsimp only
      omega
    · rw [accumulate_of_le hbelow]
      dsimp only
      omega

/-- One subtraction at a time keeps the error within `d`. -/
lemma accumulate_le (h : m ≤ d) (k : ℕ) : (accumulate m d k).1 ≤ d := by
  induction k with
  | zero => exact Nat.zero_le d
  | succ k ih =>
    rcases lt_or_ge d ((accumulate m d k).1 + m) with hover | hbelow
    · rw [accumulate_of_lt hover]
      dsimp only
      omega
    · rw [accumulate_of_le hbelow]
      exact hbelow

/-- The error is 0 before the first addition only. -/
lemma accumulate_pos (hm : 0 < m) (k : ℕ) : 0 < (accumulate m d (k + 1)).1 := by
  rcases lt_or_ge d ((accumulate m d k).1 + m) with hover | hbelow
  · rw [accumulate_of_lt hover]
    dsimp only
    omega
  · rw [accumulate_of_le hbelow]
    dsimp only
    omega

lemma accumulate_step (m d k : ℕ) : (accumulate m d (k + 1)).2 = (accumulate m d k).2 ∨
    (accumulate m d (k + 1)).2 = (accumulate m d k).2 + 1 := by
  rcases lt_or_ge d ((accumulate m d k).1 + m) with hover | hbelow
  · rw [accumulate_of_lt hover]
    exact .inr rfl
  · rw [accumulate_of_le hbelow]
    exact .inl rfl

/-- Without an amount to add nothing is taken away. -/
lemma accumulate_zero_left (d k : ℕ) : (accumulate 0 d k).2 = 0 := by
  induction k with
  | zero => rfl
  | succ k ih =>
    rw [accumulate_of_le (accumulate_le (Nat.zero_le d) k)]
    exact ih

/-- The number of subtractions is the quotient that leaves a remainder from 1 to `d`. -/
lemma accumulate_count (h : m ≤ d) (k : ℕ) : (accumulate m d k).2 = (k * m - 1) / d := by
  rcases Nat.eq_zero_or_pos m with rfl | hm
  · rw [accumulate_zero_left, Nat.mul_zero, Nat.zero_sub, Nat.zero_div]
  cases k with
  | zero => rw [Nat.zero_mul, Nat.zero_sub, Nat.zero_div, accumulate]
  | succ k =>
    have htotal := accumulate_total m d (k + 1)
    have hle := accumulate_le h (k + 1)
    have hpos := accumulate_pos (d := d) hm k
    refine (Nat.div_eq_of_lt_le ?_ ?_).symm
    · rw [Nat.mul_comm]
      omega
    · have hsucc : ((accumulate m d (k + 1)).2 + 1) * d = d * (accumulate m d (k + 1)).2 + d := by
        ring
      omega

lemma accumulate_mono (m d : ℕ) : Monotone fun k => (accumulate m d k).2 :=
  monotone_nat_of_le_succ fun k => by
    rcases accumulate_step m d k with h | h <;> omega

/-- After `d + 1` additions there have been `m` subtractions. -/
lemma accumulate_last (h : m ≤ d) : (accumulate m d (d + 1)).2 = m := by
  rcases Nat.eq_zero_or_pos m with rfl | hm
  · exact accumulate_zero_left d _
  · rw [accumulate_count h]
    refine Nat.div_eq_of_lt_le ?_ ?_
    · rw [Nat.succ_mul, Nat.mul_comm]
      omega
    · have hsucc : (m + 1) * d = d * m + d := by ring
      rw [Nat.succ_mul]
      omega

/-- An amount of `d` is taken away each time but the first. -/
lemma accumulate_self (hd : 0 < d) (j : ℕ) : (accumulate d d (j + 1)).2 = j := by
  rw [accumulate_count le_rfl]
  refine Nat.div_eq_of_lt_le ?_ ?_
  · rw [Nat.succ_mul]
    omega
  · exact Nat.sub_lt (Nat.mul_pos (Nat.succ_pos j) hd) Nat.one_pos

/-- After `j + 1` additions the number is less than one off `j * m / d`. -/
lemma accumulate_close (h : m ≤ d) (hd : 0 < d) (j : ℕ) :
    j * m < d * ((accumulate m d (j + 1)).2 + 1) ∧ d * (accumulate m d (j + 1)).2 < j * m + d := by
  have htotal := accumulate_total m d (j + 1)
  have hle := accumulate_le h (j + 1)
  rw [Nat.mul_succ]
  rw [Nat.succ_mul] at htotal
  rcases Nat.eq_zero_or_pos m with rfl | hm
  · omega
  · have hpos := accumulate_pos (d := d) hm j
    omega

end Accumulate

end IpncRdk.Lib
