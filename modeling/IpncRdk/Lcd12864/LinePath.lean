import Mathlib.Algebra.Order.Field.Rat
import Mathlib.Algebra.Order.Ring.Abs
import Mathlib.Data.List.Range
import Mathlib.Tactic.FieldSimp
import Mathlib.Tactic.Linarith
import IpncRdk.Lcd12864.Line

/-!
# The path of a line

In the longer direction a line moves by one each round, and in the other by the quotient of its
lengths, rounded down with a remainder that is never 0.

* `Follows` — what a line should look like;
* `follows` — every line that comes to an end does.
-/

namespace IpncRdk.Lcd12864

open Lib

/-! ## The coordinates of a direction -/

namespace Axis
variable {a b : Axis} {d j k : ℕ}

lemma inc_cases (a : Axis) : a.inc = 1 ∧ 0 ≤ a.last - a.first ∨
    a.inc = 0 ∧ a.last - a.first = 0 ∨ a.inc = -1 ∧ a.last - a.first ≤ 0 := by
  unfold inc
  split_ifs <;> omega

/-- The first round does not move. -/
lemma pos_one (hlen : a.len ≤ d) : a.pos d 1 = a.first := by
  unfold pos
  rw [accumulate_of_le (show (accumulate a.len d 0).1 + a.len ≤ d by simpa [accumulate] using hlen)]
  simp [accumulate]

lemma pos_zero (a : Axis) (d : ℕ) : a.pos d 0 = a.first := by
  simp [pos, accumulate]

lemma pos_last (hlen : a.len ≤ d) : a.pos d (d + 1) = a.last := by
  unfold pos
  rw [accumulate_last hlen, inc_mul_len]
  omega

/-- The coordinates lie between those of the ends. -/
lemma pos_between (hlen : a.len ≤ d) (hk : k ≤ d + 1) :
    min a.first a.last ≤ a.pos d k ∧ a.pos d k ≤ max a.first a.last := by
  have hle : (accumulate a.len d k).2 ≤ a.len :=
    (accumulate_mono a.len d hk).trans_eq (accumulate_last hlen)
  unfold pos
  unfold len at hle ⊢
  rcases a.inc_cases with ⟨hinc, hsign⟩ | ⟨hinc, hsign⟩ | ⟨hinc, hsign⟩ <;> rw [hinc] <;> omega

lemma pos_step (a : Axis) (d k : ℕ) : |a.pos d (k + 1) - a.pos d k| ≤ 1 := by
  unfold pos
  rw [abs_le]
  rcases accumulate_step a.len d k with hstep | hstep <;> rw [hstep] <;>
    rcases a.inc_cases with ⟨hinc, -⟩ | ⟨hinc, -⟩ | ⟨hinc, -⟩ <;> rw [hinc] <;> push_cast <;> omega

/-- The longer direction moves each round but the first. -/
lemma pos_major (hlen : a.len = d) (hj : j ≤ d) : a.pos d (j + 1) = a.first + a.inc * j := by
  unfold pos
  rcases Nat.eq_zero_or_pos d with rfl | hd
  · obtain rfl : j = 0 := by omega
    rw [hlen, accumulate_zero_left]
  · rw [hlen, accumulate_self hd]

/-- The coordinate on the ideal line, for a coordinate in the other direction. -/
def ideal (a b : Axis) (x : ℤ) : ℚ :=
  b.first + (b.last - b.first : ℤ) / (a.last - a.first : ℤ) * (x - a.first : ℤ)

/-- The ideal coordinate after `j` moves of the longer direction. -/
lemma ideal_eq (hlen : a.len = d) (hd : 0 < d) (hj : j ≤ d) :
    a.ideal b (a.pos d (j + 1)) = b.first + b.inc * ((j * b.len : ℕ) / (d : ℚ)) := by
  have hinc : (a.inc : ℚ) ≠ 0 := by
    intro hzero
    have hmul := a.inc_mul_len
    rw [hlen, Int.cast_eq_zero.mp hzero] at hmul
    unfold len at hlen
    omega
  have hd' : (d : ℚ) ≠ 0 := by exact_mod_cast hd.ne'
  unfold ideal
  rw [pos_major hlen hj, ← inc_mul_len a, ← inc_mul_len b, hlen]
  push_cast
  field_simp
  ring

lemma abs_inc_le (a : Axis) : |(a.inc : ℚ)| ≤ 1 := by
  rcases a.inc_cases with ⟨hinc, -⟩ | ⟨hinc, -⟩ | ⟨hinc, -⟩ <;> rw [hinc] <;> simp

/-- The shorter direction is less than one off. -/
lemma close (hlen : a.len = d) (hshort : b.len ≤ d) (hj : j ≤ d) :
    |(b.pos d (j + 1) : ℚ) - a.ideal b (a.pos d (j + 1))| < 1 := by
  rcases Nat.eq_zero_or_pos d with rfl | hd
  · -- a line of one point
    obtain rfl : j = 0 := by omega
    have hb : b.last - b.first = 0 := by
      unfold len at hshort
      omega
    rw [pos_one hshort]
    simp [ideal, hb]
  · obtain ⟨hlo, hhi⟩ := accumulate_close hshort hd j
    have hd' : (0 : ℚ) < d := by exact_mod_cast hd
    have hlo' : ((j * b.len : ℕ) : ℚ) / d < (accumulate b.len d (j + 1)).2 + 1 := by
      rw [div_lt_iff₀ hd', mul_comm _ (d : ℚ)]
      exact_mod_cast hlo
    have hhi' : ((accumulate b.len d (j + 1)).2 : ℚ) - 1 < ((j * b.len : ℕ) : ℚ) / d := by
      rw [lt_div_iff₀ hd', sub_mul, one_mul, sub_lt_iff_lt_add, mul_comm]
      exact_mod_cast hhi
    have hoff : |((accumulate b.len d (j + 1)).2 : ℚ) - ((j * b.len : ℕ) : ℚ) / d| < 1 := by
      rw [abs_lt]
      constructor <;> linarith
    calc |(b.pos d (j + 1) : ℚ) - a.ideal b (a.pos d (j + 1))|
        = |(b.inc : ℚ)| * |((accumulate b.len d (j + 1)).2 : ℚ) - ((j * b.len : ℕ) : ℚ) / d| := by
          rw [ideal_eq hlen hd hj, ← abs_mul]
          unfold pos
          push_cast
          ring_nf
      _ ≤ 1 * |((accumulate b.len d (j + 1)).2 : ℚ) - ((j * b.len : ℕ) : ℚ) / d| :=
          mul_le_mul_of_nonneg_right b.abs_inc_le (abs_nonneg _)
      _ < 1 := by
          rw [one_mul]
          exact hoff

/-- The longer direction comes to each of its coordinates at one round. -/
lemma pos_major_inj (hlen : a.len = d) (hj : j ≤ d) (hk : k ≤ d)
    (heq : a.pos d (j + 1) = a.pos d (k + 1)) : j = k := by
  rw [pos_major hlen hj, pos_major hlen hk] at heq
  unfold len at hlen
  rcases a.inc_cases with ⟨hinc, hsign⟩ | ⟨hinc, hsign⟩ | ⟨hinc, hsign⟩ <;> rw [hinc] at heq <;>
    omega

lemma exists_pos_major (hlen : a.len = d) {x : ℤ} (hlo : min a.first a.last ≤ x)
    (hhi : x ≤ max a.first a.last) : ∃ j ≤ d, a.pos d (j + 1) = x := by
  have hle : (x - a.first).natAbs ≤ d := by
    unfold len at hlen
    omega
  refine ⟨(x - a.first).natAbs, hle, ?_⟩
  rw [pos_major hlen hle]
  rcases a.inc_cases with ⟨hinc, hsign⟩ | ⟨hinc, hsign⟩ | ⟨hinc, hsign⟩ <;> rw [hinc] <;> omega

end Axis

/-! ## The line -/

namespace Line
variable {l : Line} {d j k : ℕ} {p : ℤ × ℤ}

/-- The line is longer in the first direction. -/
def Wide (l : Line) : Prop := l.yAxis.len < l.xAxis.len

instance (l : Line) : Decidable l.Wide := inferInstanceAs (Decidable (_ < _))

def majorAxis (l : Line) : Axis := if l.Wide then l.xAxis else l.yAxis

def minorAxis (l : Line) : Axis := if l.Wide then l.yAxis else l.xAxis

def major (l : Line) (p : ℤ × ℤ) : ℤ := if l.Wide then p.1 else p.2

def minor (l : Line) (p : ℤ × ℤ) : ℤ := if l.Wide then p.2 else p.1

/-- What the points of a line should be like. -/
structure Follows (l : Line) (points : List (ℤ × ℤ)) : Prop where
  starts : points.head? = some (l.xAxis.first, l.yAxis.first)
  ends : points.getLast? = some (l.xAxis.last, l.yAxis.last)
  box : ∀ p ∈ points,
    (min l.xAxis.first l.xAxis.last ≤ p.1 ∧ p.1 ≤ max l.xAxis.first l.xAxis.last) ∧
      min l.yAxis.first l.yAxis.last ≤ p.2 ∧ p.2 ≤ max l.yAxis.first l.yAxis.last
  one : ∀ x, min l.majorAxis.first l.majorAxis.last ≤ x →
    x ≤ max l.majorAxis.first l.majorAxis.last →
    ∃! y, ∃ p ∈ points, l.major p = x ∧ l.minor p = y
  step : points.IsChain fun p q => |q.1 - p.1| ≤ 1 ∧ |q.2 - p.2| ≤ 1
  close : ∀ p ∈ points, |(l.minor p : ℚ) - l.majorAxis.ideal l.minorAxis (l.major p)| < 1

lemma majorAxis_len (l : Line) : l.majorAxis.len = l.dist := by
  unfold majorAxis dist
  by_cases hwide : l.Wide
  · rw [if_pos hwide]
    exact (max_eq_left (le_of_lt hwide)).symm
  · rw [if_neg hwide]
    exact (max_eq_right (not_lt.mp hwide)).symm

lemma minorAxis_len (l : Line) : l.minorAxis.len ≤ l.dist := by
  unfold minorAxis dist
  by_cases hwide : l.Wide
  · rw [if_pos hwide]
    exact le_max_right _ _
  · rw [if_neg hwide]
    exact le_max_left _ _

lemma major_point (l : Line) (k : ℕ) : l.major (l.point k) = l.majorAxis.pos l.dist k := by
  unfold major majorAxis point
  split_ifs <;> rfl

lemma minor_point (l : Line) (k : ℕ) : l.minor (l.point k) = l.minorAxis.pos l.dist k := by
  unfold minor minorAxis point
  split_ifs <;> rfl

lemma xAxis_len_le (l : Line) : l.xAxis.len ≤ l.dist := le_max_left _ _

lemma yAxis_len_le (l : Line) : l.yAxis.len ≤ l.dist := le_max_right _ _

lemma point_zero (l : Line) : l.point 0 = (l.xAxis.first, l.yAxis.first) := by
  unfold point
  rw [Axis.pos_zero, Axis.pos_zero]

lemma point_one (l : Line) : l.point 1 = l.point 0 := by
  unfold point
  rw [Axis.pos_one l.xAxis_len_le, Axis.pos_one l.yAxis_len_le, Axis.pos_zero, Axis.pos_zero]

/-- Each point is one after a first round. -/
lemma exists_point (hp : p ∈ (List.range (l.dist + 2)).map l.point) :
    ∃ j ≤ l.dist, p = l.point (j + 1) := by
  obtain ⟨k, hk, rfl⟩ := List.mem_map.mp hp
  have hk := List.mem_range.mp hk
  cases k with
  | zero => exact ⟨0, Nat.zero_le _, l.point_one.symm⟩
  | succ j => exact ⟨j, by omega, rfl⟩

/-- **Every line that comes to an end follows its ideal.** -/
theorem follows (l : Line) (hlen : l.dist < 65534) : ∃ points,
    lineLoop l (l.dist + 3) l.start = some points ∧ l.Follows points := by
  refine ⟨_, lineLoop_eq hlen (by omega), ?_⟩
  have hmajor := l.majorAxis_len
  have hminor := l.minorAxis_len
  refine ⟨?_, ?_, fun p hp => ?_, fun x hlo hhi => ?_, ?_, fun p hp => ?_⟩
  · rw [List.range_succ_eq_map, List.map_cons, List.head?_cons, point_zero]
  · rw [List.range_succ, List.map_append, List.map_singleton, List.getLast?_concat]
    unfold point
    rw [Axis.pos_last l.xAxis_len_le, Axis.pos_last l.yAxis_len_le]
  · obtain ⟨j, hj, rfl⟩ := exists_point hp
    exact ⟨Axis.pos_between l.xAxis_len_le (by omega), Axis.pos_between l.yAxis_len_le (by omega)⟩
  · obtain ⟨j, hj, hx⟩ := Axis.exists_pos_major hmajor hlo hhi
    refine ⟨l.minorAxis.pos l.dist (j + 1), ⟨l.point (j + 1), ?_, ?_, l.minor_point _⟩, ?_⟩
    · exact List.mem_map_of_mem (List.mem_range.mpr (by omega))
    · rw [major_point, hx]
    · rintro y ⟨p, hp, hpx, rfl⟩
      obtain ⟨k, hk, rfl⟩ := exists_point hp
      rw [major_point, ← hx] at hpx
      rw [minor_point, Axis.pos_major_inj hmajor hk hj hpx]
  · rw [List.isChain_map, List.isChain_range]
    exact fun k _ => ⟨l.xAxis.pos_step l.dist k, l.yAxis.pos_step l.dist k⟩
  · obtain ⟨j, hj, rfl⟩ := exists_point hp
    rw [major_point, minor_point]
    exact Axis.close hmajor hminor hj

/-- A line to the upper left. -/
theorem follows_slope : ∃ points, lineLoop ⟨5, 9, 2, 2⟩ 10 (Line.start ⟨5, 9, 2, 2⟩) = some points ∧
    Line.Follows ⟨5, 9, 2, 2⟩ points :=
  follows ⟨5, 9, 2, 2⟩ (by decide)

end Line

end IpncRdk.Lcd12864
