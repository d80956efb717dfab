import Mathlib.Data.List.Basic
import Mathlib.Algebra.BigOperators.Group.List.Basic
import Mathlib.Data.Nat.ModEq
import Mathlib.Tactic.Linarith
import Mathlib.Tactic.Ring

/-!
# One's complement sums

Addition with an end-around carry, on the numbers from 0 to `m`, which is `2 ^ w - 1` for words of
`w` bits. There `m` is a second zero, so a sum is known by its residue modulo `m` and by whether it
is 0.

* `rep` — the number from 0 to `m` that stands for a sum;
* `addCarry`, `onesSum` — addition with the carry, which computes it;
* `rep_fold`, `rep_carry` — a sum that has been kept whole, and is folded twice at the end;
* `swap` — two digits of a word exchanged, which is a multiplication;
* `onesSum_map_swap` — so a sum does not depend on the order of the digits.
-/

namespace IpncRdk.Lib.OnesComplement

/-- What stands for a sum: 0 for 0, and a number from 1 to `m` for every other one. -/
def rep (m s : ℕ) : ℕ := if s = 0 then 0 else (s - 1) % m + 1

/-- Addition with an end-around carry. -/
def addCarry (m x y : ℕ) : ℕ := if x + y ≤ m then x + y else x + y - m

def onesSum (m : ℕ) (ws : List ℕ) : ℕ := ws.foldl (addCarry m) 0

/-! ## Representatives -/

section Rep
variable {m s t v : ℕ}

@[simp] lemma rep_zero (m : ℕ) : rep m 0 = 0 := rfl

lemma rep_of_ne_zero (hs : s ≠ 0) : rep m s = (s - 1) % m + 1 := if_neg hs

lemma rep_eq_zero_iff : rep m s = 0 ↔ s = 0 := by
  constructor
  · intro h
    by_contra hs
    rw [rep_of_ne_zero hs] at h
    omega
  · rintro rfl
    rfl

lemma rep_le (hm : 0 < m) (s : ℕ) : rep m s ≤ m := by
  by_cases hs : s = 0
  · rw [hs, rep_zero]
    exact Nat.zero_le m
  · rw [rep_of_ne_zero hs]
    exact Nat.mod_lt _ hm

lemma rep_modEq (m s : ℕ) : rep m s ≡ s [MOD m] := by
  by_cases hs : s = 0
  · rw [hs, rep_zero]
  · have hpred : (s - 1) % m + 1 ≡ s - 1 + 1 [MOD m] := (Nat.mod_modEq _ _).add_right 1
    rw [rep_of_ne_zero hs]
    rwa [Nat.sub_add_cancel (Nat.pos_of_ne_zero hs)] at hpred

/-- A number up to `m` is its own representative. -/
lemma rep_of_le (h : s ≤ m) : rep m s = s := by
  by_cases hs : s = 0
  · rw [hs, rep_zero]
  · rw [rep_of_ne_zero hs, Nat.mod_eq_of_lt (by omega)]
    omega

/-- Sums of one residue have one representative, unless one of them is 0 and the other is not. -/
lemma rep_congr (h : s ≡ t [MOD m]) (hzero : s = 0 ↔ t = 0) : rep m s = rep m t := by
  by_cases hs : s = 0
  · rw [hs, hzero.mp hs]
  · have ht : t ≠ 0 := fun ht => hs (hzero.mpr ht)
    have hpred : s - 1 + 1 ≡ t - 1 + 1 [MOD m] := by
      rwa [Nat.sub_add_cancel (Nat.pos_of_ne_zero hs), Nat.sub_add_cancel (Nat.pos_of_ne_zero ht)]
    rw [rep_of_ne_zero hs, rep_of_ne_zero ht, Nat.ModEq.add_right_cancel' 1 hpred]

/-- The representative is known by its range, its residue, and whether it is 0. -/
lemma eq_rep (hle : v ≤ m) (h : v ≡ s [MOD m]) (hzero : v = 0 ↔ s = 0) : v = rep m s := by
  rw [← rep_congr h hzero, rep_of_le hle]

end Rep

/-! ## Sums with an end-around carry -/

section Sum
variable {m s t x y : ℕ}

lemma addCarry_eq (hx : x ≤ m) (hy : y ≤ m) : addCarry m x y = rep m (x + y) := by
  unfold addCarry
  split_ifs with h
  · exact (rep_of_le h).symm
  · apply eq_rep (by omega)
    · have hadd : x + y - m + m ≡ x + y - m [MOD m] := Nat.add_modEq_right
      rw [Nat.sub_add_cancel (by omega)] at hadd
      exact hadd.symm
    · omega

/-- A representative may stand for its sum in a longer one. -/
lemma rep_rep_add (m s t : ℕ) : rep m (rep m s + t) = rep m (s + t) := by
  apply rep_congr ((rep_modEq m s).add_right t)
  rw [Nat.add_eq_zero_iff, Nat.add_eq_zero_iff, rep_eq_zero_iff]

/-- Words added one by one with an end-around carry. -/
lemma foldl_addCarry (hm : 0 < m) {ws : List ℕ} (hws : ∀ w ∈ ws, w ≤ m) (s : ℕ) :
    ws.foldl (addCarry m) (rep m s) = rep m (s + ws.sum) := by
  induction ws generalizing s with
  | nil => rfl
  | cons w ws ih =>
    have hw := hws w List.mem_cons_self
    rw [List.foldl_cons, addCarry_eq (rep_le hm s) hw, rep_rep_add, List.sum_cons, ← Nat.add_assoc]
    exact ih (fun v hv => hws v (List.mem_cons_of_mem w hv)) (s + w)

theorem onesSum_eq (hm : 0 < m) {ws : List ℕ} (hws : ∀ w ∈ ws, w ≤ m) :
    onesSum m ws = rep m ws.sum := by
  have hsum := foldl_addCarry hm hws 0
  rwa [rep_zero, Nat.zero_add] at hsum

end Sum

/-! ## Sums that are folded at the end -/

section Fold
variable {m s t : ℕ}

/-- The carries of a whole sum, added to its low word. -/
lemma rep_fold (m s : ℕ) : rep m (s / (m + 1) + s % (m + 1)) = rep m s := by
  have hsplit := Nat.div_add_mod s (m + 1)
  apply rep_congr
  · have hcarry : (m + 1) * (s / (m + 1)) ≡ s / (m + 1) [MOD m] := by
      have hmul : m * (s / (m + 1)) + s / (m + 1) ≡ s / (m + 1) [MOD m] :=
        Nat.modulus_mul_add_modEq_iff.mpr rfl
      rwa [← Nat.succ_mul] at hmul
    exact (hcarry.symm.add_right (s % (m + 1))).trans (by rw [hsplit])
  · constructor
    · intro h
      rw [← hsplit, (Nat.add_eq_zero_iff.mp h).1, (Nat.add_eq_zero_iff.mp h).2, Nat.mul_zero]
    · rintro rfl
      rw [Nat.zero_div, Nat.zero_mod]

/-- One fold leaves a carry of at most one. -/
lemma fold_le (h : s < (m + 1) * (m + 1)) : s / (m + 1) + s % (m + 1) ≤ 2 * m := by
  have hdiv : s / (m + 1) < m + 1 := Nat.div_lt_of_lt_mul h
  have hmod : s % (m + 1) < m + 1 := Nat.mod_lt s (Nat.succ_pos m)
  omega

/-- The second fold takes it in, and leaves none. -/
lemma rep_carry (h : t ≤ 2 * m) : (t + t / (m + 1)) % (m + 1) = rep m t := by
  rcases Nat.lt_or_ge t (m + 1) with hlow | hhigh
  · rw [Nat.div_eq_of_lt hlow, Nat.add_zero, Nat.mod_eq_of_lt hlow, rep_of_le (by omega)]
  · have hdiv : t / (m + 1) = 1 := Nat.div_eq_of_lt_le (by omega) (by omega)
    have hmod : (t + 1) % (m + 1) = t - m := by
      have hsplit : t + 1 = t - m + (m + 1) := by omega
      rw [hsplit, Nat.add_mod_right, Nat.mod_eq_of_lt (by omega)]
    rw [hdiv, hmod]
    apply eq_rep (by omega)
    · have hadd : t - m + m ≡ t - m [MOD m] := Nat.add_modEq_right
      rw [Nat.sub_add_cancel (by omega)] at hadd
      exact hadd.symm
    · omega

end Fold

/-! ## The complement, and words of two digits -/

section Word
variable {m b s v : ℕ}

/-- A sum and its complement make up the second zero. -/
lemma rep_add_complement (hm : 0 < m) (s : ℕ) : rep m (s + (m - rep m s)) = m := by
  have hle := rep_le hm s
  symm
  apply eq_rep (le_refl m)
  · have hself : rep m s + (m - rep m s) ≡ s + (m - rep m s) [MOD m] :=
      (rep_modEq m s).add_right _
    rwa [Nat.add_sub_cancel' hle] at hself
  · have hzero := rep_eq_zero_iff (m := m) (s := s)
    omega

/-- The two digits of a word, exchanged. -/
def swap (b v : ℕ) : ℕ := v % b * b + v / b

lemma swap_le (hv : v < b * b) : swap b v ≤ b * b - 1 := by
  have hb : 0 < b := Nat.pos_of_ne_zero (by rintro rfl; omega)
  have hdiv : v / b < b := Nat.div_lt_of_lt_mul hv
  have hmod : v % b < b := Nat.mod_lt v hb
  have hmul : v % b * b + b ≤ b * b := by
    calc v % b * b + b = (v % b + 1) * b := (Nat.succ_mul _ _).symm
      _ ≤ b * b := Nat.mul_le_mul_right b hmod
  unfold swap
  omega

lemma swap_eq_zero_iff (hb : 0 < b) : swap b v = 0 ↔ v = 0 := by
  have hsplit := Nat.div_add_mod v b
  unfold swap
  constructor
  · intro h
    obtain ⟨hmod, hdiv⟩ := Nat.add_eq_zero_iff.mp h
    have hmod' : v % b = 0 := (Nat.mul_eq_zero.mp hmod).resolve_right (by omega)
    rw [← hsplit, hdiv, hmod', Nat.mul_zero]
  · rintro rfl
    rw [Nat.zero_mod, Nat.zero_div, Nat.zero_mul]

/-- An exchange of digits is a multiplication by the base. -/
lemma swap_eq_rep (hb : 0 < b) (hv : v < b * b) : swap b v = rep (b * b - 1) (b * v) := by
  have hsplit := Nat.div_add_mod v b
  apply eq_rep (swap_le hv)
  · have hbase : b * b ≡ 1 [MOD b * b - 1] := by
      have hadd : 1 + (b * b - 1) ≡ 1 [MOD b * b - 1] := Nat.add_modEq_right
      rwa [Nat.add_sub_cancel' (by nlinarith)] at hadd
    have hmul : b * v = b * b * (v / b) + v % b * b := by
      conv_lhs => rw [← hsplit]
      ring
    have hcarry : b * b * (v / b) ≡ 1 * (v / b) [MOD b * b - 1] := hbase.mul_right (v / b)
    rw [hmul]
    unfold swap
    rw [Nat.add_comm]
    exact ((Nat.one_mul (v / b) ▸ hcarry).symm).add_right _
  · rw [swap_eq_zero_iff hb, Nat.mul_eq_zero, or_iff_right hb.ne']

end Word

/-! ## Words in the other order of digits -/

section Order
variable {b : ℕ} {ws : List ℕ}

lemma sum_map_swap_modEq (hb : 0 < b) (hws : ∀ w ∈ ws, w < b * b) :
    (ws.map (swap b)).sum ≡ b * ws.sum [MOD b * b - 1] := by
  induction ws with
  | nil => rfl
  | cons w ws ih =>
    have hw : swap b w ≡ b * w [MOD b * b - 1] := by
      rw [swap_eq_rep hb (hws w List.mem_cons_self)]
      exact rep_modEq _ _
    rw [List.map_cons, List.sum_cons, List.sum_cons, Nat.mul_add]
    exact hw.add (ih fun v hv => hws v (List.mem_cons_of_mem w hv))

lemma sum_map_swap_eq_zero_iff (hb : 0 < b) (ws : List ℕ) :
    (ws.map (swap b)).sum = 0 ↔ ws.sum = 0 := by
  induction ws with
  | nil => rfl
  | cons w ws ih =>
    rw [List.map_cons, List.sum_cons, List.sum_cons, Nat.add_eq_zero_iff, Nat.add_eq_zero_iff,
      swap_eq_zero_iff hb, ih]

/-- A sum of words in the other order is the sum in the other order. -/
theorem onesSum_map_swap (hb : 1 < b) (hws : ∀ w ∈ ws, w < b * b) :
    onesSum (b * b - 1) (ws.map (swap b)) = swap b (onesSum (b * b - 1) ws) := by
  have hbase : 1 < b * b := Nat.one_lt_mul_iff.mpr ⟨by omega, by omega, Or.inl hb⟩
  have hm : 0 < b * b - 1 := by omega
  have hswapped : ∀ v ∈ ws.map (swap b), v ≤ b * b - 1 := by
    intro v hv
    obtain ⟨w, hw, rfl⟩ := List.mem_map.mp hv
    exact swap_le (hws w hw)
  have hle : ∀ w ∈ ws, w ≤ b * b - 1 := fun w hw => Nat.le_sub_one_of_lt (hws w hw)
  have hrep := rep_le hm ws.sum
  rw [onesSum_eq hm hswapped, onesSum_eq hm hle, swap_eq_rep (by omega) (by omega)]
  apply rep_congr
  · have hsum := sum_map_swap_modEq (by omega) hws
    exact hsum.trans ((rep_modEq _ _).mul_left b).symm
  · rw [sum_map_swap_eq_zero_iff (by omega), Nat.mul_eq_zero, or_iff_right (by omega),
      rep_eq_zero_iff]

end Order

end IpncRdk.Lib.OnesComplement
