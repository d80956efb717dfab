import Mathlib.Data.Int.Lemmas
import Mathlib.Data.List.Basic
import Mathlib.Tactic.Linarith

/-!
# The C behaviour the models share

* `Fault` — what stops a C function short of a defined result, and how results compose;
* `wrap32` — 32-bit `int` arithmetic of the target;
* `window` and `memcpy` — a byte area read and written by index.
-/

namespace IpncRdk.Lib

/-- What stops a C function short of a defined result. -/
inductive Fault
  | outOfBounds
  | nullDeref
  | diverges
  deriving DecidableEq, Repr

section Except
variable {α β : Type}

lemma ok_bind (a : α) (f : α → Except Fault β) : (Except.ok a >>= f) = f a := rfl

/-- A computation in two parts comes to a result when both do. -/
lemma bind_eq_ok_iff {x : Except Fault α} {f : α → Except Fault β} {b : β} :
    (x >>= f) = .ok b ↔ ∃ a, x = .ok a ∧ f a = .ok b := by
  constructor
  · intro h
    cases x with
    | error fault => cases h
    | ok a => exact ⟨a, rfl, h⟩
  · rintro ⟨a, rfl, h⟩
    exact h

lemma map_eq_ok_iff {x : Except Fault α} {f : α → β} {b : β} :
    x.map f = .ok b ↔ ∃ a, x = .ok a ∧ f a = b := by
  cases x with
  | error fault => exact iff_of_false (fun h => by cases h) (fun ⟨_, h, _⟩ => by cases h)
  | ok a =>
    constructor
    · intro h
      exact ⟨a, rfl, Except.ok.inj h⟩
    · rintro ⟨a', ha, rfl⟩
      rw [Except.ok.inj ha]
      rfl

lemma toOption_eq_some_iff {x : Except Fault α} {a : α} : x.toOption = some a ↔ x = .ok a := by
  cases x with
  | error fault => simp [Except.toOption]
  | ok b => simp [Except.toOption]

end Except

/-- The `int` a sum or a difference is stored as. -/
def wrap32 (x : ℤ) : ℤ := x.bmod (2 ^ 32)

lemma wrap32_of_bounds {x : ℤ} (h₁ : -2 ^ 31 ≤ x) (h₂ : x < 2 ^ 31) : wrap32 x = x := by
  unfold wrap32
  rw [Int.bmod_eq_of_le] <;> norm_num at * <;> omega

lemma wrap32_zero : wrap32 0 = 0 := wrap32_of_bounds (by decide) (by decide)

/-- A sum is stored the same whether its first part was stored before or not. -/
lemma wrap32_wrap32_add (x y : ℤ) : wrap32 (wrap32 x + y) = wrap32 (x + y) := Int.bmod_add_bmod

/-- What leaves the range at its upper end comes back at the lower one. -/
lemma wrap32_of_ge {x : ℤ} (h₁ : 2 ^ 31 ≤ x) (h₂ : x < 2 ^ 31 + 2 ^ 32) :
    wrap32 x = x - 2 ^ 32 := by
  unfold wrap32
  rw [Int.bmod_def]
  norm_num at *
  omega

/-- What leaves the range at its lower end comes back at the upper one. -/
lemma wrap32_of_lt {x : ℤ} (h₁ : x < -2 ^ 31) (h₂ : -2 ^ 31 - 2 ^ 32 ≤ x) :
    wrap32 x = x + 2 ^ 32 := by
  unfold wrap32
  rw [Int.bmod_def]
  norm_num at *
  omega

/-- A sum of two non-negative ints that leaves the range turns negative. -/
lemma wrap32_of_overflow {x : ℤ} (h₁ : 2 ^ 31 ≤ x) (h₂ : x < 2 ^ 32) : wrap32 x < 0 := by
  rw [wrap32_of_ge h₁ (by omega)]
  omega

lemma wrap32_lo (x : ℤ) : -2 ^ 31 ≤ wrap32 x := by
  have := Int.le_bmod (x := x) (m := 2 ^ 32) (by decide)
  unfold wrap32
  norm_num at *
  omega

lemma wrap32_hi (x : ℤ) : wrap32 x < 2 ^ 31 := by
  have := Int.bmod_lt (x := x) (m := 2 ^ 32) (by decide)
  unfold wrap32
  norm_num at *
  omega

lemma wrap32_le {x : ℤ} (h : -2 ^ 31 ≤ x) : wrap32 x ≤ x := by
  rcases lt_or_ge x (2 ^ 31) with hlt | hge
  · rw [wrap32_of_bounds h hlt]
  · exact (wrap32_hi x).le.trans hge

lemma wrap32_eq_zero {x : ℤ} (hlo : -2 ^ 32 < x) (hhi : x < 2 ^ 32) : wrap32 x = 0 ↔ x = 0 := by
  unfold wrap32
  rw [Int.bmod_def]
  norm_num at *
  omega

/-- A sum beyond the range of an `int` is stored as something else. -/
lemma wrap32_eq_self {x : ℤ} : wrap32 x = x ↔ -2 ^ 31 ≤ x ∧ x < 2 ^ 31 := by
  constructor
  · intro h
    exact ⟨h ▸ wrap32_lo x, h ▸ wrap32_hi x⟩
  · rintro ⟨hlo, hhi⟩
    exact wrap32_of_bounds hlo hhi

/-! ## Byte areas -/

/-- The `n` bytes of an area from index `r` on. -/
def window (data : ℕ → UInt8) (r n : ℕ) : List UInt8 :=
  (List.range n).map fun k => data (r + k)

/-- The area after `memcpy` of `src` to index `w`. -/
def memcpy (data : ℕ → UInt8) (w : ℕ) (src : List UInt8) : ℕ → UInt8 := fun i =>
  if w ≤ i then (src[i - w]?).getD (data i) else data i

@[simp] lemma length_window (data : ℕ → UInt8) (r n : ℕ) : (window data r n).length = n := by
  simp [window]

@[simp] lemma window_zero (data : ℕ → UInt8) (r : ℕ) : window data r 0 = [] := rfl

/-- A window read in two parts. -/
lemma window_add (data : ℕ → UInt8) (r k n : ℕ) :
    window data r (k + n) = window data r k ++ window data (r + k) n := by
  unfold window
  rw [List.range_add, List.map_append, List.map_map]
  congr 1
  exact List.map_congr_left fun i _ => by simp [Nat.add_assoc]

lemma take_window (data : ℕ → UInt8) (r : ℕ) {k n : ℕ} (h : n ≤ k) :
    (window data r k).take n = window data r n := by
  unfold window
  rw [← List.map_take, List.take_range, min_eq_left h]

/-- A byte of a copied block. -/
lemma memcpy_add (data : ℕ → UInt8) (w k : ℕ) (src : List UInt8) :
    memcpy data w src (w + k) = (src[k]?).getD (data (w + k)) := by
  unfold memcpy
  rw [if_pos (Nat.le_add_right w k), Nat.add_sub_cancel_left]

/-- A byte beside a copied block. -/
lemma memcpy_of_outside {data : ℕ → UInt8} {w i : ℕ} {src : List UInt8}
    (h : i < w ∨ w + src.length ≤ i) : memcpy data w src i = data i := by
  unfold memcpy
  split_ifs with hi
  · rw [List.getElem?_eq_none (by omega), Option.getD_none]
  · rfl

@[simp] lemma memcpy_nil (data : ℕ → UInt8) (w : ℕ) : memcpy data w [] = data := by
  funext i
  exact memcpy_of_outside (by simp only [List.length_nil]; omega)

/-- What lies below a copied block is untouched. -/
lemma window_memcpy_before (data : ℕ → UInt8) {r n w : ℕ} (src : List UInt8) (h : r + n ≤ w) :
    window (memcpy data w src) r n = window data r n := by
  unfold window
  refine List.map_congr_left fun k hk => ?_
  have hk' : k < n := List.mem_range.mp hk
  unfold memcpy
  rw [if_neg (by omega)]

/-- A copied block is read back. -/
lemma window_memcpy_self (data : ℕ → UInt8) (w : ℕ) (src : List UInt8) :
    window (memcpy data w src) w src.length = src := by
  apply List.ext_getElem (by simp)
  intro k h₁ h₂
  unfold window memcpy
  simp [h₂]

/-- A window that ends where a copied block begins grows by that block. -/
lemma window_memcpy (data : ℕ → UInt8) {r w : ℕ} (src : List UInt8) (h : r ≤ w) :
    window (memcpy data w src) r (w - r + src.length) = window data r (w - r) ++ src := by
  rw [window_add, window_memcpy_before data src (by omega), Nat.add_sub_cancel' h,
    window_memcpy_self]

end IpncRdk.Lib
