import Mathlib.Data.Nat.Bitwise
import Mathlib.Data.Nat.Log
import Mathlib.Data.Nat.Size

/-!
# The next power of two

Shifting a number to the right and joining it with itself, each time by twice as many bits, sets
all bits below its highest one; one more is the next power of two.
-/

namespace IpncRdk.Lib

/-- The bits of `y` are those of `x` and the `n - 1` bits below each of them. -/
def Smeared (x n y : ℕ) : Prop := ∀ i, y.testBit i = true ↔ ∃ j < n, x.testBit (i + j) = true

namespace Smeared

variable {x n y : ℕ}

lemma one (x : ℕ) : Smeared x 1 x := by
  intro i
  constructor
  · exact fun hbit => ⟨0, Nat.one_pos, hbit⟩
  · rintro ⟨j, hj, hbit⟩
    rwa [Nat.lt_one_iff.mp hj] at hbit

/-- A shift by `n` joins the bits up to `n` with those up to `2 * n`. -/
lemma double (h : Smeared x n y) : Smeared x (2 * n) (y ||| y >>> n) := by
  intro i
  rw [Nat.testBit_or, Nat.testBit_shiftRight, Bool.or_eq_true, h i, h (n + i)]
  constructor
  · rintro (⟨j, hj, hbit⟩ | ⟨j, hj, hbit⟩)
    · exact ⟨j, by omega, hbit⟩
    · exact ⟨n + j, by omega, by rwa [show i + (n + j) = n + i + j by omega]⟩
  · rintro ⟨j, hj, hbit⟩
    rcases lt_or_ge j n with hlt | hge
    · exact .inl ⟨j, hlt, hbit⟩
    · exact .inr ⟨j - n, by omega, by rwa [show n + i + (j - n) = i + j by omega]⟩

end Smeared

end IpncRdk.Lib
