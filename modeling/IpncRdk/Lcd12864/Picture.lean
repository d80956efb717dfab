import IpncRdk.Lcd12864.Gram
import IpncRdk.Lib.Stores

/-!
# Showing a picture

A picture has its bytes page by page. `LCD12864_GRAM_ShowPic` takes a width of 128 for one of 127,
and then reads its bytes in rows of 127, too.

* `showPic` — the frame buffer after a picture;
* `Shown` — the picture is in its place, and all else is as it was;
* `shown_iff` — the pictures of less than 128 columns, and those that look the same;
* `shown_forall_iff` — the sizes that are right for every picture.
-/

namespace IpncRdk.Lcd12864

open Lib

/-- A byte of a picture, complemented for `isReverse`. -/
def picByte (isReverse : Bool) (b : BitVec 8) : BitVec 8 := if isReverse then ~~~b else b

/-- `LCD12864_GRAM_ShowPic`, with the memory from `data` on. -/
def showPic (g : Gram) (x y w h : U8) (data : ℕ → BitVec 8) (isReverse : Bool) : Gram :=
  let w := if w.val > 127 then 127 else w.val
  let y := y.val / 8
  let h := h.val / 8
  (List.range h).foldl (fun g (i : ℕ) => (List.range w).foldl (fun g (j : ℕ) =>
    Function.update g ((i + y) * 128 + x.val + j) (picByte isReverse (data (i * w + j)))) g) g

/-! ## The property -/

/-- A place on the screen, from one page to another. -/
structure Placement where
  x : U8
  y : U8
  w : U8
  h : U8
  x_le : x.val + w.val ≤ 128
  y_le : y.val + h.val ≤ 64
  y_dvd : 8 ∣ y.val
  h_dvd : 8 ∣ h.val

/-- The index of the byte in a page and a column of the place. -/
def Placement.index (p : Placement) (i j : ℕ) : ℕ := (i + p.y.val / 8) * 128 + p.x.val + j

/-- The bytes of the place are those of the picture, and all others are as they were. -/
structure Shown (p : Placement) (data : ℕ → BitVec 8) (isReverse : Bool) (g g' : Gram) :
    Prop where
  picture : ∀ i < p.h.val / 8, ∀ j < p.w.val,
    g' (p.index i j) = picByte isReverse (data (i * p.w.val + j))
  others : ∀ k, (∀ i < p.h.val / 8, ∀ j < p.w.val, p.index i j ≠ k) → g' k = g k

/-- A picture of 128 columns that looks the same where its rows are read as 127 columns, on a screen
that shows its last column already. -/
def Coincides (p : Placement) (data : ℕ → BitVec 8) (isReverse : Bool) (g : Gram) : Prop :=
  ∀ i < p.h.val / 8, (∀ j < 127, data (i * 127 + j) = data (i * 128 + j)) ∧
    g (p.index i 127) = picByte isReverse (data (i * 128 + 127))

/-! ## The loop -/

section Loop
variable {p : Placement} {data : ℕ → BitVec 8} {isReverse : Bool} {g : Gram} {w i i' j j' : ℕ}

lemma picByte_inj {b b' : BitVec 8} : picByte isReverse b = picByte isReverse b' ↔ b = b' := by
  unfold picByte
  cases isReverse with
  | true =>
    rw [if_pos rfl, if_pos rfl]
    exact BitVec.not_inj
  | false => exact Iff.rfl

/-- Each byte has one page and one column. -/
lemma index_inj (hw : p.x.val + w ≤ 128) (hj : j < w) (hj' : j' < w)
    (heq : p.index i j = p.index i' j') : i = i' ∧ j = j' := by
  unfold Placement.index at heq
  omega

/-- The width that the loop works with. -/
def Placement.width (p : Placement) : ℕ := if p.w.val > 127 then 127 else p.w.val

lemma Placement.width_le (p : Placement) : p.width ≤ p.w.val := by
  unfold Placement.width
  split_ifs <;> omega

lemma showPic_eq (p : Placement) (data : ℕ → BitVec 8) (isReverse : Bool) (g : Gram) :
    showPic g p.x p.y p.w p.h data isReverse = stores g (block p.index
      (fun i j => picByte isReverse (data (i * p.width + j))) (p.h.val / 8) p.width) :=
  foldl_block _ _ _ _ _

/-- What the loop stores. -/
lemma showPic_index (hi : i < p.h.val / 8) (hj : j < p.width) :
    showPic g p.x p.y p.w p.h data isReverse (p.index i j) =
      picByte isReverse (data (i * p.width + j)) := by
  have hfits := p.x_le
  have hwidth := p.width_le
  rw [showPic_eq]
  exact stores_block (fun i _ j hj i' _ j' hj' => index_inj (by omega) hj hj') hi hj

lemma showPic_of_ne {k : ℕ} (h : ∀ i < p.h.val / 8, ∀ j < p.width, p.index i j ≠ k) :
    showPic g p.x p.y p.w p.h data isReverse k = g k := by
  rw [showPic_eq]
  exact stores_block_of_ne h

/-- The last of 128 columns is not stored. -/
lemma showPic_last (hw : p.w.val = 128) (hwidth : p.width = 127) :
    showPic g p.x p.y p.w p.h data isReverse (p.index i 127) = g (p.index i 127) := by
  have hfits := p.x_le
  refine showPic_of_ne fun i' _ j hj heq => ?_
  obtain ⟨-, hlast⟩ := index_inj (show p.x.val + 128 ≤ 128 by omega) (by omega) (by omega) heq
  omega

/-- A picture less than 128 wide is shown. -/
lemma shown_of_narrow (h : p.w.val ≤ 127) :
    Shown p data isReverse g (showPic g p.x p.y p.w p.h data isReverse) := by
  have hwidth : p.width = p.w.val := if_neg (not_lt.mpr h)
  refine ⟨fun i hi j hj => ?_, fun k hk => ?_⟩
  · rw [showPic_index hi (by omega), hwidth]
  · exact showPic_of_ne fun i hi j hj => hk i hi j (by omega)

/-- One that is 128 wide is shown where it comes to the same. -/
lemma shown_wide_iff (h : 127 < p.w.val) :
    Shown p data isReverse g (showPic g p.x p.y p.w p.h data isReverse) ↔
      Coincides p data isReverse g := by
  have hfits := p.x_le
  have hw : p.w.val = 128 := by omega
  have hwidth : p.width = 127 := if_pos h
  constructor
  · intro hshown i hi
    refine ⟨fun j hj => ?_, ?_⟩
    · have hpic := hshown.picture i hi j (by omega)
      rw [showPic_index hi (by omega), picByte_inj, hw, hwidth] at hpic
      exact hpic
    · have hlast := hshown.picture i hi 127 (by omega)
      rw [showPic_last hw hwidth, hw] at hlast
      exact hlast
  · intro hsame
    refine ⟨fun i hi j hj => ?_, fun k hk => ?_⟩
    · obtain ⟨hbytes, hlast⟩ := hsame i hi
      rcases Nat.lt_or_ge j 127 with hin | hout
      · rw [showPic_index hi (by omega), hw, hwidth, hbytes j hin]
      · obtain rfl : j = 127 := by omega
        rw [showPic_last hw hwidth, hw, hlast]
    · exact showPic_of_ne fun i hi j hj => hk i hi j (by omega)

/-- **Exactly which pictures are shown as they are.** For every frame buffer, every picture and
every place. -/
theorem shown_iff (p : Placement) (data : ℕ → BitVec 8) (isReverse : Bool) (g : Gram) :
    Shown p data isReverse g (showPic g p.x p.y p.w p.h data isReverse) ↔
      p.w.val ≤ 127 ∨ Coincides p data isReverse g := by
  rcases Nat.lt_or_ge 127 p.w.val with hwide | hnarrow
  · rw [shown_wide_iff hwide, or_iff_right (not_le.mpr hwide)]
  · exact iff_of_true (shown_of_narrow hnarrow) (.inl hnarrow)

/-- A full screen of set pixels, on an empty one: the last column stays empty. -/
theorem fullScreen_not_shown :
    ¬ Shown ⟨0, 0, 128, 64, by decide, by decide, by decide, by decide⟩ (fun _ => 0xff) false
      (fun _ => 0) (showPic (fun _ => 0) 0 0 128 64 (fun _ => 0xff) false) := by
  intro h
  have hcoincides := (shown_wide_iff
    (p := ⟨0, 0, 128, 64, by decide, by decide, by decide, by decide⟩) (by decide)).mp h
  exact absurd (hcoincides 0 (by decide)).2 (by decide)

/-- **The sizes that are right for every picture and on every frame buffer.** -/
theorem shown_forall_iff (p : Placement) (isReverse : Bool) :
    (∀ data g, Shown p data isReverse g (showPic g p.x p.y p.w p.h data isReverse)) ↔
      p.w.val ≤ 127 ∨ p.h.val = 0 := by
  rcases Nat.lt_or_ge 127 p.w.val with hwide | hnarrow
  · simp only [shown_wide_iff hwide]
    rw [or_iff_right (not_le.mpr hwide)]
    have hdvd := p.h_dvd
    constructor
    · intro h
      by_contra hpages
      -- a blank picture, on a screen that is not
      obtain ⟨-, hlast⟩ := h (fun _ => 0) (fun _ => ~~~picByte isReverse 0) 0 (by omega)
      dsimp only at hlast
      cases isReverse <;> exact absurd hlast (by decide)
    · intro hnone data g i hi
      omega
  · exact iff_of_true (fun data g => shown_of_narrow hnarrow) (.inl hnarrow)

end Loop

end IpncRdk.Lcd12864
