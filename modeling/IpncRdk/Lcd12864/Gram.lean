import Mathlib.Data.BitVec
import Mathlib.Data.Fintype.Basic
import Mathlib.Logic.Function.Basic
import Mathlib.Tactic.Linarith

/-!
# `LCD12864.c`: the frame buffer of the monochrome screen

A byte of the frame buffer has eight pixels of a column, one below the other. The functions for a
point take a `u8` for each coordinate, and leave out what is not on the screen.

* `Gram.pixel` — the pixel at a position;
* `setPoint` — a point drawn or cleared, and `pixel_setPoint`, what it does to the pixels;
* `setPoints` — points in their order, each with its colour;
* `pixel_unchanged_iff` — which pixels they leave alone.
-/

namespace IpncRdk.Lcd12864

/-- The memory from `pHandle->pFramebuf` on. -/
abbrev Gram : Type := ℕ → BitVec 8

/-- A `u16`. -/
abbrev U16 : Type := Fin (2 ^ 16)

/-- A `u8`. -/
abbrev U8 : Type := Fin (2 ^ 8)

/-- The `u8` that a number is passed as. -/
def u8 (n : ℤ) : U8 := ⟨(n % 2 ^ 8).toNat, by omega⟩

/-- The index of the byte of a pixel. -/
def pixelByte (x y : ℕ) : ℕ := y / 8 * 128 + x

/-- Whether the pixel of a column and a row is set. -/
def Gram.pixel (g : Gram) (x y : ℕ) : Bool := (g (pixelByte x y)).getLsbD (y % 8)

/-- A byte with its bits of a mask set or cleared. -/
def mark (on : Bool) (b mask : BitVec 8) : BitVec 8 := if on then b ||| mask else b &&& ~~~mask

/-- A point drawn, where `on`, or cleared. -/
def setPoint (on : Bool) (g : Gram) (x y : U8) : Gram :=
  if x.val > 127 ∨ y.val > 63 then g
  else
    let i := pixelByte x.val y.val
    Function.update g i (mark on (g i) (1#8 <<< (y.val % 8)))

/-- `LCD12864_GRAM_DrawPoint` -/
def drawPoint (g : Gram) (x y : U8) : Gram := setPoint true g x y

/-- `LCD12864_GRAM_ClearPoint` -/
def clearPoint (g : Gram) (x y : U8) : Gram := setPoint false g x y

/-! ## Points -/

section Points
variable {g : Gram} {on : Bool} {x y : ℕ}

lemma getLsbD_mark (on : Bool) (b : BitVec 8) {i j : ℕ} (hi : i < 8) :
    (mark on b (1#8 <<< i)).getLsbD j = if i = j then on else b.getLsbD j := by
  have hmask : (1#8 <<< i).getLsbD j = decide (i = j) := by
    rw [← BitVec.twoPow_eq, BitVec.getLsbD_twoPow, decide_eq_true hi, Bool.true_and]
  unfold mark
  cases on with
  | true =>
    rw [if_pos rfl, BitVec.getLsbD_or, hmask]
    by_cases hij : i = j <;> simp [hij]
  | false =>
    rw [if_neg Bool.false_ne_true, BitVec.getLsbD_and, BitVec.getLsbD_not, hmask]
    rcases lt_or_ge j 8 with hj | hj
    · by_cases hij : i = j <;> simp [hij, hj]
    · rw [if_neg (by omega), BitVec.getLsbD_of_ge b j hj, Bool.false_and]

/-- The pixels of the screen have a bit each. -/
lemma pixelByte_inj {x' y' : ℕ} (hx : x < 128) (hx' : x' < 128) :
    pixelByte x y = pixelByte x' y' ∧ y % 8 = y' % 8 ↔ x = x' ∧ y = y' := by
  unfold pixelByte
  omega

/-- A point on the screen changes its pixel, and one beside it none. -/
lemma pixel_setPoint (on : Bool) (g : Gram) (px py : U8) (hx : x < 128) (hy : y < 64) :
    (setPoint on g px py).pixel x y = if px.val = x ∧ py.val = y then on else g.pixel x y := by
  unfold setPoint
  by_cases hout : px.val > 127 ∨ py.val > 63
  · rw [if_pos hout, if_neg (by omega)]
  rw [if_neg hout]
  have hinj : pixelByte x y = pixelByte px.val py.val ∧ y % 8 = py.val % 8 ↔
      x = px.val ∧ y = py.val := pixelByte_inj hx (by omega)
  dsimp only
  unfold Gram.pixel
  by_cases hbyte : pixelByte x y = pixelByte px.val py.val
  · rw [hbyte, Function.update_self, getLsbD_mark on _ (by omega)]
    exact if_congr (by omega) rfl rfl
  · rw [Function.update_of_ne hbyte, if_neg]
    rintro ⟨rfl, rfl⟩
    exact hbyte rfl

/-- No point reaches a byte behind the buffer. -/
lemma setPoint_outside (on : Bool) (g : Gram) (px py : U8) {i : ℕ} (hi : 1024 ≤ i) :
    setPoint on g px py i = g i := by
  unfold setPoint
  split_ifs with hout
  · rfl
  · refine Function.update_of_ne ?_ _ _
    unfold pixelByte
    omega

/-! ## Points in their order -/

/-- A point, and whether it is drawn or cleared. -/
structure Dot where
  x : U8
  y : U8
  on : Bool
  deriving DecidableEq, Repr

def setPoints (g : Gram) (dots : List Dot) : Gram :=
  dots.foldl (fun g d => setPoint d.on g d.x d.y) g

/-- The dot is at a position. -/
def Dot.At (d : Dot) (x y : ℕ) : Prop := d.x.val = x ∧ d.y.val = y

lemma setPoints_append (g : Gram) (dots dots' : List Dot) :
    setPoints g (dots ++ dots') = setPoints (setPoints g dots) dots' := List.foldl_append

/-- No sequence of points reaches a byte behind the buffer. -/
lemma setPoints_outside (g : Gram) (dots : List Dot) {i : ℕ} (hi : 1024 ≤ i) :
    setPoints g dots i = g i := by
  induction dots generalizing g with
  | nil => rfl
  | cons d dots ih => exact (ih _).trans (setPoint_outside d.on g d.x d.y hi)

/-- A pixel without a dot on it stays as it is. -/
lemma pixel_setPoints_of_not_at {dots : List Dot} (hx : x < 128) (hy : y < 64)
    (h : ∀ d ∈ dots, ¬ d.At x y) : (setPoints g dots).pixel x y = g.pixel x y := by
  induction dots generalizing g with
  | nil => rfl
  | cons d dots ih =>
    refine (ih fun d' hd' => h d' (List.mem_cons_of_mem d hd')).trans ?_
    rw [pixel_setPoint d.on g d.x d.y hx hy]
    exact if_neg (h d List.mem_cons_self)

/-- The last dot of a pixel hides what was there before. -/
lemma exists_pixel_setPoints {dots : List Dot} (hx : x < 128) (hy : y < 64)
    (hat : ∃ d ∈ dots, d.At x y) :
    ∃ d ∈ dots, d.At x y ∧ ∀ g, (setPoints g dots).pixel x y = d.on := by
  induction dots with
  | nil => simp at hat
  | cons d dots ih =>
    by_cases hlater : ∃ d' ∈ dots, d'.At x y
    · obtain ⟨d', hd', hat', hpixel⟩ := ih hlater
      exact ⟨d', List.mem_cons_of_mem d hd', hat', fun g => hpixel _⟩
    · push Not at hlater
      obtain ⟨d', hd', hat'⟩ := hat
      have hd : d.At x y := by
        rcases List.mem_cons.mp hd' with rfl | hmem
        · exact hat'
        · exact absurd hat' (hlater d' hmem)
      refine ⟨d, List.mem_cons_self, hd, fun g => ?_⟩
      refine (pixel_setPoints_of_not_at hx hy hlater).trans ?_
      rw [pixel_setPoint d.on g d.x d.y hx hy]
      exact if_pos hd

/-- A pixel has the colour of its dots where they have the same. -/
lemma pixel_setPoints_of_at {dots : List Dot} (hx : x < 128) (hy : y < 64)
    (hat : ∃ d ∈ dots, d.At x y) (hon : ∀ d ∈ dots, d.At x y → d.on = on) :
    (setPoints g dots).pixel x y = on := by
  obtain ⟨d, hd, hat', hpixel⟩ := exists_pixel_setPoints hx hy hat
  rw [hpixel, hon d hd hat']

/-- A screen in one colour. -/
def blank (on : Bool) : Gram := fun _ => if on then BitVec.allOnes 8 else 0

lemma pixel_blank (on : Bool) (x y : ℕ) : (blank on).pixel x y = on := by
  unfold Gram.pixel blank
  cases on with
  | true =>
    rw [if_pos rfl, BitVec.getLsbD_allOnes]
    exact decide_eq_true (Nat.mod_lt y (by decide))
  | false => exact BitVec.getLsbD_zero

/-- A sequence of points leaves a pixel alone on every screen exactly if it has no dot there. -/
lemma pixel_unchanged_iff {dots : List Dot} (hx : x < 128) (hy : y < 64) :
    (∀ g, (setPoints g dots).pixel x y = g.pixel x y) ↔ ∀ d ∈ dots, ¬ d.At x y := by
  constructor
  · intro h d hd hat
    obtain ⟨d', -, -, hpixel⟩ := exists_pixel_setPoints hx hy ⟨d, hd, hat⟩
    have hflip := h (blank !d'.on)
    rw [hpixel, pixel_blank] at hflip
    exact Bool.self_ne_not d'.on hflip
  · intro h g
    exact pixel_setPoints_of_not_at hx hy h

end Points

end IpncRdk.Lcd12864
