import Mathlib.Data.List.Basic
import Mathlib.Tactic.Linarith

/-!
# `display.c`: the pixels that the drawing routines write

A routine writes pixels of the frame buffer by a linear index that it computes from a position
and its loop counters, without a test of the bounds.

* `guiCleanScreen`, `guiImageDraw`, `guiDrawText` — the writes of a routine in their order;
* `OnScreen` — the pixel meant is on the screen;
* `onScreen_rect_iff`, `onScreen_text_iff` — when all pixels of a rectangle and of a text are.

The colours are left out, and with them the fonts and the picture read.
-/

namespace IpncRdk.Display

/-- `_LCD_WIDTH` -/
abbrev lcdWidth : ℕ := 240

/-- `_LCD_HIGHT` -/
abbrev lcdHight : ℕ := 240

/-- A write: the column and the row of the pixel that is meant, and the index written. -/
structure Write where
  column : ℕ
  row : ℕ
  index : ℕ
  deriving DecidableEq, Repr

/-- `GUICleanScreen` -/
def guiCleanScreen (x y w h : ℕ) : List Write :=
  (List.range h).flatMap fun i => (List.range w).map fun j =>
    ⟨x + j, y + i, i * lcdHight + j + x + y * lcdHight⟩

/-- `GUIImageDraw` -/
def guiImageDraw (x y w h : ℕ) : List Write :=
  (List.range h).flatMap fun i => (List.range w).map fun j =>
    ⟨x + j, y + i, i * lcdWidth + j + x + y * lcdWidth⟩

/-- `FontSizeTypeDef` -/
inductive FontSize
  | big
  | midlle
  | small
  deriving DecidableEq, Repr

/-- `font_charw` -/
def FontSize.charw : FontSize → ℕ
  | .big => 12
  | .midlle => 50
  | .small => 18

/-- `font_charh` -/
def FontSize.charh : FontSize → ℕ
  | .big => 24
  | .midlle => 100
  | .small => 11

/-- The characters that `GUIDrawText` has a glyph for; at any other one it returns. -/
def isGlyph (b : UInt8) : Bool :=
  (97 ≤ b && b ≤ 122) || (65 ≤ b && b ≤ 90) || (48 ≤ b && b ≤ 57) ||
    b ∈ [46, 58, 45, 95, 47, 63, 33, 32, 64, 35]

/-- `GUIDrawText` -/
def guiDrawText (x y : ℕ) (text : List UInt8) (fontSize : FontSize) : List Write :=
  (List.range (text.takeWhile isGlyph).length).flatMap fun k =>
    (List.range fontSize.charh).flatMap fun i => (List.range fontSize.charw).map fun j =>
      ⟨x + k * fontSize.charw + j, y + i,
        x + y * lcdWidth + j + i * lcdWidth + k * fontSize.charw⟩

/-- The pixel is on the screen. -/
def OnScreen (p : Write) : Prop := p.column < lcdWidth ∧ p.row < lcdHight

instance (p : Write) : Decidable (OnScreen p) :=
  inferInstanceAs (Decidable (p.column < lcdWidth ∧ p.row < lcdHight))

/-- The index is that of the pixel that is meant. -/
def Write.Plain (p : Write) : Prop := p.index = p.row * lcdWidth + p.column

/-- A pixel on the screen is written inside the frame buffer. -/
lemma Write.Plain.index_lt {p : Write} (h : p.Plain) (hon : OnScreen p) :
    p.index < lcdWidth * lcdHight := by
  obtain ⟨hcolumn, hrow⟩ := hon
  have hidx : p.index = p.row * 240 + p.column := h
  show p.index < 240 * 240
  have hcolumn' : p.column < 240 := hcolumn
  have hrow' : p.row < 240 := hrow
  omega

/-! ## Rectangles -/

section Rect
variable {x y w h : ℕ}

lemma mem_guiImageDraw {p : Write} :
    p ∈ guiImageDraw x y w h ↔ ∃ i < h, ∃ j < w,
      p = ⟨x + j, y + i, i * lcdWidth + j + x + y * lcdWidth⟩ := by
  unfold guiImageDraw
  simp only [List.mem_flatMap, List.mem_map, List.mem_range, eq_comm (a := p)]

/-- Screen and picture routine write the same pixels: the screen is as wide as it is high. -/
lemma guiCleanScreen_eq (x y w h : ℕ) : guiCleanScreen x y w h = guiImageDraw x y w h := rfl

lemma plain_guiImageDraw {p : Write} (hp : p ∈ guiImageDraw x y w h) : p.Plain := by
  obtain ⟨i, -, j, -, rfl⟩ := mem_guiImageDraw.mp hp
  show i * 240 + j + x + y * 240 = (y + i) * 240 + (x + j)
  omega

/-- A rectangle with any pixel at all is on the screen exactly if its far corner is. -/
lemma onScreen_rect_iff (hw : 0 < w) (hh : 0 < h) :
    (∀ p ∈ guiImageDraw x y w h, OnScreen p) ↔ x + w ≤ lcdWidth ∧ y + h ≤ lcdHight := by
  constructor
  · intro hall
    have hcorner := hall _ (mem_guiImageDraw.mpr ⟨h - 1, by omega, w - 1, by omega, rfl⟩)
    obtain ⟨hcolumn, hrow⟩ := hcorner
    have hcolumn' : x + (w - 1) < lcdWidth := hcolumn
    have hrow' : y + (h - 1) < lcdHight := hrow
    omega
  · rintro ⟨hx, hy⟩ p hp
    obtain ⟨i, hi, j, hj, rfl⟩ := mem_guiImageDraw.mp hp
    show x + j < lcdWidth ∧ y + i < lcdHight
    omega

end Rect

/-! ## Texts -/

section Text
variable {x y : ℕ} {text : List UInt8} {fontSize : FontSize}

lemma mem_guiDrawText {p : Write} :
    p ∈ guiDrawText x y text fontSize ↔
      ∃ k < (text.takeWhile isGlyph).length, ∃ i < fontSize.charh, ∃ j < fontSize.charw,
        p = ⟨x + k * fontSize.charw + j, y + i,
          x + y * lcdWidth + j + i * lcdWidth + k * fontSize.charw⟩ := by
  unfold guiDrawText
  simp only [List.mem_flatMap, List.mem_map, List.mem_range, eq_comm (a := p)]

lemma plain_guiDrawText {p : Write} (hp : p ∈ guiDrawText x y text fontSize) : p.Plain := by
  obtain ⟨k, -, i, -, j, -, rfl⟩ := mem_guiDrawText.mp hp
  show x + y * 240 + j + i * 240 + k * fontSize.charw = (y + i) * 240 + (x + k * fontSize.charw + j)
  omega

/-- A text is on the screen exactly if nothing of it is drawn, or the far corner of its last glyph
is on the screen. -/
lemma onScreen_text_iff :
    (∀ p ∈ guiDrawText x y text fontSize, OnScreen p) ↔
      (text.takeWhile isGlyph).length = 0 ∨
        (x + (text.takeWhile isGlyph).length * fontSize.charw ≤ lcdWidth ∧
          y + fontSize.charh ≤ lcdHight) := by
  have hw : 0 < fontSize.charw := by cases fontSize <;> decide
  have hh : 0 < fontSize.charh := by cases fontSize <;> decide
  generalize hn : (text.takeWhile isGlyph).length = n
  constructor
  · intro hall
    by_cases hzero : n = 0
    · exact .inl hzero
    obtain ⟨m, rfl⟩ := Nat.exists_eq_succ_of_ne_zero hzero
    obtain ⟨hcolumn, hrow⟩ := hall _ (mem_guiDrawText.mpr
      ⟨m, by omega, fontSize.charh - 1, by omega, fontSize.charw - 1, by omega, rfl⟩)
    have hcolumn' : x + m * fontSize.charw + (fontSize.charw - 1) < lcdWidth := hcolumn
    have hrow' : y + (fontSize.charh - 1) < lcdHight := hrow
    have hlast : m.succ * fontSize.charw = m * fontSize.charw + fontSize.charw :=
      Nat.succ_mul m fontSize.charw
    exact .inr ⟨by omega, by omega⟩
  · rintro hfits p hp
    obtain ⟨k, hk, i, hi, j, hj, rfl⟩ := mem_guiDrawText.mp hp
    rw [hn] at hk
    rcases hfits with hzero | ⟨hx, hy⟩
    · omega
    have hle : (k + 1) * fontSize.charw ≤ n * fontSize.charw := Nat.mul_le_mul_right _ hk
    have hnext : (k + 1) * fontSize.charw = k * fontSize.charw + fontSize.charw :=
      Nat.succ_mul k fontSize.charw
    show x + k * fontSize.charw + j < lcdWidth ∧ y + i < lcdHight
    omega

/-- A text whose whole length has room is on the screen, whatever its glyphs are. -/
lemma onScreen_of_length (hx : x + text.length * fontSize.charw ≤ lcdWidth)
    (hy : y + fontSize.charh ≤ lcdHight) : ∀ p ∈ guiDrawText x y text fontSize, OnScreen p := by
  refine onScreen_text_iff.mpr (.inr ⟨?_, hy⟩)
  have hle : (text.takeWhile isGlyph).length * fontSize.charw ≤ text.length * fontSize.charw :=
    Nat.mul_le_mul_right _ (List.takeWhile_sublist isGlyph).length_le
  omega

end Text

end IpncRdk.Display
