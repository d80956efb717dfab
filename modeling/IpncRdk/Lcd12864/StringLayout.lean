import Mathlib.Data.List.Pairwise
import IpncRdk.Lcd12864.ShowString

/-!
# The layout of a string

A string should be shown in cells, line by line. `LCD12864_GRAM_ShowString` moves down by the
height in the modes of 12 rows only, in the others by 0. It begins a new line once the column is
beyond 119, which is early enough for columns that are multiples of 8. And rows from 256 on come
back at the top.

* `layout` — the cells of a string;
* `ShownInCells` — the string is shown in its cells, and nowhere else;
* `LaidOut`, `Quiet` — the positions that are right, and the characters below the screen that show
  nothing on it;
* `shownInCells_iff` — exactly these strings are shown in their cells.
-/

namespace IpncRdk.Lcd12864

/-! ## Cells -/

/-- The cell of a character: its upper left pixel. -/
structure Cell where
  x : ℕ
  y : ℕ
  char : UInt8
  deriving DecidableEq, Repr

/-- The cells of a string from a position on, with a new line where the next cell is not whole. -/
def layout (height x y : ℕ) : List UInt8 → List Cell
  | [] => []
  | char :: str =>
    ⟨x, y, char⟩ ::
      if x + 8 + 8 ≤ 128 then layout height (x + 8) y str else layout height 0 (y + height) str

/-- The pixel is in the cell. -/
def Cell.Has (c : Cell) (height x y : ℕ) : Prop :=
  (c.x ≤ x ∧ x < c.x + 8) ∧ c.y ≤ y ∧ y < c.y + height

/-- The call that shows a character in its cell. -/
def Cell.call (c : Cell) : CharCall := ⟨u8 c.x, u8 c.y, c.char⟩

/-- A string of printable characters, and a position that leaves room for the first. -/
structure Text (mode : FontMode) where
  x : ℕ
  y : ℕ
  str : List UInt8
  x_le : x ≤ 120
  y_le : y + mode.height ≤ 64
  printable : ∀ char ∈ str, 32 ≤ char ∧ char ≤ 126

namespace Text
variable {mode : FontMode}

def cells (text : Text mode) : List Cell := layout mode.height text.x text.y text.str

def shown (text : Text mode) (fonts : Fonts) (g : Gram) : Gram :=
  showString fonts mode g text.x text.y text.str

/-- The screen after the first `k` characters. -/
def upTo (text : Text mode) (fonts : Fonts) (g : Gram) (k : ℕ) : Gram :=
  showString fonts mode g text.x text.y (text.str.take k)

end Text

/-! ## The property -/

/-- The bits of the glyph of a printable character. -/
def Fonts.bit (fonts : Fonts) (mode : FontMode) (char : UInt8) (j i : ℕ) : Bool :=
  glyphBit (((fonts.glyph char mode).getD fun _ => 0)) j i

/-- The colour that a character gives to a pixel of its cell, if it gives one. -/
def Cell.colour (c : Cell) (fonts : Fonts) (mode : FontMode) (x y : ℕ) : Option Bool :=
  if mode.Draws (fonts.bit mode c.char (x - c.x) (y - c.y)) then
    some (fonts.bit mode c.char (x - c.x) (y - c.y) ^^ mode.reverse)
  else none

/-- Each character is shown in its cell, the cells have no pixel in common, and what is not in a
cell stays as it is. A character below the screen changes no pixel when it is shown. -/
structure ShownInCells {mode : FontMode} (fonts : Fonts) (text : Text mode) : Prop where
  calls : calls mode text.x text.y text.str = text.cells.map Cell.call
  apart : text.cells.Pairwise fun c c' =>
    ∀ x y, ¬ (c.Has mode.height x y ∧ c'.Has mode.height x y)
  whole : ∀ g, ∀ c ∈ text.cells, ∀ x < 128, ∀ y < 64, c.Has mode.height x y →
    (text.shown fonts g).pixel x y = (c.colour fonts mode x y).getD (g.pixel x y)
  elsewhere : ∀ g, ∀ x < 128, ∀ y < 64, (∀ c ∈ text.cells, ¬ c.Has mode.height x y) →
    (text.shown fonts g).pixel x y = g.pixel x y
  below : ∀ g k c, text.cells[k]? = some c → 64 ≤ c.y → ∀ x < 128, ∀ y < 64,
    (text.upTo fonts g (k + 1)).pixel x y = (text.upTo fonts g k).pixel x y

/-- The string fits into its first line, or it has columns that are multiples of 8 and lines that
are 12 rows apart. -/
def LaidOut {mode : FontMode} (text : Text mode) : Prop :=
  text.x + 8 * text.str.length ≤ 128 ∨ mode.height = 12 ∧ 8 ∣ text.x

/-- Where the rows of a character come back at the top, it gives no colour, or the one that the
character of the cell has given there. -/
def Quiet {mode : FontMode} (fonts : Fonts) (text : Text mode) (c : Cell) : Prop :=
  ∀ j < 8, ∀ i < mode.height, (c.y + i) % 2 ^ 8 < 64 →
    ∀ on, c.colour fonts mode (c.x + j) (c.y + i) = some on →
      ∃ c' ∈ text.cells, c'.y < 64 ∧ c'.Has mode.height (c.x + j) ((c.y + i) % 2 ^ 8) ∧
        c'.colour fonts mode (c.x + j) ((c.y + i) % 2 ^ 8) = some on

/-! ## The positions -/

section Layout
variable {mode : FontMode} {height x y y' : ℕ} {str : List UInt8} {c : Cell}

/-- The cells after the first begin to the right of it, or with a new line. -/
lemma layout_cons (height x y : ℕ) (char : UInt8) (str : List UInt8) : ∃ x' y',
    layout height x y (char :: str) = ⟨x, y, char⟩ :: layout height x' y' str ∧
      (x + 16 ≤ 128 ∧ x' = x + 8 ∧ y' = y ∨ x' = 0 ∧ y' = y + height) := by
  rw [layout]
  split_ifs with hfits
  · exact ⟨x + 8, y, rfl, .inl ⟨hfits, rfl, rfl⟩⟩
  · exact ⟨0, y + height, rfl, .inr ⟨rfl, rfl⟩⟩

/-- What follows is to the right on the same line, or on a later line. -/
lemma layout_after (hc : c ∈ layout height x y str) :
    c.y = y ∧ x ≤ c.x ∨ y + height ≤ c.y := by
  induction str generalizing x y with
  | nil => simp [layout] at hc
  | cons char str ih =>
    obtain ⟨x', y', hcons, hnext⟩ := layout_cons height x y char str
    rw [hcons] at hc
    rcases List.mem_cons.mp hc with rfl | hc
    · exact .inl ⟨rfl, le_rfl⟩
    · have hafter := ih hc
      omega

lemma layout_pairwise : (layout height x y str).Pairwise fun c c' =>
    ∀ x y, ¬ (c.Has height x y ∧ c'.Has height x y) := by
  induction str generalizing x y with
  | nil => exact List.Pairwise.nil
  | cons char str ih =>
    obtain ⟨x', y', hcons, hnext⟩ := layout_cons height x y char str
    rw [hcons, List.pairwise_cons]
    refine ⟨?_, ih⟩
    rintro c' hc' px py ⟨hhas, hhas'⟩
    have hafter := layout_after hc'
    unfold Cell.Has at hhas hhas'
    dsimp only at hhas
    omega

/-- Lines come from the top to the bottom. -/
lemma layout_sorted : (layout height x y str).Pairwise fun c c' => c.y ≤ c'.y := by
  induction str generalizing x y with
  | nil => exact List.Pairwise.nil
  | cons char str ih =>
    obtain ⟨x', y', hcons, hnext⟩ := layout_cons height x y char str
    rw [hcons, List.pairwise_cons]
    refine ⟨fun c' hc' => ?_, ih⟩
    have hafter := layout_after hc'
    show y ≤ c'.y
    omega

lemma layout_x_le (hx : x ≤ 120) (hc : c ∈ layout height x y str) : c.x ≤ 120 := by
  induction str generalizing x y with
  | nil => simp [layout] at hc
  | cons char str ih =>
    obtain ⟨x', y', hcons, hnext⟩ := layout_cons height x y char str
    rw [hcons] at hc
    rcases List.mem_cons.mp hc with rfl | hc
    · exact hx
    · exact ih (by omega) hc

/-- The cells are those of the characters of the string, one after another. -/
lemma map_char_layout : (layout height x y str).map Cell.char = str := by
  induction str generalizing x y with
  | nil => rfl
  | cons char str ih =>
    obtain ⟨x', y', hcons, -⟩ := layout_cons height x y char str
    rw [hcons, List.map_cons, ih]

lemma length_layout : (layout height x y str).length = str.length := by
  rw [← List.length_map Cell.char, map_char_layout]

lemma layout_char (hc : c ∈ layout height x y str) : c.char ∈ str := by
  have hmem := List.mem_map_of_mem (f := Cell.char) hc
  rwa [map_char_layout] at hmem

lemma u8_eq_iff {m n : ℕ} : u8 m = u8 n ↔ m % 2 ^ 8 = n % 2 ^ 8 := by
  rw [Fin.ext_iff, val_u8, val_u8]

/-- No later character is where the first one of the string is. -/
lemma calls_ne_of_first {mode : FontMode} {x y x' y' : ℕ} {str : List UInt8} (hstr : str ≠ [])
    (hne : x % 2 ^ 8 ≠ x' % 2 ^ 8 ∨ y % 2 ^ 8 ≠ y' % 2 ^ 8) :
    calls mode x y str ≠ (layout mode.height x' y' str).map Cell.call := by
  cases str with
  | nil => exact absurd rfl hstr
  | cons char str =>
    rw [calls, layout, List.map_cons]
    intro heq
    obtain ⟨hcall, -⟩ := List.cons.inj heq
    obtain ⟨hx, hy, -⟩ := CharCall.mk.inj hcall
    rw [u8_eq_iff] at hx hy
    dsimp only at hx hy
    omega

/-- The source moves on as the layout does on the first line, and beyond it where its new lines
begin and go down as they should. -/
lemma calls_eq_iff (hx : x ≤ 120) (hy : y' % 2 ^ 8 = y % 2 ^ 8) :
    calls mode x y' str = (layout mode.height x y str).map Cell.call ↔
      x + 8 * str.length ≤ 128 ∨ mode.height = 12 ∧ 8 ∣ x := by
  induction str generalizing x y y' with
  | nil =>
    refine iff_of_true rfl (.inl ?_)
    rw [List.length_nil]
    omega
  | cons char str ih =>
    have hhead : (⟨u8 x, u8 y', char⟩ : CharCall) = Cell.call ⟨x, y, char⟩ := by
      unfold Cell.call
      rw [u8_eq_iff.mpr hy]
    have hlen : (char :: str).length = str.length + 1 := rfl
    have hempty : str = [] ↔ str.length = 0 := List.length_eq_zero_iff.symm
    rw [calls, layout, List.map_cons, hhead, List.cons_inj_right, hlen]
    have hmode := height_cases mode
    rcases Nat.lt_or_ge x 113 with hfits | hfull
    · -- the next cell is on the same line
      rw [if_neg (by omega), if_pos (by omega), Nat.mod_eq_of_lt (by omega), ih (by omega) hy]
      omega
    · rcases Nat.lt_or_ge x 120 with hlate | hwrap
      · -- the source stays on a line where there is no room
        rw [if_neg (by omega), if_neg (by omega), Nat.mod_eq_of_lt (by omega)]
        by_cases hstr : str = []
        · subst hstr
          exact iff_of_true rfl (.inl (by rw [List.length_nil]; omega))
        · refine iff_of_false (calls_ne_of_first hstr (.inl (by omega))) ?_
          have hpos : str.length ≠ 0 := fun h => hstr (hempty.mpr h)
          omega
      · rw [if_pos (by omega), if_neg (by omega)]
        rcases hmode with ⟨hheight, hsize⟩ | ⟨hheight, hsize⟩
        · rw [ih (Nat.zero_le _) (by omega)]
          omega
        · by_cases hstr : str = []
          · subst hstr
            exact iff_of_true rfl (.inl (by rw [List.length_nil]; omega))
          · refine iff_of_false (calls_ne_of_first hstr (.inr (by omega))) ?_
            have hpos : str.length ≠ 0 := fun h => hstr (hempty.mpr h)
            omega

end Layout

/-! ## The points -/

section Dots
variable {mode : FontMode} {fonts : Fonts} {c : Cell} {d : Dot} {x y i j : ℕ}

lemma printable_glyph (fonts : Fonts) (mode : FontMode) {char : UInt8}
    (hchar : 32 ≤ char ∧ char ≤ 126) : ∃ p, fonts.glyph char mode = some p := by
  have hlo : 32 ≤ char.toNat := UInt8.le_iff_toNat_le.mp hchar.1
  have hhi : char.toNat ≤ 126 := UInt8.le_iff_toNat_le.mp hchar.2
  have hin : ¬ char - 32 > 95 - 1 := by
    rw [gt_iff_lt, UInt8.lt_iff_toNat_lt, UInt8.toNat_sub_of_le _ _ hchar.1]
    show ¬ 94 < char.toNat - 32
    omega
  unfold Fonts.glyph
  dsimp only
  rw [if_neg hin]
  split_ifs <;> exact ⟨_, rfl⟩

/-- The points of a character in its cell. -/
lemma mem_charDots (hchar : 32 ≤ c.char ∧ c.char ≤ 126) :
    d ∈ charDots fonts mode (u8 c.x) (u8 c.y) c.char ↔
      ∃ j < 8, ∃ i < mode.height, c.colour fonts mode (c.x + j) (c.y + i) = some d.on ∧
        d.At ((c.x + j) % 2 ^ 8) ((c.y + i) % 2 ^ 8) := by
  obtain ⟨p, hp⟩ := printable_glyph fonts mode hchar
  have hcolour (j i : ℕ) : c.colour fonts mode (c.x + j) (c.y + i) = some d.on ↔
      mode.Draws (glyphBit p j i) ∧ d.on = (glyphBit p j i ^^ mode.reverse) := by
    unfold Cell.colour Fonts.bit
    rw [hp, Option.getD_some, Nat.add_sub_cancel_left, Nat.add_sub_cancel_left]
    split_ifs with hdraws
    · rw [Option.some.injEq, eq_comm]
      exact (and_iff_right hdraws).symm
    · exact iff_of_false (fun h => by cases h) fun h => hdraws h.1
  have hu8 (m n : ℕ) : u8 ((u8 m).val + n : ℤ) = u8 (m + n : ℕ) := by
    rw [val_u8]
    unfold u8
    rw [Fin.mk.injEq]
    omega
  unfold charDots
  rw [hp]
  dsimp only
  rw [mem_glyphDots]
  simp only [hcolour, hu8]
  constructor
  · rintro ⟨j, hj, i, hi, hdraws, rfl⟩
    exact ⟨j, hj, i, hi, ⟨hdraws, rfl⟩, val_u8 _, val_u8 _⟩
  · rintro ⟨j, hj, i, hi, ⟨hdraws, hon⟩, hx, hy⟩
    refine ⟨j, hj, i, hi, hdraws, ?_⟩
    rw [Dot.mk.injEq]
    exact ⟨Fin.ext (hx.trans (val_u8 _).symm), Fin.ext (hy.trans (val_u8 _).symm), hon⟩

/-- The points of a character on the screen lie in its cell. -/
lemma has_of_mem (hchar : 32 ≤ c.char ∧ c.char ≤ 126) (hx : c.x ≤ 120) (hlow : c.y < 64)
    (hd : d ∈ charDots fonts mode (u8 c.x) (u8 c.y) c.char) (hat : d.At x y) :
    c.Has mode.height x y ∧ c.colour fonts mode x y = some d.on := by
  have hheight := height_cases mode
  obtain ⟨j, hj, i, hi, hcolour, hat'⟩ := (mem_charDots hchar).mp hd
  rw [Nat.mod_eq_of_lt (by omega), Nat.mod_eq_of_lt (by omega)] at hat'
  obtain rfl : c.x + j = x := hat'.1.symm.trans hat.1
  obtain rfl : c.y + i = y := hat'.2.symm.trans hat.2
  refine ⟨?_, hcolour⟩
  unfold Cell.Has
  omega

/-- Where a character gives a colour there is a point. -/
lemma exists_mem_of_colour (hchar : 32 ≤ c.char ∧ c.char ≤ 126) {on : Bool} (hj : j < 8)
    (hi : i < mode.height) (hcolour : c.colour fonts mode (c.x + j) (c.y + i) = some on) :
    ∃ d ∈ charDots fonts mode (u8 c.x) (u8 c.y) c.char,
      d.At ((c.x + j) % 2 ^ 8) ((c.y + i) % 2 ^ 8) := by
  have hat : (⟨u8 (c.x + j : ℕ), u8 (c.y + i : ℕ), on⟩ : Dot).At
      ((c.x + j) % 2 ^ 8) ((c.y + i) % 2 ^ 8) := ⟨val_u8 _, val_u8 _⟩
  exact ⟨_, (mem_charDots hchar).mpr ⟨j, hj, i, hi, hcolour, hat⟩, hat⟩

/-- A character gives each pixel its colour, wherever its rows come back. -/
lemma pixel_showChar (hchar : 32 ≤ c.char ∧ c.char ≤ 126) (hx : c.x ≤ 120) {on : Bool} (hj : j < 8)
    (hi : i < mode.height) (hrow : (c.y + i) % 2 ^ 8 < 64)
    (hcolour : c.colour fonts mode (c.x + j) (c.y + i) = some on) (g : Gram) :
    (setPoints g (charDots fonts mode (u8 c.x) (u8 c.y) c.char)).pixel (c.x + j)
      ((c.y + i) % 2 ^ 8) = on := by
  have hheight := height_cases mode
  obtain ⟨d, hd, hat⟩ := exists_mem_of_colour hchar hj hi hcolour
  rw [Nat.mod_eq_of_lt (show c.x + j < 2 ^ 8 by omega)] at hat
  refine pixel_setPoints_of_at (by omega) hrow ⟨d, hd, hat⟩ fun d' hd' hat' => ?_
  obtain ⟨j', hj', i', hi', hcolour', hat''⟩ := (mem_charDots hchar).mp hd'
  have hcol := hat''.1.symm.trans hat'.1
  have hrow' := hat''.2.symm.trans hat'.2
  obtain rfl : j' = j := by omega
  obtain rfl : i' = i := by omega
  rw [hcolour] at hcolour'
  exact (Option.some.inj hcolour').symm

end Dots

/-! ## The screen after each character -/

section String
variable {mode : FontMode} {fonts : Fonts} {text : Text mode} {c c' : Cell} {g : Gram} {k x y : ℕ}

lemma cell_printable (hc : c ∈ text.cells) : 32 ≤ c.char ∧ c.char ≤ 126 :=
  text.printable c.char (layout_char hc)

lemma cell_x_le (hc : c ∈ text.cells) : c.x ≤ 120 := layout_x_le text.x_le hc

/-- Two cells with a pixel in common are the same. -/
lemma cell_unique (hc : c ∈ text.cells) (hc' : c' ∈ text.cells)
    (hhas : c.Has mode.height x y) (hhas' : c'.Has mode.height x y) : c = c' := by
  by_contra hne
  have hapart : text.cells.Pairwise fun c c' =>
    ∀ x y, ¬ (c.Has mode.height x y ∧ c'.Has mode.height x y) := layout_pairwise
  have : Std.Symm fun c c' : Cell => ∀ x y, ¬ (c.Has mode.height x y ∧ c'.Has mode.height x y) :=
    ⟨fun _ _ h x y hboth => h x y hboth.symm⟩
  exact hapart.forall hc hc' hne x y ⟨hhas, hhas'⟩

lemma calls_take (mode : FontMode) (x y k : ℕ) (str : List UInt8) :
    calls mode x y (str.take k) = (calls mode x y str).take k := by
  induction str generalizing k x y with
  | nil => simp [calls]
  | cons char str ih =>
    cases k with
    | zero => rfl
    | succ k =>
      rw [List.take_succ_cons, calls, calls, List.take_succ_cons]
      split_ifs
      · rw [ih]
      · rw [ih]

/-- The characters of a string that is laid out are shown in its cells. -/
lemma upTo_succ (hcalls : calls mode text.x text.y text.str = text.cells.map Cell.call)
    (hc : text.cells[k]? = some c) : text.upTo fonts g (k + 1) =
      setPoints (text.upTo fonts g k) (charDots fonts mode (u8 c.x) (u8 c.y) c.char) := by
  unfold Text.upTo
  rw [showString_eq, showString_eq, calls_take, calls_take, hcalls, List.take_add_one,
    List.getElem?_map, hc, List.flatMap_append, setPoints_append]
  simp [Cell.call]

/-- The pixel has the colour of one of the first `k` cells, or as before if none of them gives it
one. -/
def Pictures (fonts : Fonts) (text : Text mode) (g : Gram) (k x y : ℕ) : Prop :=
  (∃ c ∈ text.cells.take k, c.y < 64 ∧ c.Has mode.height x y ∧
    c.colour fonts mode x y = some ((text.upTo fonts g k).pixel x y)) ∨
  (∀ c ∈ text.cells.take k, c.y < 64 → c.Has mode.height x y → c.colour fonts mode x y = none) ∧
    (text.upTo fonts g k).pixel x y = g.pixel x y

lemma mem_take_succ (hc : text.cells[k]? = some c) :
    c' ∈ text.cells.take (k + 1) ↔ c' ∈ text.cells.take k ∨ c' = c := by
  rw [List.take_add_one, hc, List.mem_append]
  simp

/-- A character with a point on a pixel gives it its colour, and any other leaves it as it is. -/
lemma upTo_succ_cases (hcalls : calls mode text.x text.y text.str = text.cells.map Cell.call)
    (hc : text.cells[k]? = some c) (hlow : c.y < 64) (hx : x < 128) (hy : y < 64) :
    (c.Has mode.height x y ∧
      c.colour fonts mode x y = some ((text.upTo fonts g (k + 1)).pixel x y)) ∨
    (c.Has mode.height x y → c.colour fonts mode x y = none) ∧
      (text.upTo fonts g (k + 1)).pixel x y = (text.upTo fonts g k).pixel x y := by
  have hmem := List.mem_of_getElem? hc
  rw [upTo_succ hcalls hc]
  by_cases hhas : c.Has mode.height x y
  · obtain ⟨j, rfl⟩ := Nat.exists_eq_add_of_le hhas.1.1
    obtain ⟨i, rfl⟩ := Nat.exists_eq_add_of_le hhas.2.1
    cases hcolour : c.colour fonts mode (c.x + j) (c.y + i) with
    | none =>
      refine .inr ⟨fun _ => rfl, pixel_setPoints_of_not_at hx hy fun d hd hat => ?_⟩
      have hon := (has_of_mem (cell_printable hmem) (cell_x_le hmem) hlow hd hat).2
      rw [hcolour] at hon
      cases hon
    | some on =>
      have hrow : (c.y + i) % 2 ^ 8 = c.y + i := Nat.mod_eq_of_lt (by omega)
      have hpixel := pixel_showChar (cell_printable hmem) (cell_x_le hmem)
        (Nat.add_lt_add_iff_left.mp hhas.1.2) (Nat.add_lt_add_iff_left.mp hhas.2.2)
        (by rw [hrow]; exact hy) hcolour (text.upTo fonts g k)
      rw [hrow] at hpixel
      exact .inl ⟨hhas, congrArg some hpixel.symm⟩
  · refine .inr ⟨fun h => absurd h hhas, pixel_setPoints_of_not_at hx hy fun d hd hat => ?_⟩
    exact hhas (has_of_mem (cell_printable hmem) (cell_x_le hmem) hlow hd hat).1

/-- One more character, which changes nothing if it is below the screen. -/
lemma pictures_succ (hcalls : calls mode text.x text.y text.str = text.cells.map Cell.call)
    (hc : text.cells[k]? = some c) (hx : x < 128) (hy : y < 64)
    (hbelow : 64 ≤ c.y →
      (text.upTo fonts g (k + 1)).pixel x y = (text.upTo fonts g k).pixel x y)
    (h : Pictures fonts text g k x y) : Pictures fonts text g (k + 1) x y := by
  have hsame (heq : (text.upTo fonts g (k + 1)).pixel x y = (text.upTo fonts g k).pixel x y)
      (hnone : c.y < 64 → c.Has mode.height x y → c.colour fonts mode x y = none) :
      Pictures fonts text g (k + 1) x y := by
    unfold Pictures at h ⊢
    rw [heq]
    rcases h with ⟨c', hc', hrest⟩ | ⟨hnone', hpixel⟩
    · exact .inl ⟨c', (mem_take_succ hc).mpr (.inl hc'), hrest⟩
    · refine .inr ⟨fun c' hc' => ?_, hpixel⟩
      rcases (mem_take_succ hc).mp hc' with hc' | rfl
      · exact hnone' c' hc'
      · exact hnone
  rcases lt_or_ge c.y 64 with hlow | hdown
  · rcases upTo_succ_cases hcalls hc hlow hx hy with hcolour | ⟨hnone, heq⟩
    · exact .inl ⟨c, (mem_take_succ hc).mpr (.inr rfl), hlow, hcolour⟩
    · exact hsame heq fun _ => hnone
  · exact hsame (hbelow hdown) fun hlow => absurd hdown (not_le.mpr hlow)

/-- The screen shows the first cells as long as the characters below it change nothing. -/
lemma pictures (hcalls : calls mode text.x text.y text.str = text.cells.map Cell.call)
    (hx : x < 128) (hy : y < 64) (hk : k ≤ text.cells.length)
    (hbelow : ∀ m < k, ∀ c, text.cells[m]? = some c → 64 ≤ c.y →
      (text.upTo fonts g (m + 1)).pixel x y = (text.upTo fonts g m).pixel x y) :
    Pictures fonts text g k x y := by
  induction k with
  | zero => exact .inr ⟨fun c hc => by simp at hc, rfl⟩
  | succ k ih =>
    have hc : text.cells[k]? = some text.cells[k] := List.getElem?_eq_getElem hk
    exact pictures_succ hcalls hc hx hy (hbelow k (Nat.lt_succ_self k) _ hc)
      (ih (by omega) fun m hm => hbelow m (by omega))

/-- What is higher up comes first. -/
lemma mem_take_of_higher (hc : text.cells[k]? = some c) (hc' : c' ∈ text.cells)
    (hlt : c'.y < c.y) : c' ∈ text.cells.take k := by
  have hsorted : text.cells.Pairwise fun c c' => c.y ≤ c'.y := layout_sorted
  rw [← List.take_append_drop k text.cells] at hc' hsorted
  refine (List.mem_append.mp hc').resolve_right fun hdrop => ?_
  obtain ⟨hk, rfl⟩ := List.getElem?_eq_some_iff.mp hc
  rw [List.drop_eq_getElem_cons hk] at hdrop hsorted
  have hafter := (List.pairwise_cons.mp (List.pairwise_append.mp hsorted).2.1).1
  rcases List.mem_cons.mp hdrop with rfl | hmem
  · omega
  · have hle := hafter c' hmem
    omega

/-- A quiet character changes nothing where the cells before it are shown. -/
lemma below_of_quiet (hcalls : calls mode text.x text.y text.str = text.cells.map Cell.call)
    (hc : text.cells[k]? = some c) (hdown : 64 ≤ c.y) (hquiet : Quiet fonts text c)
    (hx : x < 128) (hy : y < 64) (h : Pictures fonts text g k x y) :
    (text.upTo fonts g (k + 1)).pixel x y = (text.upTo fonts g k).pixel x y := by
  have hmem := List.mem_of_getElem? hc
  have hxle := cell_x_le hmem
  rw [upTo_succ hcalls hc]
  by_cases hdot : ∃ d ∈ charDots fonts mode (u8 c.x) (u8 c.y) c.char, d.At x y
  swap
  · push Not at hdot
    exact pixel_setPoints_of_not_at hx hy hdot
  obtain ⟨d, hd, hat⟩ := hdot
  obtain ⟨j, hj, i, hi, hcolour, hat'⟩ := (mem_charDots (cell_printable hmem)).mp hd
  rw [Nat.mod_eq_of_lt (show c.x + j < 2 ^ 8 by omega)] at hat'
  obtain rfl : c.x + j = x := hat'.1.symm.trans hat.1
  obtain rfl : (c.y + i) % 2 ^ 8 = y := hat'.2.symm.trans hat.2
  rw [pixel_showChar (cell_printable hmem) hxle hj hi hy hcolour]
  obtain ⟨c', hc', hlow, hhas, hcolour'⟩ := hquiet j hj i hi hy d.on hcolour
  have hearlier := mem_take_of_higher hc hc' (by omega)
  rcases h with ⟨c'', hc'', -, hhas'', hcolour''⟩ | ⟨hnone, -⟩
  · obtain rfl := cell_unique hc' (List.mem_of_mem_take hc'') hhas hhas''
    exact Option.some.inj (hcolour'.symm.trans hcolour'')
  · have hnone' := hnone c' hearlier hlow hhas
    rw [hcolour'] at hnone'
    cases hnone'

/-- A character that changes no pixel of any screen is quiet. -/
lemma quiet_of_below (h : ShownInCells fonts text) (hc : text.cells[k]? = some c)
    (hdown : 64 ≤ c.y) : Quiet fonts text c := by
  intro j hj i hi hrow on hcolour
  have hmem := List.mem_of_getElem? hc
  have hxle := cell_x_le hmem
  -- a screen in the other colour
  have hpictures := pictures (g := blank !on) h.calls (show c.x + j < 128 by omega) hrow
    (le_of_lt (List.getElem?_eq_some_iff.mp hc).1) fun m _ c' hc' hdown' =>
      h.below _ m c' hc' hdown' _ (by omega) _ hrow
  have hsame := h.below (blank !on) k c hc hdown _ (show c.x + j < 128 by omega) _ hrow
  rw [upTo_succ h.calls hc, pixel_showChar (cell_printable hmem) hxle hj hi hrow hcolour] at hsame
  rcases hpictures with ⟨c', hc', hlow, hhas, hcolour'⟩ | ⟨-, hblank⟩
  · rw [← hsame] at hcolour'
    exact ⟨c', List.mem_of_mem_take hc', hlow, hhas, hcolour'⟩
  · rw [← hsame, pixel_blank] at hblank
    exact absurd hblank (Bool.self_ne_not on)

/-! ## The string -/

lemma shown_eq (text : Text mode) (fonts : Fonts) (g : Gram) :
    text.shown fonts g = text.upTo fonts g text.cells.length := by
  unfold Text.shown Text.upTo Text.cells
  rw [length_layout, List.take_length]

/-- **Exactly which strings are shown in their cells.** For every font, every printable string and
every position that leaves room for a character. -/
theorem shownInCells_iff (fonts : Fonts) (text : Text mode) : ShownInCells fonts text ↔
    LaidOut text ∧ ∀ c ∈ text.cells, 64 ≤ c.y → Quiet fonts text c := by
  have hlaid : calls mode text.x text.y text.str = text.cells.map Cell.call ↔ LaidOut text :=
    calls_eq_iff text.x_le rfl
  constructor
  · intro h
    refine ⟨hlaid.mp h.calls, fun c hc hdown => ?_⟩
    obtain ⟨k, hk⟩ := List.mem_iff_getElem?.mp hc
    exact quiet_of_below h hk hdown
  · rintro ⟨hlaid', hquiet⟩
    have hcalls := hlaid.mpr hlaid'
    have hbelow : ∀ g x y, x < 128 → y < 64 → ∀ k c, text.cells[k]? = some c → 64 ≤ c.y →
        (text.upTo fonts g (k + 1)).pixel x y = (text.upTo fonts g k).pixel x y := by
      intro g x y hx hy k
      induction k using Nat.strong_induction_on with
      | _ k ih =>
        intro c hc hdown
        refine below_of_quiet hcalls hc hdown (hquiet c (List.mem_of_getElem? hc) hdown) hx hy ?_
        exact pictures hcalls hx hy (le_of_lt (List.getElem?_eq_some_iff.mp hc).1) ih
    have hpictures (g : Gram) {x y : ℕ} (hx : x < 128) (hy : y < 64) :
        Pictures fonts text g text.cells.length x y :=
      pictures hcalls hx hy le_rfl fun m _ => hbelow g x y hx hy m
    refine ⟨hcalls, layout_pairwise, fun g c hc x hx y hy hhas => ?_,
      fun g x hx y hy hout => ?_, fun g k c hc hdown x hx y hy => hbelow g x y hx hy k c hc hdown⟩
    · rw [shown_eq]
      rcases hpictures g hx hy with ⟨c', hc', -, hhas', hcolour⟩ | ⟨hnone, hpixel⟩
      · obtain rfl := cell_unique hc (List.mem_of_mem_take hc') hhas hhas'
        rw [hcolour, Option.getD_some]
      · rw [List.take_length] at hnone
        rw [hpixel, hnone c hc (lt_of_le_of_lt hhas.2.1 hy) hhas, Option.getD_none]
    · rw [shown_eq]
      rcases hpictures g hx hy with ⟨c, hc, -, hhas, -⟩ | ⟨-, hpixel⟩
      · exact absurd hhas (hout c (List.mem_of_mem_take hc))
      · exact hpixel

/-- Whatever the fonts: of 17 characters in 16 rows the last hides the first, and of 16 characters
from column 1 on the last is cut off at the right. -/
theorem not_shownInCells :
    (¬ ∃ fonts, ShownInCells fonts
      (⟨0, 0, List.replicate 17 65, by decide, by decide, by simp⟩ : Text .font16Default)) ∧
    ¬ ∃ fonts, ShownInCells fonts
      (⟨1, 0, List.replicate 16 65, by decide, by decide, by simp⟩ : Text .font12Default) := by
  constructor
  all_goals
    rintro ⟨fonts, h⟩
    have hlaid := ((shownInCells_iff fonts _).mp h).1
    unfold LaidOut at hlaid
    revert hlaid
    decide

end String

end IpncRdk.Lcd12864
