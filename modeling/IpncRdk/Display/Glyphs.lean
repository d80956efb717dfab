import IpncRdk.Display.Bounds
import IpncRdk.Lib.CString

/-!
# `display.c`: the font pixels that a text reads

`GUIDrawText` walks through a text until it meets a character without a glyph, and copies the
glyphs out of a bitmap. In the middle font it computes every position from the character's
distance to `'0'`.

* `Font` — the fonts with a bitmap; the small one leaves its width unset;
* `drawLoop` — the loop over the characters, which finds their glyphs in the bitmap;
* `GlyphsInside` — it reads no character and no pixel from outside;
* `glyphsInside_iff` — the texts of which that is true.
-/

namespace IpncRdk.Display

open Lib

/-! ## The fonts -/

/-- The fonts with a bitmap. -/
inductive Font
  | big
  | midlle
  deriving DecidableEq, Repr

namespace Font

def size : Font → FontSize
  | big => .big
  | midlle => .midlle

/-- `font_BMP_width` -/
def bmpWidth : Font → ℕ
  | big => 312
  | midlle => 502

/-- The pixels of the bitmap, which takes half of its array. -/
def bmpSize : Font → ℕ
  | big => 312 * 72
  | midlle => 502 * 100

end Font

/-- The characters after the digits: their columns in the bitmap, and what is added to the column.
The first entry of a character counts. -/
def signs : List (UInt8 × ℕ × ℕ) :=
  [(46, 10, 0), (58, 11, 2), (45, 12, 0), (95, 13, 0), (47, 14, 0), (63, 15, 0), (33, 16, 0),
    (32, 17, 0), (47, 18, 0), (64, 25, 0), (35, 24, 0)]

/-- `font_posx` and `font_posy`, by the kind of the character. -/
def glyphPos (charw charh : ℕ) (c : UInt8) : Option (ℕ × ℕ) :=
  if 97 ≤ c ∧ c ≤ 122 then some ((c.toNat - 97) * charw, charh * 0)
  else if 65 ≤ c ∧ c ≤ 90 then some ((c.toNat - 65) * charw, charh * 1)
  else if 48 ≤ c ∧ c ≤ 57 then some ((c.toNat - 48) * charw, charh * 2)
  else (signs.find? fun e => e.1 == c).map fun e => (e.2.1 * charw + e.2.2, charh * 2)

/-- The middle font has its own rule for the characters with a glyph. -/
def fontPos (font : Font) (c : UInt8) : Option (ℕ × ℕ) :=
  match font with
  | .big => glyphPos font.size.charw font.size.charh c
  | .midlle => (glyphPos font.size.charw font.size.charh c).map fun _ =>
      (uint16 ((c.toNat - 48) * font.size.charw), font.size.charh * 0)

/-- The loop over the characters: the positions of the glyphs that it draws. -/
def drawLoop (font : Font) : List UInt8 → Except Fault (List (ℕ × ℕ))
  | [] => .error .outOfBounds
  | c :: text =>
    match fontPos font c with
    | none => .ok []
    | some pos => do
      let drawn ← drawLoop font text
      pure (pos :: drawn)

/-- The pixels of the bitmap that a glyph is copied from. -/
def fontReads (font : Font) (pos : ℕ × ℕ) : List ℕ :=
  (List.range font.size.charh).flatMap fun i => (List.range font.size.charw).map fun j =>
    pos.1 + pos.2 * font.bmpWidth + j + i * font.bmpWidth

/-- On a text with nothing to read behind its NUL, the loop draws the longest prefix of characters
with a glyph, and reads pixels of the bitmap only. -/
def GlyphsInside (font : Font) (text : CString) : Prop :=
  ∃ drawn, drawLoop font (text.bytes ++ [0]) = .ok drawn ∧
    drawn.length = (text.bytes.takeWhile isGlyph).length ∧
    ∀ pos ∈ drawn, ∀ k ∈ fontReads font pos, k < font.bmpSize

/-! ## The loop -/

section Loop
variable {font : Font} {c : UInt8}

lemma glyphPos_isSome (charw charh : ℕ) (c : UInt8) :
    (glyphPos charw charh c).isSome = isGlyph c := by
  have hsigns : ((signs.find? fun e => e.1 == c).isSome = true) ↔
      c ∈ [46, 58, 45, 95, 47, 63, 33, 32, 64, 35] := by
    rw [List.find?_isSome]
    simp only [signs, List.mem_cons, List.not_mem_nil, beq_iff_eq, or_false, or_and_right,
      exists_or, exists_eq_left]
    simp only [eq_comm (a := c)]
    tauto
  rw [Bool.eq_iff_iff]
  unfold glyphPos isGlyph
  split_ifs with hlower hupper hdigit
  · simp [hlower]
  · simp [hupper]
  · simp [hdigit]
  · rw [Option.isSome_map, hsigns]
    simp [hlower, hupper, hdigit]

lemma fontPos_isSome (font : Font) (c : UInt8) : (fontPos font c).isSome = isGlyph c := by
  unfold fontPos
  cases font with
  | big => exact glyphPos_isSome _ _ c
  | midlle => rw [Option.isSome_map, glyphPos_isSome]

/-- The loop draws the characters up to the first one without a glyph. -/
lemma drawLoop_eq (font : Font) (text rest : List UInt8) : drawLoop font (text ++ 0 :: rest) =
    .ok ((text.takeWhile isGlyph).filterMap (fontPos font)) := by
  induction text with
  | nil =>
    have hnone : fontPos font 0 = none :=
      Option.not_isSome_iff_eq_none.mp (by rw [fontPos_isSome]; decide)
    rw [List.nil_append, drawLoop, hnone]
    rfl
  | cons c text ih =>
    rw [List.cons_append, drawLoop, List.takeWhile_cons]
    have hsome := fontPos_isSome font c
    cases hpos : fontPos font c with
    | none =>
      rw [hpos] at hsome
      rw [← hsome]
      rfl
    | some pos =>
      rw [hpos] at hsome
      rw [← hsome, ih]
      simp [hpos]

/-- A text with its NUL is enough for the loop, so the bitmap decides. -/
lemma glyphsInside_iff_forall {text : CString} : GlyphsInside font text ↔
    ∀ c ∈ text.bytes.takeWhile isGlyph, ∀ pos, fontPos font c = some pos →
      ∀ k ∈ fontReads font pos, k < font.bmpSize := by
  have hdrawn := drawLoop_eq font text.bytes []
  have hlen : ((text.bytes.takeWhile isGlyph).filterMap (fontPos font)).length =
      (text.bytes.takeWhile isGlyph).length := by
    rw [List.length_filterMap_eq_countP, List.countP_eq_length]
    intro c hc
    rw [fontPos_isSome]
    exact List.mem_takeWhile_imp hc
  constructor
  · rintro ⟨drawn, hloop, -, hreads⟩ c hc pos hpos
    obtain rfl := Except.ok.inj (hdrawn.symm.trans hloop)
    exact hreads pos (List.mem_filterMap.mpr ⟨c, hc, hpos⟩)
  · intro h
    refine ⟨_, hdrawn, hlen, fun pos hmem => ?_⟩
    obtain ⟨c, hc, hpos⟩ := List.mem_filterMap.mp hmem
    exact h c hc pos hpos

end Loop

/-! ## The positions -/

section Positions
variable {c : UInt8} {pos : ℕ × ℕ}

/-- A glyph lies in the bitmap exactly if its last pixel does. -/
lemma fontReads_lt_iff (font : Font) (pos : ℕ × ℕ) :
    (∀ k ∈ fontReads font pos, k < font.bmpSize) ↔
      pos.1 + pos.2 * font.bmpWidth + (font.size.charw - 1) +
        (font.size.charh - 1) * font.bmpWidth < font.bmpSize := by
  have hw : 0 < font.size.charw := by cases font <;> decide
  have hh : 0 < font.size.charh := by cases font <;> decide
  unfold fontReads
  simp only [List.mem_flatMap, List.mem_map, List.mem_range]
  constructor
  · intro h
    exact h _ ⟨font.size.charh - 1, by omega, font.size.charw - 1, by omega, rfl⟩
  · rintro h k ⟨i, hi, j, hj, rfl⟩
    have hrow : i * font.bmpWidth ≤ (font.size.charh - 1) * font.bmpWidth :=
      Nat.mul_le_mul_right _ (by omega)
    omega

/-- The big font has three rows of 26 glyphs. -/
lemma glyphPos_big (h : glyphPos 12 24 c = some pos) : pos.1 + 12 ≤ 312 ∧ pos.2 ≤ 48 := by
  have hsigns : ∀ e ∈ signs, e.2.1 * 12 + e.2.2 + 12 ≤ 312 := by decide
  simp only [glyphPos, UInt8.le_iff_toNat_le, UInt8.reduceToNat] at h
  split_ifs at h with hlower hupper hdigit
  · obtain rfl := Option.some.inj h
    dsimp only
    omega
  · obtain rfl := Option.some.inj h
    dsimp only
    omega
  · obtain rfl := Option.some.inj h
    dsimp only
    omega
  · obtain ⟨e, he, rfl⟩ := Option.map_eq_some_iff.mp h
    exact ⟨hsigns e (List.mem_of_find?_eq_some he), Nat.le_refl 48⟩

lemma big_inside (h : fontPos .big c = some pos) :
    ∀ k ∈ fontReads .big pos, k < Font.big.bmpSize := by
  obtain ⟨hx, hy⟩ := glyphPos_big h
  rw [fontReads_lt_iff]
  show pos.1 + pos.2 * 312 + (12 - 1) + (24 - 1) * 312 < 312 * 72
  omega

/-- The middle font has the ten digits: on either side of them the position, in 16 bits, lies
behind the bitmap's width. -/
lemma midlle_inside_iff (h : fontPos .midlle c = some pos) :
    (∀ k ∈ fontReads .midlle pos, k < Font.midlle.bmpSize) ↔ 48 ≤ c ∧ c ≤ 57 := by
  obtain ⟨_, -, rfl⟩ := Option.map_eq_some_iff.mp h
  have hc := c.toNat_lt
  rw [fontReads_lt_iff, UInt8.le_iff_toNat_le, UInt8.le_iff_toNat_le]
  show uint16 ((c.toNat - 48 : ℤ) * (50 : ℕ)) + 100 * 0 * 502 + (50 - 1) + (100 - 1) * 502
    < 502 * 100 ↔ 48 ≤ c.toNat ∧ c.toNat ≤ 57
  have hbits : (2 : ℤ) ^ 16 = 65536 := rfl
  unfold uint16
  rw [hbits]
  rcases Nat.lt_or_ge c.toNat 48 with hlow | hhigh
  · have hwrap : ((c.toNat - 48) * (50 : ℕ) : ℤ) % 65536 = (c.toNat - 48) * 50 + 65536 := by omega
    rw [hwrap]
    omega
  · have hplain : ((c.toNat - 48) * (50 : ℕ) : ℤ) % 65536 = (c.toNat - 48) * 50 := by omega
    rw [hplain]
    omega

/-- **Exactly the texts whose glyphs are all in the bitmap.** In the big font every text, and in the
middle font those that show nothing but digits. -/
theorem glyphsInside_iff (font : Font) (text : CString) : GlyphsInside font text ↔
    font = .big ∨ ∀ c ∈ text.bytes.takeWhile isGlyph, 48 ≤ c ∧ c ≤ 57 := by
  rw [glyphsInside_iff_forall]
  cases font with
  | big => exact iff_of_true (fun _ _ _ hpos => big_inside hpos) (Or.inl rfl)
  | midlle =>
    rw [or_iff_right (by decide)]
    refine forall₂_congr fun c hc => ?_
    have hsome : (fontPos .midlle c).isSome = true :=
      (fontPos_isSome .midlle c).trans (List.mem_takeWhile_imp hc)
    obtain ⟨pos, hpos⟩ := Option.isSome_iff_exists.mp hsome
    constructor
    · intro h
      exact (midlle_inside_iff hpos).mp (h pos hpos)
    · intro h pos' hpos'
      exact (midlle_inside_iff hpos').mpr h

/-- A percentage is shown in the middle font, which has no sign. -/
lemma percent_inside_iff (percent : ℤ) :
    (∀ c ∈ (format02 percent).takeWhile isGlyph, 48 ≤ c ∧ c ≤ 57) ↔ 0 ≤ percent := by
  have hpad : ∀ width, ∀ c ∈ padZeros width (digits percent.natAbs), 48 ≤ c ∧ c ≤ 57 := by
    intro width c hc
    rcases List.mem_append.mp hc with hzero | hdigit
    · rw [List.eq_of_mem_replicate hzero]
      decide
    · exact digit_of_mem_digits hdigit
  have hglyphs : (format02 percent).takeWhile isGlyph = format02 percent :=
    List.takeWhile_eq_self_iff.mpr fun _ hc => isGlyph_of_mem_format02 hc
  rw [hglyphs]
  unfold format02
  split_ifs with hneg
  · refine iff_of_false (fun h => ?_) (by omega)
    exact absurd (h 45 List.mem_cons_self).1 (by decide)
  · exact iff_of_true (hpad 2) (by omega)

/-- `-5`, as a percentage of the middle font. -/
theorem minusFive_not_inside : ¬ GlyphsInside .midlle ⟨format02 (-5), by decide⟩ := by
  rw [glyphsInside_iff_forall]
  intro h
  exact absurd (h 45 (by decide) (65386, 0) rfl) (by rw [fontReads_lt_iff]; decide)

end Positions

end IpncRdk.Display
