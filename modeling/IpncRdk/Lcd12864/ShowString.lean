import IpncRdk.Lcd12864.Region

/-!
# Showing characters and strings

A glyph is 8 pixels wide. Its first eight bytes are the upper 8 rows of its columns, its other eight
the rows below. `LCD12864_GRAM_ShowChar` adds the rows and columns of the glyph to a position in
`u8`s, and `LCD12864_GRAM_ShowString` moves the position in `u16`s.

* `FontMode` — the modes, and what the two functions read from them;
* `charDots` — the points of a character, and `mem_charDots`, which ones these are;
* `calls` — the characters that a string shows, and where.
-/

namespace IpncRdk.Lcd12864

/-! ## Modes -/

/-- `LCD12864_FONT_MODE` -/
inductive FontMode
  | font16Default
  | font12Default
  | font16Cover
  | font12Cover
  | font16Reverse
  | font12Reverse
  deriving DecidableEq, Repr

namespace FontMode

def code : FontMode → ℕ
  | font16Default => 0x80 + 16
  | font12Default => 0x80 + 12
  | font16Cover => 16
  | font12Cover => 12
  | font16Reverse => 0x40 + 16
  | font12Reverse => 0x40 + 12

/-- `Font_Size`, by which a string moves down. It is 0 for a height of 16. -/
def fontSize (mode : FontMode) : ℕ := mode.code &&& 0x0f

/-- `FontSize` of a character, in the end. -/
def height (mode : FontMode) : ℕ := if mode.code &&& 0x0f ≠ 0 then 12 else 16

/-- The points are drawn where they would be cleared, and the other way round. -/
def reverse (mode : FontMode) : Bool := mode.code &&& 0x40 ≠ 0

/-- The points that are not set are left as they are. -/
def overlay (mode : FontMode) : Bool := mode.code &&& 0x80 ≠ 0

/-- The point of a bit of a glyph. -/
def dot (mode : FontMode) (bit : Bool) (x y : U8) : Option Dot :=
  if mode.overlay then
    if bit then some ⟨x, y, bit ^^ mode.reverse⟩ else none
  else some ⟨x, y, bit ^^ mode.reverse⟩

end FontMode

/-! ## Characters -/

/-- `ASCII_8X12` and `ASCII_8X16`, by the number of the character and of the byte. -/
structure Fonts where
  ascii8x12 : ℕ → ℕ → BitVec 8
  ascii8x16 : ℕ → ℕ → BitVec 8

/-- The bytes of the glyph of a character, `none` where it has none. -/
def Fonts.glyph (fonts : Fonts) (char : UInt8) (mode : FontMode) : Option (ℕ → BitVec 8) :=
  let char := char - 32
  if char > 95 - 1 then none
  else if mode.code &&& 0x0f ≠ 0 then some (fonts.ascii8x12 char.toNat)
  else some (fonts.ascii8x16 char.toNat)

/-- The points of a glyph, its upper rows first. -/
def glyphDots (p : ℕ → BitVec 8) (mode : FontMode) (x y : U8) : List Dot :=
  ((List.range 8).flatMap fun (j : ℕ) => (List.range 8).filterMap fun (i : ℕ) =>
    mode.dot ((p j).getLsbD i) (u8 (x.val + j)) (u8 (y.val + i))) ++
  (List.range 8).flatMap fun (j : ℕ) => (List.range (mode.height - 8)).filterMap fun (i : ℕ) =>
    mode.dot ((p (8 + j)).getLsbD i) (u8 (x.val + j)) (u8 (y.val + 8 + i))

/-- The points of a character. -/
def charDots (fonts : Fonts) (mode : FontMode) (x y : U8) (char : UInt8) : List Dot :=
  match fonts.glyph char mode with
  | none => []
  | some p => glyphDots p mode x y

/-- `LCD12864_GRAM_ShowChar` -/
def showChar (fonts : Fonts) (g : Gram) (x y : U8) (char : UInt8) (mode : FontMode) : Gram :=
  setPoints g (charDots fonts mode x y char)

/-- `LCD12864_GRAM_ShowString`, up to the end of the string. -/
def showString (fonts : Fonts) (mode : FontMode) (g : Gram) (x y : ℕ) : List UInt8 → Gram
  | [] => g
  | char :: str =>
    let g := showChar fonts g (u8 x) (u8 y) char mode
    if x > 127 - 8 then showString fonts mode g 0 ((y + mode.fontSize) % 2 ^ 16) str
    else showString fonts mode g ((x + 8) % 2 ^ 16) y str

/-! ## The points of a character -/

section Char
variable {fonts : Fonts} {mode : FontMode} {p : ℕ → BitVec 8} {x y : U8} {d : Dot} {i j : ℕ}

/-- The bit of a glyph in a column and a row. -/
def glyphBit (p : ℕ → BitVec 8) (j i : ℕ) : Bool :=
  if i < 8 then (p j).getLsbD i else (p (8 + j)).getLsbD (i - 8)

/-- A bit with a point: each one, or in the overlay modes each one that is set. -/
def FontMode.Draws (mode : FontMode) (bit : Bool) : Prop := mode.overlay = true → bit = true

instance (mode : FontMode) (bit : Bool) : Decidable (mode.Draws bit) :=
  inferInstanceAs (Decidable (_ → _))

lemma dot_eq_some_iff {bit : Bool} :
    mode.dot bit x y = some d ↔ mode.Draws bit ∧ d = ⟨x, y, bit ^^ mode.reverse⟩ := by
  unfold FontMode.dot FontMode.Draws
  cases mode.overlay <;> cases bit <;> simp [eq_comm]

lemma height_cases (mode : FontMode) :
    mode.height = 12 ∧ mode.fontSize = 12 ∨ mode.height = 16 ∧ mode.fontSize = 0 := by
  cases mode <;> decide

/-- The points of a glyph: one for each bit of its rows that has one. -/
lemma mem_glyphDots : d ∈ glyphDots p mode x y ↔
    ∃ j < 8, ∃ i < mode.height, mode.Draws (glyphBit p j i) ∧
      d = ⟨u8 (x.val + j), u8 (y.val + i), glyphBit p j i ^^ mode.reverse⟩ := by
  have hheight := height_cases mode
  unfold glyphDots
  simp only [List.mem_append, List.mem_flatMap, List.mem_filterMap, List.mem_range,
    dot_eq_some_iff]
  constructor
  · rintro (⟨j, hj, i, hi, hdraws, rfl⟩ | ⟨j, hj, i, hi, hdraws, rfl⟩)
    · have hbit : glyphBit p j i = (p j).getLsbD i := if_pos hi
      exact ⟨j, hj, i, by omega, by rwa [hbit], by rw [hbit]⟩
    · have hbit : glyphBit p j (8 + i) = (p (8 + j)).getLsbD i := by
        unfold glyphBit
        rw [if_neg (by omega), Nat.add_sub_cancel_left]
      refine ⟨j, hj, 8 + i, by omega, by rwa [hbit], ?_⟩
      rw [hbit]
      push_cast
      rw [add_assoc]
  · rintro ⟨j, hj, i, hi, hdraws, rfl⟩
    unfold glyphBit at hdraws ⊢
    split_ifs at hdraws ⊢ with hlow
    · exact .inl ⟨j, hj, i, hlow, hdraws, rfl⟩
    · refine .inr ⟨j, hj, i - 8, by omega, hdraws, ?_⟩
      have hrow : (y.val : ℤ) + 8 + (i - 8 : ℕ) = y.val + i := by omega
      rw [hrow]

end Char

/-! ## The characters of a string -/

/-- A call of `LCD12864_GRAM_ShowChar`. -/
structure CharCall where
  x : U8
  y : U8
  char : UInt8
  deriving DecidableEq, Repr

/-- The calls of a string. -/
def calls (mode : FontMode) (x y : ℕ) : List UInt8 → List CharCall
  | [] => []
  | char :: str =>
    ⟨u8 x, u8 y, char⟩ ::
      if x > 127 - 8 then calls mode 0 ((y + mode.fontSize) % 2 ^ 16) str
      else calls mode ((x + 8) % 2 ^ 16) y str

/-- A string shows its characters one after another. -/
lemma showString_eq (fonts : Fonts) (mode : FontMode) (g : Gram) (x y : ℕ) (str : List UInt8) :
    showString fonts mode g x y str =
      setPoints g ((calls mode x y str).flatMap fun c => charDots fonts mode c.x c.y c.char) := by
  induction str generalizing g x y with
  | nil => rfl
  | cons char str ih =>
    rw [showString, calls, List.flatMap_cons, setPoints_append]
    dsimp only
    unfold showChar
    split_ifs
    · exact ih _ _ _
    · exact ih _ _ _

end IpncRdk.Lcd12864
