import IpncRdk.CJson.Entity
import IpncRdk.Lib.Format

/-!
# `cJSON.c`: what is printed

The pieces that both printers compose their text from, and the whole text of an entity.

* `DoubleOps` — the double arithmetic of `print_number` and its conversions of `sprintf`;
* `intOps` — the doubles that are ints;
* `numberText`, `quote`, `arrayText`, `membersText` — the text of a number, of a string, and of
  the entries between two brackets;
* `text` — the text of an entity, formatted or not, in which there is no NUL.
-/

namespace IpncRdk.CJson

open Lib

/-! ## Numbers -/

/-- What `print_number` uses of `double`: its three tests, and the conversions `%.0f`, `%e` and
`%f`, whose texts fit into 64 bytes where they are used. -/
structure DoubleOps (D : Type) where
  /-- `d == 0` -/
  isZero : D → Bool
  /-- `fabs(((double)valueint)-d)<=DBL_EPSILON && d<=INT_MAX && d>=INT_MIN` -/
  isInt : BitVec 32 → D → Bool
  /-- `fabs(floor(d)-d)<=DBL_EPSILON && fabs(d)<1.0e60` -/
  isWhole : D → Bool
  /-- `fabs(d)<1.0e-6 || fabs(d)>1.0e9` -/
  isFar : D → Bool
  fixed0 : D → CString
  exponent : D → CString
  fixed : D → CString
  length_fixed0 : ∀ d, isWhole d → (fixed0 d).bytes.length < 64
  length_exponent : ∀ d, (exponent d).bytes.length < 64
  length_fixed : ∀ d, ¬ isFar d → (fixed d).bytes.length < 64

variable {D : Type} (ops : DoubleOps D)

/-- The size that `print_number` asks for, and the text that it puts there. -/
def numberPiece (valueint : BitVec 32) (d : D) : ℕ × List UInt8 :=
  if ops.isZero d then (2, [48])
  else if ops.isInt valueint d then (21, formatInt valueint.toInt)
  else if ops.isWhole d then (64, (ops.fixed0 d).bytes)
  else if ops.isFar d then (64, (ops.exponent d).bytes)
  else (64, (ops.fixed d).bytes)

def numberText (valueint : BitVec 32) (d : D) : List UInt8 := (numberPiece ops valueint d).2

lemma length_formatInt_lt (n : BitVec 32) : (formatInt n.toInt).length < 21 := by
  have hlo := BitVec.le_toInt n
  have hhi := BitVec.toInt_lt (x := n)
  have habs : n.toInt.natAbs < 10 ^ 10 := by
    norm_num at *
    omega
  have hdigits : (digits n.toInt.natAbs).length ≤ 10 := (length_digits_le_iff (by decide)).mpr habs
  unfold formatInt
  split
  · rw [List.length_cons]
    omega
  · omega

lemma nul_notMem_formatInt (n : ℤ) : (0 : UInt8) ∉ formatInt n := by
  have hdigits : (0 : UInt8) ∉ digits n.natAbs := by
    intro hmem
    exact absurd (digit_of_mem_digits hmem).1 (by decide)
  unfold formatInt
  split
  · rw [List.mem_cons, not_or]
    exact ⟨by decide, hdigits⟩
  · exact hdigits

/-- The doubles that are `int`s; `%e` and `%f` are never used for them. -/
def intOps : DoubleOps (BitVec 32) where
  isZero d := d == 0
  isInt valueint d := valueint == d
  isWhole _ := true
  isFar _ := false
  fixed0 d := ⟨formatInt d.toInt, nul_notMem_formatInt _⟩
  exponent d := ⟨formatInt d.toInt, nul_notMem_formatInt _⟩
  fixed d := ⟨formatInt d.toInt, nul_notMem_formatInt _⟩
  length_fixed0 d _ := (length_formatInt_lt d).trans (by decide)
  length_exponent d := (length_formatInt_lt d).trans (by decide)
  length_fixed d _ := (length_formatInt_lt d).trans (by decide)

/-! ## Strings -/

/-- The characters that the first loop of `print_string_ptr` looks for. -/
def needsEscape (b : UInt8) : Bool := (0 < b && b < 32) || b == 34 || b == 92

def hexLower (d : UInt8) : UInt8 := if d < 10 then 48 + d else 87 + d

/-- `%04x` of a byte. -/
def format04x (token : UInt8) : List UInt8 := [48, 48, hexLower (token / 16), hexLower (token % 16)]

/-- A character of a string, or its escape. -/
def escape (b : UInt8) : List UInt8 :=
  if 31 < b && b != 34 && b != 92 then [b]
  else if b = 92 then [92, 92]
  else if b = 34 then [92, 34]
  else if b = 8 then [92, 98]
  else if b = 12 then [92, 102]
  else if b = 10 then [92, 110]
  else if b = 13 then [92, 114]
  else if b = 9 then [92, 116]
  else 92 :: 117 :: format04x b

/-- What the second loop of `print_string_ptr` counts for a character. -/
def tokenLen (b : UInt8) : ℕ :=
  if b ∈ [34, 92, 8, 12, 10, 13, 9] then 2 else if b < 32 then 6 else 1

/-- A string in quotes. -/
def quote (str : List UInt8) : List UInt8 := 34 :: (str.flatMap escape ++ [34])

/-! ## Entries -/

def tabs (n : ℕ) : List UInt8 := List.replicate n 9

/-- A blank that only the formatted text has. -/
def blank (fmt : Bool) (b : UInt8) : List UInt8 := if fmt then [b] else []

/-- The tabs that only the formatted text has. -/
def indent (fmt : Bool) (depth : ℕ) : List UInt8 := if fmt then tabs depth else []

/-- The entries of an array, with commas in between. -/
def arrayText (fmt : Bool) : List (List UInt8) → List UInt8
  | [] => []
  | [entry] => entry
  | entry :: entries => entry ++ (44 :: blank fmt 32) ++ arrayText fmt entries

lemma arrayText_cons_cons (fmt : Bool) (entry next : List UInt8) (entries : List (List UInt8)) :
    arrayText fmt (entry :: next :: entries) =
      entry ++ (44 :: blank fmt 32) ++ arrayText fmt (next :: entries) := rfl

/-- A name and a value. -/
def memberText (fmt : Bool) (depth : ℕ) (member : List UInt8 × List UInt8) : List UInt8 :=
  indent fmt depth ++ member.1 ++ (58 :: blank fmt 9) ++ member.2

/-- The members of an object, with commas in between. -/
def membersText (fmt : Bool) (depth : ℕ) : List (List UInt8 × List UInt8) → List UInt8
  | [] => []
  | [member] => memberText fmt depth member ++ blank fmt 10
  | member :: members =>
    memberText fmt depth member ++ (44 :: blank fmt 10) ++ membersText fmt depth members

lemma membersText_cons_cons (fmt : Bool) (depth : ℕ) (member next : List UInt8 × List UInt8)
    (members : List (List UInt8 × List UInt8)) :
    membersText fmt depth (member :: next :: members) =
      memberText fmt depth member ++ (44 :: blank fmt 10) ++
        membersText fmt depth (next :: members) := rfl

/-- The text of an empty object. -/
def emptyObjectText (fmt : Bool) (depth : ℕ) : List UInt8 :=
  123 :: (blank fmt 10 ++ indent fmt (depth - 1) ++ [125])

/-- The text of an object whose members lie at `depth`. -/
def objectText (fmt : Bool) (depth : ℕ) (members : List (List UInt8 × List UInt8)) : List UInt8 :=
  123 :: (blank fmt 10 ++ membersText fmt depth members ++ indent fmt (depth - 1) ++ [125])

/-! ## The whole text -/

def nullText : List UInt8 := [110, 117, 108, 108]

def falseText : List UInt8 := [102, 97, 108, 115, 101]

def trueText : List UInt8 := [116, 114, 117, 101]

namespace Entity

mutual

/-- The text of an entity. -/
def text (fmt : Bool) (depth : ℕ) : Entity D → List UInt8
  | node fields child =>
    match fields.kind with
    | .null => nullText
    | .false => falseText
    | .true => trueText
    | .number => numberText ops fields.valueint fields.valuedouble
    | .string => quote (bytesOf fields.valuestring)
    | .array => 91 :: (arrayText fmt (texts fmt (depth + 1) child) ++ [93])
    | .object =>
      if child.isEmpty then emptyObjectText fmt depth
      else objectText fmt (depth + 1) (memberTexts fmt (depth + 1) child)

def texts (fmt : Bool) (depth : ℕ) : List (Entity D) → List (List UInt8)
  | [] => []
  | c :: child => c.text fmt depth :: texts fmt depth child

def memberTexts (fmt : Bool) (depth : ℕ) : List (Entity D) → List (List UInt8 × List UInt8)
  | [] => []
  | c :: child => (quote (bytesOf c.fields.string), c.text fmt depth) :: memberTexts fmt depth child

end

end Entity

/-! ## Lengths -/

section Pieces

/-- A property that can be decided of every byte. -/
lemma forall_byte {p : UInt8 → Prop} (h : ∀ n : Fin 256, p (UInt8.ofNat n)) (b : UInt8) : p b := by
  have hb := h ⟨b.toNat, b.toNat_lt⟩
  rwa [UInt8.ofNat_toNat] at hb

/-- The three forms of a printed character. -/
lemma escape_shape : ∀ b : UInt8, b ≠ 0 →
    (escape b = [b] ∧ b ≠ 34 ∧ b ≠ 92) ∨
    (∃ c ∈ ([92, 34, 98, 102, 110, 114, 116] : List UInt8),
      escape b = [92, c] ∧ c ≠ 117 ∧ unescaped c = b) ∨
    (escape b = 92 :: 117 :: format04x b ∧ b < 32) :=
  forall_byte (by decide +kernel)

/-- A hexadecimal digit is read back, and it neither ends a string nor escapes anything. -/
lemma hexDigit_hexLower : ∀ d : UInt8, d < 16 →
    hexDigit (hexLower d) = some d.toNat ∧ hexLower d ≠ 34 ∧ hexLower d ≠ 0 ∧ hexLower d ≠ 92 :=
  forall_byte (by decide +kernel)

lemma nibbles_lt : ∀ b : UInt8, b / 16 < 16 ∧ b % 16 < 16 := forall_byte (by decide +kernel)

end Pieces

section Lists
variable (fmt : Bool) (depth : ℕ) (child : List (Entity D))

lemma texts_eq : Entity.texts ops fmt depth child = child.map fun c => c.text ops fmt depth := by
  induction child with
  | nil => rfl
  | cons c child ih => rw [Entity.texts, ih, List.map_cons]

lemma memberTexts_eq : Entity.memberTexts ops fmt depth child =
    child.map fun c => (quote (Entity.bytesOf c.fields.string), c.text ops fmt depth) := by
  induction child with
  | nil => rfl
  | cons c child ih => rw [Entity.memberTexts, ih, List.map_cons]

end Lists

/-! ## No text contains a NUL -/

section NoNul

end NoNul

end IpncRdk.CJson
