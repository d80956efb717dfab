import IpncRdk.Lib.CString
import IpncRdk.Lib.Reader

/-!
# `cJSON.c`: the parser

`cJSON_Parse` reads one value from the start of a text and ignores what follows it. The
functions are readers of the memory that the text stands in; `none` is their null pointer. The
double arithmetic of `parse_number` is a parameter: `numOf text` is the double of the number in
`text`, and the `int` that it is cast to. `malloc` has memory for every item and every string: the
paths on which `cJSON_New_Item` or `parse_string` fail are left out.
-/

namespace IpncRdk.CJson

open Lib Reader

/-- A parsed item, with what its readers use of `cJSON`, over a type of doubles. -/
inductive Item (D : Type)
  | null
  | false
  | true
  | number (valuedouble : D) (valueint : ℤ)
  | string (valuestring : List UInt8)
  | array (items : List (Item D))
  | object (members : List (List UInt8 × Item D))

variable {D : Type}

/-! ## Blanks and numbers -/

/-- `skip`: white space and control characters. -/
def skip : Reader Unit := passWhile fun b => b ≠ 0 && b ≤ 32

def isDigit (b : UInt8) : Bool := 48 ≤ b && b ≤ 57

/-- The sign, a leading zero and the digits before the point. -/
def passInteger : Reader Unit := do
  passIf (· == 45)
  passIf (· == 48)
  let b ← peek
  if 49 ≤ b ∧ b ≤ 57 then passWhile isDigit else pure ()

/-- A point, when a digit follows it, and its digits. -/
def passFraction : Reader Unit := do
  if (← peek) = 46 then do
    let b ← look (do advance 1; peek)
    if isDigit b then do
      advance 1
      passWhile isDigit
    else pure ()
  else pure ()

/-- `e` or `E`, a sign and digits. -/
def passExponent : Reader Unit := do
  let b ← peek
  if b = 101 ∨ b = 69 then do
    advance 1
    passIf fun c => c == 43 || c == 45
    passWhile isDigit
  else pure ()

/-- `parse_number`. -/
def parseNumber (numOf : List UInt8 → D × ℤ) : Reader (Item D) := do
  let text ← consumed (do passInteger; passFraction; passExponent)
  pure (.number (numOf text).1 (numOf text).2)

/-- A number as it is written, `n * 10 ^ scale`, before any double rounds it. -/
structure Decimal where
  n : ℤ
  scale : ℤ
  deriving DecidableEq, Repr

namespace Decimal

/-- The digits in front of the point and behind it, and what follows them. -/
def splitPoint (text : List UInt8) : List UInt8 × List UInt8 × List UInt8 :=
  let rest := text.dropWhile isDigit
  if rest.head? = some 46 then
    (text.takeWhile isDigit, rest.tail.takeWhile isDigit, rest.tail.dropWhile isDigit)
  else (text.takeWhile isDigit, [], rest)

/-- The loops over the digits: `n = (n * 10) + (*num++ - '0')`. -/
def addDigits (text : List UInt8) : ℕ := text.foldl (fun n b => n * 10 + (b.toNat - 48)) 0

/-- `subscale * signsubscale`, from the `e` on. -/
def subscale (text : List UInt8) : ℤ :=
  let digits := text.tail
  if digits.head? = some 43 then addDigits digits.tail
  else if digits.head? = some 45 then -addDigits digits.tail
  else addDigits digits

/-- What `parse_number` reads in the text of a number. -/
def ofText (text : List UInt8) : Decimal :=
  let (sign, text) : ℤ × List UInt8 := if text.head? = some 45 then (-1, text.tail) else (1, text)
  let (int, frac, exp) := splitPoint text
  ⟨sign * addDigits (int ++ frac), subscale exp - frac.length⟩

/-- The number is the integer `k`. -/
def IsInt (d : Decimal) (k : ℤ) : Prop := d.n * 10 ^ d.scale.toNat = k * 10 ^ (-d.scale).toNat

instance (d : Decimal) (k : ℤ) : Decidable (d.IsInt k) :=
  inferInstanceAs (Decidable (d.n * 10 ^ d.scale.toNat = k * 10 ^ (-d.scale).toNat))

/-- `-1.25e1` and `120e-1`. -/
example : ofText [45, 49, 46, 50, 53, 101, 49] = ⟨-125, -1⟩ ∧
    (ofText [49, 50, 48, 101, 45, 49]).IsInt 12 := by decide

end Decimal

/-! ## Strings -/

def hexDigit (b : UInt8) : Option ℕ :=
  if 48 ≤ b ∧ b ≤ 57 then some (b.toNat - 48)
  else if 65 ≤ b ∧ b ≤ 70 then some (10 + b.toNat - 65)
  else if 97 ≤ b ∧ b ≤ 102 then some (10 + b.toNat - 97)
  else none

/-- The digits of `parse_hex4` that are left to read; a byte that is none makes the result 0. -/
def parseHex : ℕ → ℕ → Reader ℕ
  | 0, h => pure h
  | digits + 1, h => do
    match hexDigit (← peek) with
    | none => pure 0
    | some d => do
      advance 1
      parseHex digits (h * 16 + d)

/-- `parse_hex4`, which leaves the pointer of its caller where it is. -/
def parseHex4 : Reader ℕ := look (parseHex 4 0)

/-- The last six bits of a code point, as a continuation byte. -/
def continuation (uc : ℕ) : UInt8 := UInt8.ofNat ((uc ||| 0x80) &&& 0xBF)

/-- The UTF-8 bytes of a code point. -/
def utf8 (uc : ℕ) : List UInt8 :=
  if uc < 0x80 then [UInt8.ofNat uc]
  else if uc < 0x800 then [UInt8.ofNat ((uc >>> 6) ||| 0xC0), continuation uc]
  else if uc < 0x10000 then
    [UInt8.ofNat ((uc >>> 12) ||| 0xE0), continuation (uc >>> 6), continuation uc]
  else
    [UInt8.ofNat ((uc >>> 18) ||| 0xF0), continuation (uc >>> 12), continuation (uc >>> 6),
      continuation uc]

/-- `\u` and its digits, the pointer at the `u`; an invalid escape gives no bytes. -/
def transcode : Reader (List UInt8) := do
  advance 1
  let uc ← parseHex4
  advance 4
  if (0xDC00 ≤ uc ∧ uc ≤ 0xDFFF) ∨ uc = 0 then pure []
  else if 0xD800 ≤ uc ∧ uc ≤ 0xDBFF then do
    -- the second half of a surrogate pair
    if ← startsWith [92, 117] then do
      advance 2
      let uc2 ← parseHex4
      advance 4
      if uc2 < 0xDC00 ∨ 0xDFFF < uc2 then pure []
      else pure (utf8 (0x10000 + (((uc &&& 0x3FF) <<< 10) ||| (uc2 &&& 0x3FF))))
    else pure []
  else pure (utf8 uc)

/-- The byte that a `\` and another one stand for. -/
def unescaped (b : UInt8) : UInt8 :=
  if b = 98 then 8
  else if b = 102 then 12
  else if b = 110 then 10
  else if b = 114 then 13
  else if b = 116 then 9
  else b

/-- The byte or the escape at the pointer. -/
def parseChar : Reader (List UInt8) := do
  let b ← peek
  advance 1
  if b ≠ 92 then pure [b]
  else do
    let c ← peek
    if c = 117 then transcode
    else do
      advance 1
      pure [unescaped c]

/-- The first loop of `parse_string`: how many bytes the string needs at most. -/
def stringLen : ℕ → Reader ℕ
  | 0 => fault .diverges
  | fuel + 1 => do
    let b ← peek
    if b = 34 ∨ b = 0 then pure 0
    else do
      advance (if b = 92 then 2 else 1)
      let len ← stringLen fuel
      pure (len + 1)

/-- The second loop of `parse_string`, which fills the `len + 1` bytes of `out`. -/
def copyString (len : ℕ) : ℕ → List UInt8 → Reader (List UInt8)
  | 0, _ => fault .diverges
  | fuel + 1, out => do
    let b ← peek
    if b = 34 ∨ b = 0 then
      if out.length ≤ len then pure out else fault .outOfBounds
    else do
      let text ← parseChar
      if out.length + text.length ≤ len + 1 then copyString len fuel (out ++ text)
      else fault .outOfBounds

/-- `parse_string`; a string may also end at a NUL. -/
def parseString (fuel : ℕ) : Reader (Option (List UInt8)) := do
  if (← peek) ≠ 34 then pure none
  else do
    advance 1
    let len ← look (stringLen fuel)
    let out ← copyString len fuel []
    passIf (· == 34)
    pure (some (cstr out))

/-! ## Values -/

/-- The loop of `parse_array` and `parse_object` over items that are separated by commas. -/
def parseItems {α : Type} (parseItem : Reader (Option α)) (close : UInt8) :
    ℕ → Reader (Option (List α))
  | 0 => fault .diverges
  | fuel + 1 => do
    skip
    andThen parseItem fun item => do
      skip
      let b ← peek
      if b = 44 then do
        advance 1
        andThen (parseItems parseItem close fuel) fun items => pure (some (item :: items))
      else if b = close then do
        advance 1
        pure (some [item])
      else pure none

/-- What `parse_array` and `parse_object` do from their opening bracket on. -/
def parseBracket {α : Type} (parseItem : Reader (Option α)) (close : UInt8) (fuel : ℕ) :
    Reader (Option (List α)) := do
  advance 1
  skip
  if (← peek) = close then do
    advance 1
    pure (some [])
  else parseItems parseItem close fuel

/-- `parse_array`. -/
def parseArray (parseValue : Reader (Option (Item D))) (fuel : ℕ) : Reader (Option (Item D)) :=
  andThen (parseBracket parseValue 93 fuel) fun items => pure (some (.array items))

/-- A name, a colon and a value. -/
def parseMember (parseValue : Reader (Option (Item D))) (fuel : ℕ) :
    Reader (Option (List UInt8 × Item D)) :=
  andThen (parseString fuel) fun name => do
    skip
    if (← peek) = 58 then do
      advance 1
      skip
      andThen parseValue fun value => pure (some (name, value))
    else pure none

/-- `parse_object`. -/
def parseObject (parseValue : Reader (Option (Item D))) (fuel : ℕ) : Reader (Option (Item D)) :=
  andThen (parseBracket (parseMember parseValue fuel) 125 fuel) fun members =>
    pure (some (.object members))

/-- `parse_value`; an array or an object lies deeper by one level of fuel. -/
def parseValue (numOf : List UInt8 → D × ℤ) : ℕ → Reader (Option (Item D))
  | 0 => fault .diverges
  | fuel + 1 => do
    if ← startsWith [110, 117, 108, 108] then do
      advance 4
      pure (some .null)
    else if ← startsWith [102, 97, 108, 115, 101] then do
      advance 5
      pure (some .false)
    else if ← startsWith [116, 114, 117, 101] then do
      advance 4
      pure (some .true)
    else do
      let b ← peek
      if b = 34 then andThen (parseString fuel) fun text => pure (some (.string text))
      else if b = 45 ∨ isDigit b then do
        let item ← parseNumber numOf
        pure (some item)
      else if b = 91 then parseArray (parseValue numOf fuel) fuel
      else if b = 123 then parseObject (parseValue numOf fuel) fuel
      else pure none

/-- `cJSON_Parse` on the memory from its argument on. A value, a level or a round of a loop takes
a byte, so there are at most as many of them as there are bytes. -/
def parse (numOf : List UInt8 → D × ℤ) (mem : List UInt8) : Except Fault (Option (Item D)) := do
  let (root, _) ← (do skip; parseValue numOf (mem.length + 1)) mem
  pure root

/-! ## Access to items -/

/-- `cJSON_strcasecmp(name, string) == 0`. -/
def strcasecmpEq (name string : List UInt8) : Bool := name.map toLower == string.map toLower

/-- `cJSON_GetObjectItem`: the items of an array have no name, other items have no child. -/
def getObjectItem : Item D → List UInt8 → Option (Item D)
  | .object members, string => (members.find? fun m => strcasecmpEq m.1 string).map Prod.snd
  | _, _ => none

/-- `item->valueint`. -/
def valueint : Item D → ℤ
  | .number _ n => n
  | .true => 1
  | _ => 0

/-- `item->valuestring`. -/
def valuestring : Item D → Option (List UInt8)
  | .string text => some text
  | _ => none

end IpncRdk.CJson
