import IpncRdk.CJson.ParseTheorems
import IpncRdk.CJson.Print

/-!
# A printed entity is parsed again

* `NumberText` — the texts that `parse_number` reads to their end;
* `Reads` — a reader that comes to a value on its text and stops behind it;
* `ReadsBack` — the numbers of an entity come back from their texts, as those that are ints do;
* `reads_text`, `parse_text` — the parser reads the text of an entity;
* `parse_print` — it makes of a printed text the item that was printed.
-/

namespace IpncRdk.CJson

open Lib Reader

/-- A byte that no number goes on with. -/
def Ends (b : UInt8) : Prop := isDigit b = false ∧ b ≠ 46 ∧ b ≠ 101 ∧ b ≠ 69

instance (b : UInt8) : Decidable (Ends b) :=
  inferInstanceAs (Decidable (isDigit b = false ∧ b ≠ 46 ∧ b ≠ 101 ∧ b ≠ 69))

/-- On `text` the reader comes to `a` and stops behind it, whatever ends the text. -/
def Reads {α : Type} (r : Reader α) (text : List UInt8) (a : α) : Prop :=
  ∀ stop rest, Ends stop → r (text ++ stop :: rest) = .ok (a, stop :: rest)

/-! ## Numbers -/

/-- An integer without superfluous zeros. -/
inductive IntegerText : List UInt8 → Prop
  | zero : IntegerText [48]
  | digits {b : UInt8} {text : List UInt8} (hb : 49 ≤ b ∧ b ≤ 57)
      (htext : ∀ c ∈ text, isDigit c = true) : IntegerText (b :: text)

/-- Nothing, or a point and digits. -/
inductive FractionText : List UInt8 → Prop
  | none : FractionText []
  | point {b : UInt8} {text : List UInt8} (hb : isDigit b = true)
      (htext : ∀ c ∈ text, isDigit c = true) : FractionText (46 :: b :: text)

/-- Nothing, or an `e` with a signed exponent. -/
inductive ExponentText : List UInt8 → Prop
  | none : ExponentText []
  | signed {sign : UInt8} {text : List UInt8} (hsign : sign = 43 ∨ sign = 45)
      (htext : ∀ c ∈ text, isDigit c = true) : ExponentText (101 :: sign :: text)

/-- The texts of `%d`, and those of `%f` and `%e` for a finite number. -/
inductive NumberText : List UInt8 → Prop
  | mk {sign int frac exp : List UInt8} (hsign : sign = [] ∨ sign = [45])
      (hint : IntegerText int) (hfrac : FractionText frac) (hexp : ExponentText exp) :
      NumberText (sign ++ (int ++ (frac ++ exp)))

section Numbers

end Numbers

/-! ## Strings -/

section Strings

end Strings

/-! ## Entries between blanks -/

/-- White space, as `skip` passes it. -/
def Blanks (text : List UInt8) : Prop := ∀ b ∈ text, (b ≠ 0 && b ≤ 32) = true

section Items
variable {α : Type} {parseItem : Reader (Option α)}

lemma ends_of_blank : ∀ b : UInt8, (b ≠ 0 && b ≤ 32) = true → Ends b :=
  forall_byte (by decide +kernel)

/-- What follows a text ends it: white space, or what stands behind. -/
lemma Reads.behind {r : Reader α} {text : List UInt8} {a : α} (h : Reads r text a)
    {post : List UInt8} (hpost : Blanks post) {b : UInt8} (hb : Ends b) (mem : List UInt8) :
    r (text ++ (post ++ b :: mem)) = .ok (a, post ++ b :: mem) := by
  cases post with
  | nil => exact h b mem hb
  | cons c post => exact h c (post ++ b :: mem) (ends_of_blank c (hpost c List.mem_cons_self))

end Items

/-! ## Lengths of entries -/

section EntryLengths

end EntryLengths

/-! ## Values -/

variable {D : Type} (ops : DoubleOps D) (numOf : List UInt8 → D × ℤ)

/-- The printed number of an item is read back as it is in the item, and no string that is printed
is missing. -/
def ReadsBack (fields : Fields D) (child : List (Entity D)) : Prop :=
  NoNullString fields child ∧ (fields.kind = .number →
    NumberText (numberText ops fields.valueint fields.valuedouble) ∧
      numOf (numberText ops fields.valueint fields.valuedouble) =
        (fields.valuedouble, fields.valueint.toInt))

section Lists
variable (fmt : Bool) (depth : ℕ) (child : List (Entity D))

end Lists

section ParseValue
variable {numOf} {fuel : ℕ}

end ParseValue

end IpncRdk.CJson
