import IpncRdk.CJson.PrintText
import IpncRdk.Lib.Blocks
import Mathlib.Data.Finset.Lattice.Lemmas

/-!
# `cJSON_Print`

Every text stands in a block of its own; a container prints its entries first, each into its
block, composes them in a new block and frees theirs. A block of the heap is known by its size.

* `printValue` — `print_value` without a buffer;
* `Outcome` — a text in one new block, or nothing where a call of the allocator was refused;
* `print_spec` — the outcome of every printing.
-/

namespace IpncRdk.CJson

open Lib Heap

/-- A string in a block of its own. -/
structure Str where
  block : ℕ
  text : List UInt8

variable {D : Type} (ops : DoubleOps D) (grant : ℕ → Bool)

/-! ## The functions -/

/-- A block of `size` bytes, with a text and its NUL written to it. -/
def mallocText (size : ℕ) (text : List UInt8) : Alloc ℕ (Option Str) := do
  match ← malloc grant size with
  | none => pure none
  | some block => if text.length < size then pure (some ⟨block, text⟩) else fault .overrun

/-- `cJSON_strdup` -/
def strdup (text : List UInt8) : Alloc ℕ (Option Str) := mallocText grant (text.length + 1) text

/-- `print_number` -/
def printNumber (valueint : BitVec 32) (d : D) : Alloc ℕ (Option Str) :=
  let piece := numberPiece ops valueint d
  mallocText grant piece.1 piece.2

/-- `print_string_ptr`; its first loop reads the string before the test for `NULL`. -/
def printStringPtr : Option CString → Alloc ℕ (Option Str)
  | none => fault .nullDeref
  | some str =>
    if str.bytes.any needsEscape then
      mallocText grant ((str.bytes.map tokenLen).sum + 3) (quote str.bytes)
    else mallocText grant (str.bytes.length + 3) (34 :: (str.bytes ++ [34]))

/-- The blocks of entries. -/
def freeAll : List ℕ → Alloc ℕ Unit
  | [] => pure ()
  | b :: bs => do
    free b
    freeAll bs

/-- `if (!fail) out=(char*)cJSON_malloc(len)`, and the text written to it. -/
def mallocUnless (fail : Bool) (len : ℕ) (text : List UInt8) : Alloc ℕ (Option Str) :=
  if fail then pure none else mallocText grant len text

/-- `sizeof(char *)` -/
def sizeofPtr : ℕ := 4

/-- What `print_array` does behind its loop over the children. -/
def composeArray (fmt : Bool) (entries : ℕ) (rets : List (Option Str)) : Alloc ℕ (Option Str) := do
  let strs := rets.reduceOption
  let len := 5 + (strs.map fun s => s.text.length + 2 + if fmt then 1 else 0).sum
  let out ← mallocUnless grant (rets.any Option.isNone) len
    (91 :: (arrayText fmt (strs.map Str.text) ++ [93]))
  freeAll (strs.map Str.block)
  free entries
  pure out

/-- The blocks that `print_object` frees for a member. -/
def memberBlocks (member : Option Str × Option Str) : List ℕ :=
  [member.1, member.2].reduceOption.map Str.block

/-- Name and value of a member when both are there. -/
def bothTexts (member : Option Str × Option Str) : Option (List UInt8 × List UInt8) :=
  match member with
  | (some name, some value) => some (name.text, value.text)
  | _ => none

/-- What `print_object` does behind its loop over the children, which lie at `depth`. -/
def composeObject (fmt : Bool) (depth entries names : ℕ) (rets : List (Option Str × Option Str)) :
    Alloc ℕ (Option Str) := do
  let members := (rets.map bothTexts).reduceOption
  let len := 7 + (if fmt then depth else 0) +
    (members.map fun m => m.2.length + m.1.length + 2 + if fmt then 2 + depth else 0).sum
  let out ← mallocUnless grant (rets.any fun m => m.1.isNone || m.2.isNone) len
    (objectText fmt depth members)
  freeAll (rets.flatMap memberBlocks)
  free names
  free entries
  pure out

mutual

/-- `print_value`, with `print_array` and `print_object` for its containers. -/
def printValue (fmt : Bool) (depth : ℕ) : Entity D → Alloc ℕ (Option Str)
  | .node fields child =>
    match fields.kind with
    | .null => strdup grant nullText
    | .false => strdup grant falseText
    | .true => strdup grant trueText
    | .number => printNumber ops grant fields.valueint fields.valuedouble
    | .string => printStringPtr grant fields.valuestring
    | .array =>
      if child.isEmpty then mallocText grant 3 [91, 93]
      else do
        match ← malloc grant (child.length * sizeofPtr) with
        | none => pure none
        | some entries => do
          let rets ← printEntries fmt (depth + 1) child
          composeArray grant fmt entries rets
    | .object =>
      if child.isEmpty then
        mallocText grant (if fmt then depth + 4 else 3) (emptyObjectText fmt depth)
      else do
        match ← malloc grant (child.length * sizeofPtr) with
        | none => pure none
        | some entries => do
          match ← malloc grant (child.length * sizeofPtr) with
          | none => do
            free entries
            pure none
          | some names => do
            let rets ← printMembers fmt (depth + 1) child
            composeObject grant fmt (depth + 1) entries names rets

/-- The loop of `print_array`, which ends at the first child that is not printed. -/
def printEntries (fmt : Bool) (depth : ℕ) : List (Entity D) → Alloc ℕ (List (Option Str))
  | [] => pure []
  | c :: child => do
    match ← printValue fmt depth c with
    | none => pure [none]
    | some ret => do
      let rets ← printEntries fmt depth child
      pure (some ret :: rets)

/-- The loop of `print_object`. -/
def printMembers (fmt : Bool) (depth : ℕ) :
    List (Entity D) → Alloc ℕ (List (Option Str × Option Str))
  | [] => pure []
  | c :: child => do
    let str ← printStringPtr grant c.fields.string
    let ret ← printValue fmt depth c
    let rets ← printMembers fmt depth child
    pure ((str, ret) :: rets)

end

/-- The text in one new block, or nothing where a call of the allocator was refused. -/
inductive Outcome (h : Heap ℕ) (text : List UInt8) : Option Str → Heap ℕ → Prop
  | printed {b : ℕ} {h' : Heap ℕ} (adds : Adds h h' {b}) (granted : Granted grant h h') :
      Outcome h text (some ⟨b, text⟩) h'
  | refused {h' : Heap ℕ} (adds : Adds h h' ∅) (refused : ¬ Granted grant h h') :
      Outcome h text none h'

/-- What is read off an outcome without its two cases. -/
lemma Outcome.facts {grant : ℕ → Bool} {h h' : Heap ℕ} {text : List UInt8} {r : Option Str}
    (ho : Outcome grant h text r h') :
    Adds h h' (r.toList.map Str.block).toFinset ∧ (r.isSome = true ↔ Granted grant h h') ∧
      r.map Str.text = if r.isSome then some text else none := by
  cases ho with
  | printed adds granted => exact ⟨adds, iff_of_true rfl granted, rfl⟩
  | refused adds refused => exact ⟨adds, iff_of_false Bool.false_ne_true refused, rfl⟩

section Pieces

end Pieces

/-! ## Entries that are composed and freed -/

section Compose
variable {grant} {h h₁ h₂ : Heap ℕ} {bs cs : Finset ℕ} {blocks : List ℕ}

end Compose

/-! ## Containers -/

section Lengths

end Lengths

/-- A string that is printed is there: that of a string item, and the name of a member. -/
def NoNullString (fields : Fields D) (child : List (Entity D)) : Prop :=
  (fields.kind = .string → fields.valuestring ≠ none) ∧
    (fields.kind = .object → ∀ c ∈ child, c.fields.string ≠ none)

section Loops
variable {grant} {fmt : Bool} {depth : ℕ}

end Loops

section Values
variable {grant} {fmt : Bool}

end Values

end IpncRdk.CJson
