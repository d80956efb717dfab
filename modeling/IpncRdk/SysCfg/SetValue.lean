import IpncRdk.SysCfg.GetValue

/-!
# `sysCfg.c`: writing a value of an INI file

`SetStringContentValue` reads the whole file into a table of 128 rows of 128 bytes, replaces
the row of the key or puts a new line in front of the first row of the section that does not
begin with a letter, and writes the rows back over the file from its start.
-/

namespace IpncRdk.SysCfg

open Lib

/-! ## The table of rows -/

/-- The rows of `lineArray`. -/
abbrev maxRows : ℕ := 128

/-- The reading loop, with the number of rows that are still free. The loop itself stops one
row too late: a file that is not at its end after 128 reads makes it use a row it does not
have. -/
def readRows : ℕ → Stream → Except Fault (List (List UInt8) × Stream)
  | 0, fp => if fp.eof then .ok ([], fp) else .error .outOfBounds
  | free + 1, fp =>
    if fp.eof then .ok ([], fp)
    else do
      let (rows, fp') ← readRows free (fgets 127 fp).2
      pure (cstr (fgets 127 fp).1 :: rows, fp')

/-! ## The place of the change -/

/-- What is done to the table: the values of `i` and `addLocaltion` after the search. -/
inductive Change
  | none
  | replace (row : ℕ)
  | insert (row : ℕ)
  deriving DecidableEq, Repr

/-- `isalpha(lineArray[i][0])` -/
def startsAlpha (row : List UInt8) : Bool := (row.head?.map isAlpha).getD false

/-- The tests inside the section at row `i`. -/
def changeAt (keyName : List UInt8) (i : ℕ) (row : List UInt8) : Option Change :=
  if strncasecmpEq keyName row then some (.replace i)
  else if row.head? = some 91 || !startsAlpha row then some (.insert i)
  else none

/-- The search, from row `i` on. Behind the header the next row is tested at once, even if it
lies behind the last one read; it is empty then. -/
def findChange (sectionName keyName : List UInt8) :
    ℕ → Bool → List (List UInt8) → Except Fault Change
  | _, _, [] => .ok .none
  | i, true, row :: rows =>
    match changeAt keyName i row with
    | some change => .ok change
    | none => findChange sectionName keyName (i + 1) true rows
  | i, false, row :: rows =>
    if strncasecmpEq (sectionHeader sectionName) row then
      if rows.isEmpty then
        if i + 1 < maxRows then .ok ((changeAt keyName (i + 1) []).getD .none)
        else .error .outOfBounds
      else findChange sectionName keyName (i + 1) true rows
    else findChange sectionName keyName (i + 1) false rows

/-! ## Writing the rows back -/

/-- `"%s=%s\r\n"` -/
def keyLine (keyName input : List UInt8) : List UInt8 := keyName ++ 61 :: (input ++ [cr, lf])

/-- `sprintf` into a row of 128 bytes, or into `tmp`. -/
def sprintfRow (text : List UInt8) : Except Fault (List UInt8) :=
  if text.length < 128 then .ok text else .error .outOfBounds

/-- The rows as they are written. A line to be inserted behind the last row is never reached
by the loop that writes. -/
def changedRows (rows : List (List UInt8)) (line : List UInt8) :
    Change → Except Fault (List (List UInt8))
  | .none => .ok rows
  | .replace i => (sprintfRow line).map fun text => rows.set i text
  | .insert i =>
    if i < rows.length then
      (sprintfRow line).map fun text => rows.take i ++ text :: rows.drop i
    else .ok rows

/-- `SetStringContentValue`. -/
def setStringContentValue (fp : Stream) (sectionName keyName input : List UInt8) :
    Except Fault Stream := do
  copyNames sectionName keyName
  let (rows, fp) ← readRows maxRows fp
  let change ← findChange sectionName keyName 0 false rows
  if change = .none then pure fp
  else do
    let rows ← changedRows rows (keyLine keyName input) change
    pure (fputs rows.flatten (rewind fp))

/-- `SetConfigFileStringValue` on a file, if it exists: what the file holds afterwards. -/
def setConfigFileStringValue (sectionName keyName input : List UInt8) :
    Option (List UInt8) → Except Fault (Option (List UInt8))
  | none => .ok none
  | some content =>
    (setStringContentValue (fopen content) sectionName keyName input).map fun fp =>
      some fp.content

/-- `SetConfigFileIntValue`, which formats the value in a buffer of four bytes. -/
def setConfigFileIntValue (sectionName keyName : List UInt8) (value : ℤ)
    (file : Option (List UInt8)) : Except Fault (Option (List UInt8)) := do
  let input := formatInt (wrap32 value)
  if input.length < 4 then setConfigFileStringValue sectionName keyName input file
  else .error .outOfBounds

end IpncRdk.SysCfg
