import IpncRdk.Lib.CString
import IpncRdk.Lib.Format
import IpncRdk.Lib.Stream

/-!
# `sysCfg.c`: reading a value of an INI file

`GetStringContentValue` scans a file for the header of a section and then for a key. It reads
into buffers of 256 bytes, builds the header and copies the key into buffers of 100 bytes, and
stores the value byte by byte in the buffer of its caller.
-/

namespace IpncRdk.SysCfg

open Lib

/-! ## One line of a section -/

/-- `"[%s]"` -/
def sectionHeader (sectionName : List UInt8) : List UInt8 := 91 :: (sectionName ++ [93])

/-- `sprintf(szSectionName, "[%s]", pszSectionName)` and `strcpy(szKeyName, pszKeyName)`. -/
def copyNames (sectionName keyName : List UInt8) : Except Fault Unit :=
  if (sectionHeader sectionName).length < 100 ∧ keyName.length < 100 then .ok ()
  else .error .outOfBounds

/-- What stands behind the `=` of a line that begins with the key; blanks may precede it. -/
def textBehindEq (keyName line : List UInt8) : Option (List UInt8) :=
  match (line.drop keyName.length).dropWhile (· == 32) with
  | b :: text => if b = 61 then some text else none
  | [] => none

/-- What the scan of a section does at a line. -/
inductive Reaction
  | skip
  | stop
  | value (text : List UInt8)
  deriving DecidableEq, Repr

/-- The tests of the inner loop: a comment, the key, the next section. -/
def react (keyName line : List UInt8) : Reaction :=
  if line.head? = some 59 then .skip
  else if strncasecmpEq keyName line then
    match textBehindEq keyName line with
    | some text => .value text
    | none => .skip
  else if line.head? = some 91 then .stop
  else .skip

/-! ## The value -/

/-- `'\r'`, `'\n'` or the end of the string. -/
def endsValue (b : UInt8) : Bool := b == cr || b == lf || b == 0

/-- The loop that copies a value without its leading blanks, up to the end of the line or of
the caller's buffer. -/
def copyValue (outputLen : ℕ) :
    List UInt8 → Bool → ℕ → List UInt8 → Except Fault (ℕ × List UInt8)
  | [], _, i, output => .ok (i, output)
  | b :: text, meetStartFlag, i, output =>
    if meetStartFlag = false ∧ b = 32 then copyValue outputLen text false i output
    else if endsValue b then .ok (i, output)
    else do
      let output ← put output i b
      if i + 1 = outputLen then
        let output ← put output (outputLen - 1) 0
        pure (i + 1, output)
      else copyValue outputLen text true (i + 1) output

/-- The value of a line goes to the caller's buffer, which keeps its default where the value
is empty. -/
def storeValue (outputLen : ℕ) (text output : List UInt8) : Except Fault (List UInt8) := do
  let (i, output) ← copyValue outputLen text false 0 output
  if 0 < i then put output i 0 else pure output

/-! ## The loops over the file -/

/-- The inner loop, from the line behind the header on. -/
def scanKeys (keyName : List UInt8) (outputLen : ℕ) :
    ℕ → Stream → List UInt8 → Except Fault (List UInt8)
  | 0, _, _ => .error .diverges
  | fuel + 1, fp, output =>
    if fp.eof then .ok output
    else match react keyName (cstr (fgets 256 fp).1) with
      | .skip => scanKeys keyName outputLen fuel (fgets 256 fp).2 output
      | .stop => .ok output
      | .value text => storeValue outputLen text output

/-- The lines that the search for the header passes over: comments and empty ones. -/
def passedOver (line : List UInt8) : Bool :=
  match line with
  | [] => true
  | b :: _ => b == 59 || b == cr || b == lf

/-- The outer loop. -/
def scanSections (sectionName keyName : List UInt8) (outputLen : ℕ) :
    ℕ → Stream → List UInt8 → Except Fault (List UInt8)
  | 0, _, _ => .error .diverges
  | fuel + 1, fp, output =>
    if fp.eof then .ok output
    else if passedOver (cstr (fgets 256 fp).1) then
      scanSections sectionName keyName outputLen fuel (fgets 256 fp).2 output
    else if strncasecmpEq (sectionHeader sectionName) (cstr (fgets 256 fp).1) then
      scanKeys keyName outputLen fuel (fgets 256 fp).2 output
    else scanSections sectionName keyName outputLen fuel (fgets 256 fp).2 output

/-- `GetStringContentValue`, with fuel for its loops. -/
def getStringContentValue (fuel : ℕ) (fp : Stream) (sectionName keyName output : List UInt8)
    (outputLen : ℕ) : Except Fault (List UInt8) := do
  copyNames sectionName keyName
  scanSections sectionName keyName outputLen fuel fp output

/-- `GetConfigFileStringValue` on a file, if it exists. A read takes a byte or meets the end of
the file, so the loops run at most once more than there are bytes. -/
def getConfigFileStringValue (sectionName keyName : List UInt8) (defaultVal : Option (List UInt8))
    (output : List UInt8) (outputLen : ℕ) (file : Option (List UInt8)) :
    Except Fault (List UInt8) := do
  let output ← strcpy output (defaultVal.getD [])
  match file with
  | none => pure output
  | some content =>
    getStringContentValue (content.length + 2) (fopen content) sectionName keyName output outputLen

/-- `GetConfigFileIntValue`, with its buffer of 512 bytes; a comment counts as no value. -/
def getConfigFileIntValue (sectionName keyName : List UInt8) (defaultVal : ℤ)
    (file : Option (List UInt8)) : Except Fault ℤ := do
  let area ← getConfigFileStringValue sectionName keyName none (List.replicate 512 0) 511 file
  match cstr area with
  | [] => pure defaultVal
  | b :: text => pure (if b = 59 then defaultVal else atoi (b :: text))

end IpncRdk.SysCfg
