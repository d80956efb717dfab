import IpncRdk.Lib.Format

/-!
# `sscanf`

What the models use of `sscanf`: formats of a literal text and one number, `"..%d"`.

* `Scan` — the result: the number, a mismatch, or the end of the text before either;
* `sscanf` — the scan of a text.
-/

namespace IpncRdk.Lib

/-- What a scan with one conversion comes to: `EOF`, 0 or 1 is returned. -/
inductive Scan
  | eof
  | mismatch
  | value (n : ℤ)
  deriving DecidableEq, Repr

/-- The number that is stored, if one is. -/
def Scan.stored : Scan → Option ℤ
  | .value n => some n
  | _ => none

/-- A decimal digit. -/
def isDigit (b : UInt8) : Bool := 48 ≤ b && b ≤ 57

/-- `%d`: white space, a sign and digits. -/
def scanNumber (text : List UInt8) : Scan :=
  match text.dropWhile isSpace with
  | [] => .eof
  | b :: rest =>
    let digits := if b = 43 ∨ b = 45 then rest else b :: rest
    if (digits.head?.map isDigit).getD false then .value (atoi (b :: rest)) else .mismatch

/-- `sscanf(text, "<literal>%d", &n)`: a blank of the literal stands for any white space. -/
def sscanf : List UInt8 → List UInt8 → Scan
  | [], text => scanNumber text
  | c :: literal, text =>
    if isSpace c then sscanf literal (text.dropWhile isSpace)
    else match text with
      | [] => .eof
      | b :: rest => if b = c then sscanf literal rest else .mismatch

end IpncRdk.Lib
