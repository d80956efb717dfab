import IpncRdk.CJson.Parse
import IpncRdk.SysCfg.RunState

/-!
# `httpThread.c`: the reply of the server

`sendPostFile` sets `req_reply` as the write callback of libcurl, which calls it once for every
buffer of the reply's body. `req_reply` parses each buffer for itself. A buffer is not
terminated, so a read may run into the memory behind it.
-/

namespace IpncRdk.HttpThread

open Lib CJson
open SysCfg (Report)

/-- What `req_reply` changes: the report, and the string in `imgId`. -/
structure State where
  report : Report
  imgId : List UInt8
  deriving DecidableEq, Repr

/-- The buffer of one call, and the memory that can be read behind it. -/
structure Buffer where
  bytes : List UInt8
  behind : List UInt8
  deriving DecidableEq, Repr

def Buffer.mem (b : Buffer) : List UInt8 := b.bytes ++ b.behind

/-- `"code"` -/
def codeKey : List UInt8 := [99, 111, 100, 101]

/-- `"data"` -/
def dataKey : List UInt8 := [100, 97, 116, 97]

/-- `"predict_percent"` -/
def percentKey : List UInt8 :=
  [112, 114, 101, 100, 105, 99, 116, 95, 112, 101, 114, 99, 101, 110, 116]

/-- `"predict_result"` -/
def resultKey : List UInt8 :=
  [112, 114, 101, 100, 105, 99, 116, 95, 114, 101, 115, 117, 108, 116]

/-- `"image_id"` -/
def imageIdKey : List UInt8 := [105, 109, 97, 103, 101, 95, 105, 100]

/-- `"msg"` -/
def msgKey : List UInt8 := [109, 115, 103]

/-- A tree of the parser. Its doubles stand for the numbers as they are written. -/
abbrev Json : Type := Item Decimal

/-- `cJSON_Parse`. The number in `text` is cast to the `int` `intOf text`. -/
abbrev parseReply (intOf : List UInt8 → ℤ) (mem : List UInt8) : Except Fault (Option Json) :=
  parse (fun text => (Decimal.ofText text, intOf text)) mem

/-- `valueint` of a number without sign, point and exponent. -/
def decimal (text : List UInt8) : ℤ :=
  text.foldl (fun n b => n * 10 + ((b.toNat : ℤ) - 48)) 0

/-- What stands behind a pointer that the code does not check. -/
def deref {α : Type} : Option α → Except Fault α
  | none => .error .nullDeref
  | some a => .ok a

/-- `printf("%s\r\n", ptr)`, which reads up to a NUL. -/
def printText (mem : List UInt8) : Except Fault Unit :=
  if (0 : UInt8) ∈ mem then .ok () else .error .outOfBounds

/-- `snprintf(imgId, sizeof(imgId)-1, "%s", text)`: 63 bytes with the NUL. -/
def formatImgId (text : List UInt8) : List UInt8 := text.take 62

/-- The branch of `req_reply` for a reply with data. -/
def storeData (format : Json) (s : State) : Except Fault State := do
  let s := match getObjectItem format percentKey with
    | none => s
    | some node => { s with report := { s.report with percent := valueint node } }
  let s := match getObjectItem format resultKey with
    | none => s
    | some node => { s with report := { s.report with result := valueint node } }
  let s ← match getObjectItem format imageIdKey with
    | none => pure s
    | some node => do
      let text ← deref (valuestring node)
      pure { s with imgId := formatImgId text }
  pure { s with report := { s.report with isValid := true } }

/-- `req_reply` on one buffer. What it prints of a parsed reply reads nothing but the reply. -/
def reqReply (intOf : List UInt8 → ℤ) (b : Buffer) (s : State) : Except Fault State := do
  match ← parseReply intOf b.mem with
  | none => do
    printText b.mem
    pure s
  | some root => do
    let code ← deref (getObjectItem root codeKey)
    if valueint code = 0 then
      match getObjectItem root dataKey with
      | none => pure s
      | some format => storeData format s
    else do
      let msg ← deref (getObjectItem root msgKey)
      let _ ← deref (valuestring msg)
      pure s

/-- The calls that deliver a body in successive buffers. -/
def deliver (intOf : List UInt8 → ℤ) : List Buffer → State → Except Fault State
  | [], s => pure s
  | b :: bs, s => do
    let s ← reqReply intOf b s
    deliver intOf bs s

end IpncRdk.HttpThread
