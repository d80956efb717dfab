import IpncRdk.Lib.CString
import IpncRdk.Lib.Lines
import Mathlib.Data.Vector.Basic

/-!
# `ap_client.c`: the site survey

The driver answers a survey with a text: a heading and a line for each network, in columns of
fixed width. `wifi_site_survey` cuts it into lines with `strtok` and copies the columns of each
line into an entry of a table of 64.

* `SurveyTable` — an entry; `nextField`, `splitCrypto` — how it is filled;
* `strtok` — the next line of the buffer, cut off in place;
* `wifiSiteSurvey` — the table after a survey.
-/

namespace IpncRdk.ApClient

open Lib

abbrev blank : UInt8 := 32

abbrev slash : UInt8 := 47

/-- `IW_SCAN_MAX_DATA`, the size of the buffer. -/
abbrev iwScanMaxData : ℕ := 4096

/-- The size of the table `st`. -/
abbrev stSize : ℕ := 64

/-- `struct survey_table`. `crypto` points into `security`, or to the empty string. -/
structure SurveyTable where
  channel : List.Vector UInt8 4
  ssid : List.Vector UInt8 33
  bssid : List.Vector UInt8 20
  security : List.Vector UInt8 23
  crypto : Option ℕ
  deriving DecidableEq

namespace SurveyTable
variable (e : SurveyTable)

/-- `strcmp(text, e->ssid) == 0`; a name that fills its array goes on in the arrays behind it. -/
def ssidIs (text : List UInt8) : Bool :=
  text == cstr (e.ssid.toList ++ e.bssid.toList ++ e.security.toList)

/-- `strcmp(text, e->bssid) == 0` -/
def bssidIs (text : List UInt8) : Bool := text == cstr (e.bssid.toList ++ e.security.toList)

/-- The string at `crypto`. -/
def cryptoText : List UInt8 :=
  match e.crypto with
  | none => []
  | some i => cstr (e.security.toList.drop i)

end SurveyTable

/-! ## The columns of a line -/

/-- The loop of `next_field`. -/
def trim (output : List UInt8) : ℕ → List UInt8
  | 0 => output
  | i + 1 => if output[i + 1]? = some blank then trim (output.set (i + 1) 0) i else output

lemma length_trim (output : List UInt8) (i : ℕ) : (trim output i).length = output.length := by
  induction i generalizing output with
  | zero => rfl
  | succ i ih =>
    rw [trim]
    split
    · rw [ih, List.length_set]
    · rfl

/-- `next_field`; `line` reaches to the end of the buffer. -/
def nextField (line : List UInt8) (n : ℕ) : Except Fault (List.Vector UInt8 n × List UInt8) :=
  if h : n ≤ line.length then
    .ok (⟨trim (line.take n) (n - 1), by rw [length_trim, List.length_take_of_le h]⟩, line.drop n)
  else .error .outOfBounds

/-- The four columns of a line. -/
def fields (line : List UInt8) : Except Fault SurveyTable := do
  let channel ← nextField line 4
  let ssid ← nextField channel.2 33
  let bssid ← nextField ssid.2 20
  let security ← nextField bssid.2 23
  .ok ⟨channel.1, ssid.1, bssid.1, security.1, none⟩

/-- `strstr(security, "/")`, and the cut at the place it finds. -/
def splitCrypto (e : SurveyTable) : Except Fault SurveyTable :=
  let security := e.security.toList
  if (0 : UInt8) ∉ security then .error .outOfBounds
  else if slash ∈ cstr security then
    let i := security.idxOf slash
    .ok { e with
      security := ⟨security.set i 0, by rw [List.length_set, List.Vector.toList_length]⟩
      crypto := some (i + 1) }
  else .ok { e with crypto := none }

/-! ## The lines of the buffer -/

/-- `strtok(.., "\n")`, on the buffer from the place the search begins at to its end: the next
line, which reaches to the end of the buffer, and the place where the next search begins. -/
def strtok (buffer : List UInt8) : Except Fault (Option (List UInt8) × List UInt8) :=
  let tok := buffer.dropWhile (· == lf)
  let row := tok.takeWhile fun b => b != lf && b != 0
  match tok.drop row.length with
  | [] => .error .outOfBounds
  | b :: rest =>
    -- at the NUL behind the text
    if row = [] then .ok (none, tok)
    -- the newline is overwritten
    else if b = lf then .ok (some (row ++ 0 :: rest), rest)
    else .ok (some tok, b :: rest)

/-- The loop of `wifi_site_survey`: `rooms` entries are left. -/
def surveyLoop : ℕ → Option (List UInt8) → List UInt8 → Except Fault (List SurveyTable)
  | 0, _, _ => .ok []
  | _ + 1, none, _ => .ok []
  | rooms + 1, some line, buffer => do
    let e ← fields line
    let tok ← strtok buffer
    let e ← splitCrypto e
    let es ← surveyLoop rooms tok.1 tok.2
    .ok (e :: es)

/-- What the driver wrote into the buffer, which was cleared before. -/
structure Reply where
  text : List UInt8
  noNul : (0 : UInt8) ∉ text
  fits : text.length < iwScanMaxData

/-- The buffer with the text of the driver. -/
def Reply.buffer (r : Reply) : List UInt8 :=
  r.text ++ List.replicate (iwScanMaxData - r.text.length) 0

/-- `wifi_site_survey`: the first `survey_count` entries of `st`. No reply is a failed request. -/
def wifiSiteSurvey (st : List SurveyTable) : Option Reply → Except Fault (List SurveyTable)
  | none => .ok st
  | some r =>
    if r.text.length < 1 then .ok st
    else do
      let heading ← strtok (r.buffer.dropWhile (· == lf))
      let tok ← strtok heading.2
      surveyLoop stSize tok.1 tok.2

/-- The table has no more entries than it has room for. -/
lemma length_surveyLoop {rooms : ℕ} {line : Option (List UInt8)} {buffer : List UInt8}
    {es : List SurveyTable} (h : surveyLoop rooms line buffer = .ok es) : es.length ≤ rooms := by
  induction rooms generalizing line buffer es with
  | zero =>
    cases h
    exact le_refl 0
  | succ rooms ih =>
    cases line with
    | none =>
      cases h
      exact Nat.zero_le _
    | some line =>
      rw [surveyLoop] at h
      obtain ⟨e, -, h⟩ := bind_eq_ok_iff.mp h
      obtain ⟨tok, -, h⟩ := bind_eq_ok_iff.mp h
      obtain ⟨e', -, h⟩ := bind_eq_ok_iff.mp h
      obtain ⟨es', hes, h⟩ := bind_eq_ok_iff.mp h
      cases h
      exact Nat.succ_le_succ (ih hes)

end IpncRdk.ApClient
