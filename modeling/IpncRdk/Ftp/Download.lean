import IpncRdk.Lib.Scan

/-!
# `ftp.c`: the download of an upgrade

`download_file` fetches a file over HTTP, from the end of what is there of it already on, and
removes it if no header line was taken for the status 200. The number that a line is judged by is
a local variable, which only the lines of a status set.

* `getContentLengthFunc` — the callback for a header line;
* `downloadFile` — the local file after the call;
* `Faithful` — it is there exactly when it was delivered;
* `faithful_iff` — exactly the responses for which that is true.
-/

namespace IpncRdk.Ftp

open Lib

/-- `"HTTP/1.1 "` -/
abbrev statusLiteral : List UInt8 := [72, 84, 84, 80, 47, 49, 46, 49, 32]

/-- `"Content-Length: "` -/
abbrev lengthLiteral : List UInt8 :=
  [67, 111, 110, 116, 101, 110, 116, 45, 76, 101, 110, 103, 116, 104, 58, 32]

/-- What the callback changes: the flag, and `filesize` of `download`. -/
structure Progress where
  isError : Bool
  filesize : ℤ

/-- The number a header line has behind `HTTP/1.1`. -/
def errCode (line : List UInt8) : Option ℤ := (sscanf statusLiteral line).stored

/-- `getcontentlengthfunc`; `junk` is what `errCode` holds before it is set. -/
def getContentLengthFunc (junk : ℤ) (line : List UInt8) (p : Progress) : Progress :=
  let filesize := match sscanf lengthLiteral line with
    | .value len => len
    -- `EOF` is not 0
    | .eof => 0
    | .mismatch => p.filesize
  -- a line that is not for a status leaves what was on the stack
  let isError := if (errCode line).getD junk = 200 then false else p.isError
  ⟨isError, filesize⟩

/-- What a download meets: the local file, whether it can be opened, and the response. -/
structure Upgrade where
  file : Option (List UInt8)
  fopen : Bool
  headers : List (List UInt8)
  body : List UInt8

namespace Upgrade
variable (u : Upgrade)

/-- The header lines that are delivered; without the file no request is made. -/
def received : List (List UInt8) := if u.fopen then u.headers else []

/-- `CURLOPT_RESUME_FROM_LARGE`: the length of the local file, 0 if there is none. -/
def resumeFrom : ℕ :=
  match u.file with
  | none => 0
  | some content => content.length

end Upgrade

/-- The callbacks for the lines from the `i`-th on; `junk i` is on the stack at the `i`-th. -/
def deliver (junk : ℕ → ℤ) : ℕ → List (List UInt8) → Progress → Progress
  | _, [], p => p
  | i, line :: lines, p => deliver junk (i + 1) lines (getContentLengthFunc (junk i) line p)

/-- `download`: the flag and the local file. -/
def download (junk : ℕ → ℤ) (u : Upgrade) (isError : Bool) : Bool × Option (List UInt8) :=
  if !u.fopen then (isError, u.file)
  else ((deliver junk 0 u.headers ⟨isError, 0⟩).isError, some (u.file.getD [] ++ u.body))

/-- `download_file`: the local file after the call. -/
def downloadFile (junk : ℕ → ℤ) (u : Upgrade) : Option (List UInt8) :=
  let (isError, file) := download junk u true
  if isError then none else file

/-! ## The property -/

/-- `"HTTP/"` -/
abbrev httpLiteral : List UInt8 := [72, 84, 84, 80, 47]

/-- The status of a status line: `HTTP/`, the version, a blank and three digits. -/
def status (line : List UInt8) : Option ℤ :=
  if line.take 5 = httpLiteral then
    match ((line.dropWhile (· != 32)).drop 1).take 3 with
    | [a, b, c] => if isDigit a && isDigit b && isDigit c then some (atoi [a, b, c]) else none
    | _ => none
  else none

/-- The status of the last response; those before it are interim ones and redirections. -/
def finalStatus (lines : List (List UInt8)) : Option ℤ := (lines.filterMap status).getLast?

/-- The request succeeds: 206 is the answer to one that resumes, 200 to one for the whole file. -/
def Delivered (u : Upgrade) : Prop :=
  finalStatus u.received = some (if u.resumeFrom = 0 then 200 else 206)

/-- Whatever is on the stack, the file is kept exactly when it was delivered. -/
def Faithful (u : Upgrade) : Prop :=
  ∀ junk, (downloadFile junk u).isSome = true ↔ Delivered u

/-- A response with a line for the status 200 that is a success, or one that is no success and has
nothing but lines for other states. -/
def Decided (u : Upgrade) : Prop :=
  (Delivered u ∧ ∃ line ∈ u.received, errCode line = some 200) ∨
    (¬ Delivered u ∧ ∀ line ∈ u.received, ∃ code, errCode line = some code ∧ code ≠ 200)

/-! ## The lines -/

section Lines
variable {junk : ℕ → ℤ} {u : Upgrade}

lemma isError_getContentLengthFunc (j : ℤ) (line : List UInt8) (p : Progress) :
    (getContentLengthFunc j line p).isError = false ↔
      (errCode line).getD j = 200 ∨ p.isError = false := by
  unfold getContentLengthFunc
  dsimp only
  split_ifs with h
  · exact iff_of_true rfl (Or.inl h)
  · rw [or_iff_right h]

/-- The flag is cleared by a line that is taken for 200. -/
lemma isError_deliver (junk : ℕ → ℤ) (i : ℕ) (lines : List (List UInt8)) (p : Progress) :
    (deliver junk i lines p).isError = false ↔
      p.isError = false ∨
        ∃ k line, lines[k]? = some line ∧ (errCode line).getD (junk (i + k)) = 200 := by
  induction lines generalizing i p with
  | nil => simp [deliver]
  | cons line lines ih =>
    rw [deliver, ih, isError_getContentLengthFunc]
    constructor
    · rintro ((h | h) | ⟨k, l, hl, h⟩)
      · exact Or.inr ⟨0, line, rfl, h⟩
      · exact Or.inl h
      · exact Or.inr ⟨k + 1, l, hl, by rw [show i + (k + 1) = i + 1 + k by omega, h]⟩
    · rintro (h | ⟨k, l, hl, h⟩)
      · exact Or.inl (Or.inr h)
      · cases k with
        | zero =>
          rw [List.getElem?_cons_zero, Option.some.injEq] at hl
          exact Or.inl (Or.inl (hl ▸ h))
        | succ k => exact Or.inr ⟨k, l, hl, by rw [show i + 1 + k = i + (k + 1) by omega, h]⟩

/-- The file is kept when a line is taken for 200. -/
lemma isSome_downloadFile : (downloadFile junk u).isSome = true ↔
    ∃ k line, u.received[k]? = some line ∧ (errCode line).getD (junk k) = 200 := by
  unfold downloadFile download Upgrade.received
  cases u.fopen with
  | false => simp
  | true =>
    have hflag := isError_deliver junk 0 u.headers ⟨true, 0⟩
    simp only [Nat.zero_add, Bool.true_eq_false, false_or] at hflag
    simp only [Bool.not_true, Bool.false_eq_true, if_false, if_true]
    rw [← hflag]
    cases (deliver junk 0 u.headers ⟨true, 0⟩).isError <;> simp

end Lines

/-! ## The responses that are judged right -/

theorem faithful_iff (u : Upgrade) : Faithful u ↔ Decided u := by
  unfold Faithful Decided
  simp only [isSome_downloadFile]
  constructor
  · intro h
    by_cases hd : Delivered u
    · -- with no line for 200, a stack of zeros loses the file
      obtain ⟨k, line, hline, hcode⟩ := (h fun _ => 0).mpr hd
      refine Or.inl ⟨hd, line, List.mem_of_getElem? hline, ?_⟩
      cases hc : errCode line with
      | none => simp [hc] at hcode
      | some code => simpa [hc] using hcode
    · -- a stack of 200s keeps it, at a line that is not for a status
      refine Or.inr ⟨hd, fun line hmem => ?_⟩
      obtain ⟨k, hline⟩ := List.getElem?_of_mem hmem
      have hnot : ¬ (errCode line).getD 200 = 200 := fun hcode =>
        hd ((h fun _ => 200).mp ⟨k, line, hline, hcode⟩)
      cases hc : errCode line with
      | none => simp [hc] at hnot
      | some code => exact ⟨code, rfl, by simpa [hc] using hnot⟩
  · rintro (⟨hd, line, hmem, hcode⟩ | ⟨hd, hall⟩) junk
    · obtain ⟨k, hline⟩ := List.getElem?_of_mem hmem
      exact iff_of_true ⟨k, line, hline, by rw [hcode, Option.getD_some]⟩ hd
    · refine iff_of_false ?_ hd
      rintro ⟨k, line, hline, hcode⟩
      obtain ⟨code, hsome, hne⟩ := hall line (List.mem_of_getElem? hline)
      rw [hsome, Option.getD_some] at hcode
      exact hne hcode

/-- A download that goes on from a file of one byte: `HTTP/1.1 206` is its only header line. -/
def resumed : Upgrade where
  file := some [1]
  fopen := true
  headers := [statusLiteral ++ [50, 48, 54, 13, 10]]
  body := [2]

/-- The file that was completed is removed. -/
theorem resumed_not_faithful : Delivered resumed ∧ ¬ Faithful resumed := by
  have hd : Delivered resumed := by
    unfold Delivered
    decide
  refine ⟨hd, fun h => ?_⟩
  exact absurd ((h fun _ => 0).mpr hd) (by decide)

end IpncRdk.Ftp
