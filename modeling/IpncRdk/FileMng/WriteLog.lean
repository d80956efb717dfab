import IpncRdk.FileMng.LogList
import IpncRdk.Lib.Format

/-!
# `file_mng.c`: the log files

`WriteLogToFile` goes through the list of records with a callback that writes a record to the log
file of its day. The file that the first record opened stays open for the others, and a node is
deleted whatever became of its record.

* `savelogCallBack` — what is done with a record;
* `writeLogToFile` — a pass through the list;
* `Filed` — what has been removed from the list is in the file of its day;
* `filed_iff` — exactly the passes of which that is true.
-/

namespace IpncRdk.FileMng

open Lib

/-- What `localtime` returns. -/
structure Tm where
  year : ℕ
  mon : ℕ
  mday : ℕ
  hour : ℕ
  min : ℕ
  sec : ℕ

/-- `"/root/log/%04d_%02d_%02d.txt"` -/
def pathName (tm : Tm) : List UInt8 :=
  [47, 114, 111, 111, 116, 47, 108, 111, 103, 47] ++ padZeros 4 (digits (tm.year + 1900)) ++ [95] ++
    format02 (tm.mon + 1) ++ [95] ++ format02 tm.mday ++ [46, 116, 120, 116]

/-- `"[%02d:%02d:%02d]"` and the text of the record -/
def logLine (tm : Tm) (text : List UInt8) : List UInt8 :=
  [91] ++ format02 tm.hour ++ [58] ++ format02 tm.min ++ [58] ++ format02 tm.sec ++ [93] ++ text

/-- Whether `fopen` and `fputs` succeed for a record, if they are called. -/
structure Io where
  fopen : Bool
  fputs : Bool

/-- A record that was taken from the list, with the file and the line if it was written. -/
structure Visit where
  record : LogListNode
  written : Option (List UInt8 × List UInt8)

section
variable (localtime : ℕ → Tm)

/-- The line of a record, in the file of its day. -/
def ownLine (record : LogListNode) : List UInt8 × List UInt8 :=
  (pathName (localtime record.timeTamp), logLine (localtime record.timeTamp) record.text)

/-- `savelog_callBack`; `logFp` is the file that is open. The result is the line that was written,
if it was, and `logFp`. Where `fputs` fails, the time that `fprintf` has put in front of the text
stays in the file; it is not shown. -/
def savelogCallBack (io : Io) (record : LogListNode) (logFp : Option (List UInt8)) :
    Option (List UInt8 × List UInt8) × Option (List UInt8) :=
  let pTm := localtime record.timeTamp
  let logFp := match logFp with
    | none => if io.fopen then some (pathName pTm) else none
    | some file => some file
  match logFp with
  -- the callback returns, and the node is deleted all the same
  | none => (none, none)
  | some file =>
    if io.fputs then (some (file, logLine pTm record.text), some file)
    -- `fclose`; the next record opens the file again
    else (none, none)

/-- `list_foreach`: every node is deleted after the callback. -/
def listForeach : List (LogListNode × Io) → Option (List UInt8) → List Visit × Option (List UInt8)
  | [], logFp => ([], logFp)
  | (record, io) :: list, logFp =>
    let (written, logFp) := savelogCallBack localtime io record logFp
    let (visits, logFp) := listForeach list logFp
    (⟨record, written⟩ :: visits, logFp)

/-- What a pass leaves: the list, what was taken from it, and `logFp`. -/
structure Pass where
  list : List LogListNode
  visits : List Visit
  logFp : Option (List UInt8)

/-- `WriteLogToFile` -/
def writeLogToFile (isLog : ℤ) (list : List (LogListNode × Io)) (logFp : Option (List UInt8)) :
    Pass :=
  if isLog = 0 then ⟨list.map Prod.fst, [], logFp⟩
  else ⟨[], (listForeach localtime list logFp).1, none⟩

/-- What has been removed has been written, once and to the file of its day, and what has not been
written is still there. -/
structure Filed (pass : Pass) : Prop where
  written : ∀ v ∈ pass.visits, v.written = some (ownLine localtime v.record)
  kept : ∀ v ∈ pass.visits, v.written = none → v.record ∈ pass.list

/-- The file can be opened, all records can be written, and they all are of the day of the
first. -/
def OneDay : List (LogListNode × Io) → Prop
  | [] => True
  | (record, io) :: list =>
    io.fopen = true ∧ ∀ x ∈ (record, io) :: list, x.2.fputs = true ∧
      pathName (localtime x.1.timeTamp) = pathName (localtime record.timeTamp)

/-! ## A pass -/

variable {localtime}

/-- No file is open after a pass, and none before the first one. -/
lemma logFp_writeLogToFile (isLog : ℤ) (list : List (LogListNode × Io)) :
    (writeLogToFile localtime isLog list none).logFp = none := by
  unfold writeLogToFile
  split_ifs <;> rfl

/-- With a file open a record is written to it. -/
lemma savelogCallBack_some (io : Io) (record : LogListNode) (file : List UInt8) :
    savelogCallBack localtime io record (some file) = if io.fputs then
      (some (file, logLine (localtime record.timeTamp) record.text), some file) else (none, none) :=
  rfl

/-- Without one it is opened. -/
lemma savelogCallBack_none (io : Io) (record : LogListNode) :
    savelogCallBack localtime io record none = if io.fopen then
      savelogCallBack localtime io record (some (pathName (localtime record.timeTamp)))
    else (none, none) := by
  unfold savelogCallBack
  cases io.fopen <;> rfl

/-- The records are in their files when the open file is that of all of them. -/
lemma written_iff_of_open {list : List (LogListNode × Io)} {file : List UInt8} :
    (∀ v ∈ (listForeach localtime list (some file)).1,
      v.written = some (ownLine localtime v.record)) ↔
    ∀ x ∈ list, x.2.fputs = true ∧ pathName (localtime x.1.timeTamp) = file := by
  induction list with
  | nil => simp [listForeach]
  | cons x list ih =>
    obtain ⟨record, io⟩ := x
    rw [listForeach, savelogCallBack_some]
    by_cases hputs : io.fputs = true
    · -- the file stays open for the rest of the list
      rw [if_pos hputs]
      dsimp only
      rw [List.forall_mem_cons, List.forall_mem_cons, ih]
      refine and_congr_left fun _ => ?_
      rw [Option.some.injEq, ownLine, Prod.mk.injEq, and_iff_left rfl, and_iff_right hputs]
      exact eq_comm
    · rw [if_neg hputs]
      refine iff_of_false (fun h => ?_) fun h => hputs (h _ List.mem_cons_self).1
      exact absurd (h _ List.mem_cons_self) (by simp)

/-- The first record opens the file. -/
lemma written_iff {list : List (LogListNode × Io)} :
    (∀ v ∈ (listForeach localtime list none).1, v.written = some (ownLine localtime v.record)) ↔
      OneDay localtime list := by
  cases list with
  | nil => simp [listForeach, OneDay]
  | cons x list =>
    obtain ⟨record, io⟩ := x
    rw [OneDay]
    by_cases hopen : io.fopen = true
    · have hsame : listForeach localtime ((record, io) :: list) none =
          listForeach localtime ((record, io) :: list)
            (some (pathName (localtime record.timeTamp))) := by
        rw [listForeach, listForeach, savelogCallBack_none, if_pos hopen]
      rw [hsame, written_iff_of_open, and_iff_right hopen]
    · refine iff_of_false (fun h => ?_) fun h => hopen h.1
      have hfirst := h ⟨record, none⟩ (by
        rw [listForeach, savelogCallBack_none, if_neg hopen]
        exact List.mem_cons_self)
      cases hfirst

end

/-! ## The passes that file their records -/

theorem filed_iff (localtime : ℕ → Tm) (isLog : ℤ) (list : List (LogListNode × Io)) :
    Filed localtime (writeLogToFile localtime isLog list none) ↔
      isLog = 0 ∨ OneDay localtime list := by
  unfold writeLogToFile
  split_ifs with h
  · refine iff_of_true ⟨fun v hv => ?_, fun v hv => ?_⟩ (Or.inl h)
    · exact absurd hv List.not_mem_nil
    · exact absurd hv List.not_mem_nil
  · rw [or_iff_right h, ← written_iff]
    constructor
    · exact fun hfiled => hfiled.written
    · refine fun hwritten => ⟨hwritten, fun v hv hnone => ?_⟩
      rw [hwritten v hv] at hnone
      cases hnone

/-- The local time in January 1970, at longitude 0. -/
def january (t : ℕ) : Tm :=
  ⟨70, 0, t / 86400 + 1, t / 3600 % 24, t / 60 % 60, t % 60⟩

/-- The record of midnight is written to the file of the day before. -/
theorem midnight_not_filed :
    ¬ Filed january (writeLogToFile january 20
      [(⟨0, [97], 86399⟩, ⟨true, true⟩), (⟨0, [98], 86400⟩, ⟨true, true⟩)] none) := by
  intro h
  have hdays := written_iff.mp h.written
  have hsecond := hdays.2 (⟨0, [98], 86400⟩, ⟨true, true⟩) (by simp)
  exact absurd hsecond.2 (by decide)

end IpncRdk.FileMng
