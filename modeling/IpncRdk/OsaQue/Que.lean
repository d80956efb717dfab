import IpncRdk.Lib.CSemantics
import IpncRdk.Lib.CellRing
import IpncRdk.Lib.Run

/-!
# `osa_que.c` and `osa_msgq.c`: the queues that threads share

`OSA_QueHndl` and `OSA_MsgqHndl` are the same ring, of 32-bit values in memory that
`OSA_queCreate` allocates, and of message handles in an array of `OSA_MSGQ_LEN_MAX` cells. A
call takes the lock and tests the ring in a loop; between two tests it waits for a condition,
with the lock released. One pass of the loop under the lock is one atomic step.

The ring's counters are `Uint32` and never leave the range: they stay below or at `len`.
-/

namespace IpncRdk.OsaQue

open Lib

/-- `OSA_SOK` -/
abbrev osaSok : ℤ := 0

/-- `OSA_EFAIL` -/
abbrev osaEfail : ℤ := -1

/-- `OSA_TIMEOUT_NONE` -/
abbrev osaTimeoutNone : ℕ := 0

/-- `OSA_TIMEOUT_FOREVER` -/
abbrev osaTimeoutForever : ℕ := 2 ^ 32 - 1

/-- `OSA_MSGQ_LEN_MAX` -/
abbrev osaMsgqLenMax : ℕ := 32

/-- The ring of a queue, and the number of cells that its memory has room for. -/
structure Handle (α : Type) extends CellRing α where
  cells : ℕ

/-- The cells in use, oldest first. -/
abbrev Handle.contents {α : Type} (hndl : Handle α) : List α := hndl.toCellRing.contents

section Passes
variable {α : Type}

/-- One pass of the loop of `OSA_quePut` and `OSA_msgqSend`: a status ends the loop, `none`
waits for `condWr`. -/
def putPass (hndl : Handle α) (value : α) (timeout : ℕ) :
    Except Fault (Option ℤ × Handle α) :=
  if hndl.count < hndl.len then
    if hndl.curWr < hndl.cells then
      .ok (some osaSok, { hndl with toCellRing := hndl.toCellRing.put value })
    else .error .outOfBounds
  else if timeout = osaTimeoutNone then .ok (some osaEfail, hndl)
  else .ok (none, hndl)

/-- One pass of the loop of `OSA_queGet` and `OSA_msgqRecvMsg`, with the value it takes (and
stores where the caller's pointer is not `NULL`): a status ends the loop, `none` waits for
`condRd`. -/
def getPass (hndl : Handle α) (timeout : ℕ) :
    Except Fault (Option ℤ × Option α × Handle α) :=
  if hndl.count > 0 then
    if hndl.curRd < hndl.cells then
      .ok (some osaSok, some hndl.head, { hndl with toCellRing := hndl.toCellRing.get })
    else .error .outOfBounds
  else if timeout = osaTimeoutNone then .ok (some osaEfail, none, hndl)
  else .ok (none, none, hndl)

end Passes

/-! ## The two kinds of queue -/

/-- `OSA_QueHndl`, whose values are `Int32` -/
abbrev QueHndl : Type := Handle ℤ

/-- `OSA_queCreate`. The size of the memory, `sizeof(Int32) * len`, is a 32-bit product; `none`
is `malloc` without memory. -/
def osaQueCreate (maxLen : ℕ) (memory : Option (ℕ → ℤ)) : Option QueHndl :=
  memory.map fun queue => { toCellRing := .empty maxLen queue, cells := 4 * maxLen % 2 ^ 32 / 4 }

def osaQuePut (hndl : QueHndl) (value : ℤ) (timeout : ℕ) :
    Except Fault (Option ℤ × QueHndl) :=
  putPass hndl value timeout

def osaQueGet (hndl : QueHndl) (timeout : ℕ) :
    Except Fault (Option ℤ × Option ℤ × QueHndl) :=
  getPass hndl timeout

/-- `OSA_MsgqHndl`, over the message handles `M`. -/
abbrev MsgqHndl (M : Type) : Type := Handle M

/-- `OSA_msgqCreate` -/
def osaMsgqCreate {M : Type} (queue : ℕ → M) : MsgqHndl M :=
  { toCellRing := .empty osaMsgqLenMax queue, cells := osaMsgqLenMax }

def osaMsgqSend {M : Type} (hndl : MsgqHndl M) (msg : M) (timeout : ℕ) :
    Except Fault (Option ℤ × MsgqHndl M) :=
  putPass hndl msg timeout

def osaMsgqRecvMsg {M : Type} (hndl : MsgqHndl M) (timeout : ℕ) :
    Except Fault (Option ℤ × Option M × MsgqHndl M) :=
  getPass hndl timeout

/-! ## Any number of threads -/

/-- A call of a thread. -/
inductive Call (α : Type)
  | put (value : α) (timeout : ℕ)
  | get (timeout : ℕ)
  deriving DecidableEq, Repr

/-- The queue, the calls that wait for a condition, and the values of the completed puts and gets
in their order. -/
structure State (α : Type) where
  hndl : Handle α
  blocked : ℕ → Option (Call α)
  puts : List α
  gets : List α

inductive Event (α : Type)
  /-- a thread takes the lock and makes the first pass of a call -/
  | call (thread : ℕ) (c : Call α)
  /-- a thread that waits is woken and makes another pass -/
  | wake (thread : ℕ)
  deriving DecidableEq, Repr

section Threads
variable {α : Type}

/-- A queue nobody has used. -/
def fresh (hndl : Handle α) : State α := ⟨hndl, fun _ => none, [], []⟩

/-- One pass of a call, `none` where it has no defined outcome. -/
def pass (s : State α) (thread : ℕ) : Call α → Option (State α)
  | .put value timeout =>
    match putPass s.hndl value timeout with
    | .error _ => none
    | .ok (status, hndl) =>
      some
        { s with
          hndl := hndl
          blocked := Function.update s.blocked thread
            (if status = none then some (.put value timeout) else none)
          puts := if status = some osaSok then s.puts ++ [value] else s.puts }
  | .get timeout =>
    match getPass s.hndl timeout with
    | .error _ => none
    | .ok (status, value, hndl) =>
      some
        { s with
          hndl := hndl
          blocked := Function.update s.blocked thread
            (if status = none then some (.get timeout) else none)
          gets := s.gets ++ value.toList }

/-- The call that an event makes a pass of. -/
def enabled (s : State α) : Event α → Option (ℕ × Call α)
  | .call thread c => if s.blocked thread = none then some (thread, c) else none
  | .wake thread => (s.blocked thread).map fun c => (thread, c)

def step (s : State α) (e : Event α) : Option (State α) :=
  (enabled s e).bind fun tc => pass s tc.1 tc.2

end Threads

end IpncRdk.OsaQue
