import IpncRdk.Lib.CSemantics
import IpncRdk.Lib.Run
import Mathlib.Logic.Function.Basic

/-!
# `timerThr.c`: the task list and the thread that checks it

The task list hangs off `pTaskHead`; other threads edit it through `RegisterProc` and
`UnRegisterProc`, the checker `timerTaskChkThr` scans it with a cursor that survives from one
iteration to the next. A step of the model is what a thread does between two points where
another thread can come in: one mutex operation, one access to the list, or a callback.

A node is known by its address. Where the cursor points to no linked node the node has been
freed, and what the checker reads there is whatever the memory holds (`Junk`).
-/

namespace IpncRdk.TimerThr

open Lib

structure Timespec where
  tvSec : ℤ
  tvNsec : ℤ
  deriving DecidableEq, Repr

/-- `SYS_TIMER_TASK_SINGLE` -/
abbrev taskSingle : ℤ := 0

/-- `SYS_TIMER_TASK_CONTINUE` -/
abbrev taskContinue : ℤ := 1

/-- `timerTask`, over the callbacks `φ`. -/
structure TimerTask (φ : Type) where
  procId : ℤ
  name : List UInt8
  mode : ℤ
  u32Time : ℕ
  stCheckTime : Timespec
  pPrivData : ℕ
  pfnProc : Option φ

/-- A node of the list and its address. -/
structure Node (φ : Type) where
  addr : ℕ
  task : TimerTask φ

variable {φ : Type}

/-! ## The list operations -/

/-- `delNode`: unlink and free the first node with this id. -/
def delNode (procId : ℤ) : List (Node φ) → List (Node φ)
  | [] => []
  | n :: rest => if n.task.procId = procId then rest else n :: delNode procId rest

/-- The next due time, `time` milliseconds after `now`, as `RegisterProc` and the checker
compute it: the nanoseconds are added to the seconds of the reading. -/
def checkTime (now : Timespec) (time : ℕ) : Timespec where
  tvSec := wrap32 (now.tvSec + (time / 1000 : ℕ))
  tvNsec := wrap32 (now.tvSec + (time % 1000 * 1000000 : ℕ))

/-- `u32TimeDiff`. -/
def timeDiff (task : TimerTask φ) (now : Timespec) : ℤ :=
  wrap32 (wrap32 (wrap32 (task.stCheckTime.tvSec - now.tvSec) * 1000)
    + (wrap32 (task.stCheckTime.tvNsec - now.tvNsec)).tdiv 1000000)

/-- `u32TimeDiff >= pCurTask->u32Time`, a comparison of unsigned values. -/
def due (task : TimerTask φ) (now : Timespec) : Bool :=
  (task.u32Time : ℤ) ≤ timeDiff task now % 2 ^ 32

/-- The arguments of `RegisterProc`, the address `malloc` returns to it and its clock
reading. -/
structure Registration (φ : Type) where
  mode : ℤ
  time : ℕ
  name : List UInt8
  pfnProc : Option φ
  pPrivData : ℕ
  addr : ℕ
  now : Timespec

/-- The node `RegisterProc` fills in. -/
def Registration.node (r : Registration φ) (procId : ℤ) : Node φ where
  addr := r.addr
  task :=
    { procId := procId
      name := r.name
      mode := r.mode
      u32Time := r.time
      stCheckTime := checkTime r.now r.time
      pPrivData := r.pPrivData
      pfnProc := r.pfnProc }

/-- `pNode->next` of the linked node at this address. -/
def nextAddr (nodes : List (Node φ)) (addr : ℕ) : Option ℕ :=
  (nodes.dropWhile fun n => n.addr != addr).tail.head?.map Node.addr

/-- The checker's update of `stCheckTime` in the node at this address. -/
def reschedule (nodes : List (Node φ)) (addr : ℕ) (now : Timespec) : List (Node φ) :=
  nodes.map fun n =>
    if n.addr = addr then
      { n with task := { n.task with stCheckTime := checkTime now n.task.u32Time } }
    else n

/-! ## The threads -/

/-- What the checker is about to do. -/
inductive Pc
  /-- `pCurTaskNode = pTaskHead->next`, before the loop -/
  | start
  /-- `pthread_mutex_lock` -/
  | top
  /-- `clock_gettime` and the test of the cursor -/
  | check
  /-- `pCurTaskNode = pTaskHead->next`, in the branch for a `NULL` cursor -/
  | reload
  /-- `pthread_mutex_unlock` in that branch, and the second test of the cursor -/
  | release
  /-- reading the task and comparing the times -/
  | examine
  /-- reading `pfnProc` and calling it -/
  | invoke
  /-- the callback runs -/
  | calling
  /-- removing or rescheduling the task -/
  | settle
  /-- `pCurTaskNode = pCurTaskNode->next` -/
  | advance
  /-- `pthread_mutex_unlock` at the end of the iteration -/
  | unlock
  deriving DecidableEq, Repr

/-- The steps at which the checker reads or edits the list or runs a callback. -/
def Pc.accesses : Pc → Bool
  | .reload | .examine | .invoke | .calling | .settle | .advance => true
  | .start | .top | .check | .release | .unlock => false

/-- A call of another thread. -/
inductive Call (φ : Type)
  | register (r : Registration φ)
  | unregister (procId : ℤ)

/-- Where another thread stands: outside, inside the critical section of a call before or
after its edit. The edit of `UnRegisterProc` keeps the id if it had been handed out. -/
inductive Section (φ : Type)
  | outside
  | entered (call : Call φ)
  | edited (unregistered : Option ℤ)

inductive Owner
  | checker
  | other (thread : ℕ)
  deriving DecidableEq, Repr

/-- What a history records, newest first. -/
inductive Record
  /-- a callback was started; `registered` tells whether its task was in the list then -/
  | started (procId mode : ℤ) (registered : Bool)
  /-- `UnRegisterProc` returned for an id that had been handed out -/
  | unregistered (procId : ℤ)
  deriving DecidableEq, Repr

structure State (φ : Type) where
  nodes : List (Node φ)
  /-- `pTaskHead->task.procId`, the last id handed out -/
  lastId : ℤ
  /-- `pCurTaskNode` -/
  cursor : Option ℕ
  /-- `stCurTime` -/
  now : Timespec
  pc : Pc
  mutex : Option Owner
  others : ℕ → Section φ
  records : List Record

/-- After `timerThrCreat`. -/
def timerThrCreat : State φ where
  nodes := []
  lastId := 0
  cursor := none
  now := ⟨0, 0⟩
  pc := .start
  mutex := none
  others := fun _ => .outside
  records := []

/-- What a freed node's memory holds. -/
structure Junk (φ : Type) where
  task : TimerTask φ
  next : Option ℕ

inductive Event (φ : Type)
  /-- a step of the checker, with the clock and the memory it may meet -/
  | checker (now : Timespec) (junk : Junk φ)
  /-- another thread locks the mutex for a call -/
  | enter (thread : ℕ) (call : Call φ)
  /-- it edits the list -/
  | edit (thread : ℕ)
  /-- it unlocks the mutex and returns -/
  | leave (thread : ℕ)

/-- The node under the cursor, if it is linked. -/
def State.currentNode (s : State φ) : Option (Node φ) :=
  s.nodes.find? fun n => s.cursor = some n.addr

/-- `*pCurTask` as the checker reads it. -/
def State.currentTask (s : State φ) (junk : Junk φ) : TimerTask φ :=
  (s.currentNode.map Node.task).getD junk.task

/-- One step of `timerTaskChkThr`. -/
def checkerStep (s : State φ) (now : Timespec) (junk : Junk φ) : Option (State φ) :=
  match s.pc with
  | .start => some { s with cursor := s.nodes.head?.map Node.addr, pc := .top }
  | .top =>
    if s.mutex = none then some { s with mutex := some .checker, pc := .check } else none
  | .check => some { s with now := now, pc := if s.cursor = none then .reload else .examine }
  | .reload => some { s with cursor := s.nodes.head?.map Node.addr, pc := .release }
  -- the mutex is given up before the cursor is tested again
  | .release => some { s with mutex := none, pc := if s.cursor = none then .top else .examine }
  | .examine =>
    some { s with pc := if due (s.currentTask junk) s.now then .invoke else .advance }
  | .invoke =>
    match (s.currentTask junk).pfnProc with
    | none => some { s with pc := .settle }
    | some _ =>
      some
        { s with
          pc := .calling
          records :=
            .started (s.currentTask junk).procId (s.currentTask junk).mode
              ((s.currentTask junk).procId ∈ s.nodes.map fun n => n.task.procId) :: s.records }
  | .calling => some { s with pc := .settle }
  | .settle =>
    some
      { s with
        nodes :=
          if (s.currentTask junk).mode = taskSingle then delNode (s.currentTask junk).procId s.nodes
          else if (s.currentTask junk).mode = taskContinue then
            (s.cursor.map fun addr => reschedule s.nodes addr s.now).getD s.nodes
          else s.nodes
        pc := .advance }
  | .advance =>
    some
      { s with
        cursor := if s.currentNode.isSome then s.cursor.bind (nextAddr s.nodes) else junk.next
        pc := .unlock }
  | .unlock => some { s with mutex := none, pc := .top }

/-- The edit inside the critical section of a call. `malloc` returns no address in use; an
overlong name and an id past the `int` range have no defined outcome. -/
def editStep (s : State φ) (thread : ℕ) : Option (State φ) :=
  match s.others thread with
  | .entered (.register r) =>
    if r.addr ∉ s.nodes.map Node.addr ∧ r.name.length < 32 ∧ s.lastId < 2 ^ 31 - 1 then
      some
        { s with
          nodes := r.node (s.lastId + 1) :: s.nodes
          lastId := s.lastId + 1
          others := Function.update s.others thread (.edited none) }
    else none
  | .entered (.unregister procId) =>
    some
      { s with
        nodes := if 0 < procId then delNode procId s.nodes else s.nodes
        others :=
          Function.update s.others thread
            (.edited (if 0 < procId ∧ procId ≤ s.lastId then some procId else none)) }
  | _ => none

/-- The unlock at the end of a call. -/
def leaveStep (s : State φ) (thread : ℕ) : Option (State φ) :=
  match s.others thread with
  | .edited unregistered =>
    some
      { s with
        mutex := none
        others := Function.update s.others thread .outside
        records := (unregistered.map Record.unregistered).toList ++ s.records }
  | _ => none

def step (s : State φ) : Event φ → Option (State φ)
  | .checker now junk => checkerStep s now junk
  | .enter thread call =>
    match s.mutex, s.others thread with
    | none, .outside =>
      some
        { s with
          mutex := some (.other thread)
          others := Function.update s.others thread (.entered call) }
    | _, _ => none
  | .edit thread => editStep s thread
  | .leave thread => leaveStep s thread

end IpncRdk.TimerThr
