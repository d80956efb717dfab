import IpncRdk.AirkissThr.Thread
import IpncRdk.Lib.CSemantics
import IpncRdk.TimerThr.Checker

/-!
# `keyChkThr.c`: the key thread

The key thread reads two keys and starts and ends what the device does: a check (`execTask`,
`ExitTask`), a warning, or AirKiss (`enterAirkissConfigNet`, `exitAirkissConfigNet`). All of them
write the run state, and so does `airkissThr` at its end. A step is what a thread does between
two accesses to the run state, to the task list, or to `airkissThr`; `RegisterProc`,
`UnRegisterProc` are one step each. The checker, which edits the list behind a reload without the
mutex, is not one of the threads here.

Beeps, pictures, pauses and `power_Off` are left out.
-/

namespace IpncRdk.KeyChkThr

open Lib
open SysCfg (RunState)
open TimerThr

/-- The callbacks that are registered. -/
inductive Callback
  | execTaskStateMachine
  /-- any other -/
  | other
  deriving DecidableEq, Repr

/-- The key whose press is handled. -/
inductive Key
  | power
  | wps
  deriving DecidableEq, Repr

/-! ## The counters -/

inductive Act
  /-- a short press -/
  | short (key : Key)
  /-- a long press; of the power key it calls `power_Off` -/
  | long (key : Key)
  /-- `timeOut` calls `power_Off` -/
  | timedOut
  deriving DecidableEq, Repr

/-- The variables of `keyChkThr`. -/
structure Counters where
  cnt : ℤ
  cnt2 : ℤ
  timeOut : ℤ
  isShortPress : Bool
  isLongPress : Bool
  deriving DecidableEq, Repr

def Counters.start : Counters := ⟨0, 0, 0, false, false⟩

/-- The power key is read. -/
def readPower (high : Bool) (c : Counters) : Counters :=
  if high then { c with cnt := wrap32 (c.cnt + 1) }
  else
    { c with
      timeOut := 0
      isShortPress := c.isShortPress || (5 < c.cnt ∧ c.cnt < 30)
      isLongPress := c.isLongPress || (¬ (5 < c.cnt ∧ c.cnt < 30) ∧ 30 ≤ c.cnt)
      cnt := 0 }

/-- The flags that reading the power key has set are handled and cleared. -/
def handlePower (c : Counters) : Counters × List Act :=
  ({ c with isShortPress := false, isLongPress := false },
    (if c.isShortPress then [.short .power] else []) ++
      if c.isLongPress then [.long .power] else [])

/-- The WPS key is read. -/
def readWps (low : Bool) (c : Counters) : Counters × List Act :=
  if low then ({ c with cnt2 := wrap32 (c.cnt2 + 1) }, [])
  else
    ({ c with timeOut := 0, cnt2 := 0 },
      if 5 < c.cnt2 ∧ c.cnt2 ≤ 30 then [.short .wps]
      else if 50 < c.cnt2 then [.long .wps]
      else [])

/-- `timeOut ++ > 1400` -/
def countTimeOut (c : Counters) : Counters × List Act :=
  ({ c with timeOut := wrap32 (c.timeOut + 1) }, if c.timeOut > 1400 then [.timedOut] else [])

/-! ## The threads -/

/-- What the key thread is about to do. -/
inductive Pc
  /-- the start of an iteration: `GPIO_SYSTEM_KEY` -/
  | top
  /-- a short press of the power key: `getSysState(Sys_State_Run)` -/
  | power
  /-- the server link and `GPIO_LIGHT_DETECT` -/
  | link
  /-- `execTask`: `RegisterProc` -/
  | register
  /-- `execTask`: the run state becomes `MDVR_Sys_EXE_TASK` -/
  | setExeTask
  /-- `ExitTask`: `UnRegisterProc` -/
  | unregister
  /-- `ExitTask`: the run state becomes `MDVR_Sys_IDLE` -/
  | setIdle
  /-- a press that leads to a warning: the run state becomes `MDVR_Sys_WARNING` -/
  | warn (key : Key)
  /-- two seconds later it becomes `MDVR_Sys_IDLE` -/
  | endWarn (key : Key)
  /-- `GPIO_SYS_KEY_WPS` -/
  | wps
  /-- a short press of the WPS key: `getSysState(Sys_State_Run)` -/
  | wpsShort
  /-- a long press: `getSysState(Sys_State_Run)` -/
  | wpsLong
  /-- `enterAirkissConfigNet`: its own `getSysState` -/
  | enter
  /-- `enterAirkissConfigNet`: the run state becomes `MDVR_Sys_AIRKISS` -/
  | setAirkiss
  /-- `airKissThrCreat` -/
  | create
  /-- `airKissThrDelete`: `isExit = True` -/
  | request
  /-- `airKissThrDelete`: `pthread_join` -/
  | join
  /-- `exitAirkissConfigNet`: the run state becomes `MDVR_Sys_IDLE` -/
  | endAirkiss
  deriving DecidableEq, Repr

/-- Where the thread goes on after a warning. -/
def Key.next : Key → Pc
  | .power => .wps
  | .wps => .top

/-- An `airkissThr`, with its own variable. -/
structure Airkiss where
  pc : AirkissThr.Pc
  isGetSSID : Bool
  deriving DecidableEq, Repr

structure State where
  pc : Pc
  counters : Counters
  runState : RunState
  nodes : List (Node Callback)
  /-- `pTaskHead->task.procId` -/
  lastId : ℤ
  /-- `procId` of `sys_ctrl.c` -/
  procId : ℤ
  isExit : Bool
  /-- the threads that were started, the last one, which is `thrId`, first -/
  threads : List Airkiss

/-- The key thread after its first statement, which makes the run state `MDVR_Sys_IDLE`. -/
def start : State where
  pc := .top
  counters := .start
  runState := .idle
  nodes := []
  lastId := 0
  procId := 0
  isExit := false
  threads := []

/-- What a step of the key thread meets: the pins, the server link, and what `malloc` and the
clock return to `RegisterProc`. -/
structure Inputs where
  systemKeyHigh : Bool
  wpsKeyLow : Bool
  lightDetectLow : Bool
  serverLink : Bool
  memory : Option ℕ
  now : Timespec

inductive Event
  /-- a step of the key thread -/
  | key (i : Inputs)
  /-- a step of the `airkissThr` at this place of the list -/
  | airkiss (thread : ℕ) (e : AirkissThr.Event)
  /-- another thread registers a task -/
  | register (r : Registration Callback)

/-- `RegisterProc` as one step. `malloc` returns no address in use; an id past the `int` range
has no defined outcome. -/
def registerProc (s : State) (r : Registration Callback) : Option State :=
  if r.addr ∉ s.nodes.map Node.addr ∧ s.lastId < 2 ^ 31 - 1 then
    some { s with nodes := r.node (s.lastId + 1) :: s.nodes, lastId := s.lastId + 1 }
  else none

/-- `UnRegisterProc` as one step. -/
def unRegisterProc (s : State) (procId : ℤ) : State :=
  { s with nodes := if 0 < procId then delNode procId s.nodes else s.nodes }

/-- The arguments of `RegisterProc` in `execTask`; the name is `"task"`. -/
def taskRegistration (addr : ℕ) (now : Timespec) : Registration Callback where
  mode := taskContinue
  time := 1000
  name := [116, 97, 115, 107]
  pfnProc := some .execTaskStateMachine
  pPrivData := 0
  addr := addr
  now := now

/-- `RegisterProc` in `execTask`, and the test of the id it returns. -/
def registerTask (s : State) (i : Inputs) : Option State :=
  match i.memory with
  | none => some { s with procId := -1, pc := .wps }
  | some addr =>
    (registerProc s (taskRegistration addr i.now)).map fun s' =>
      { s' with procId := s'.lastId, pc := if 0 < s'.lastId then .setExeTask else .wps }

/-- One step of `keyChkThr`. -/
def keyStep (s : State) (i : Inputs) : Option State :=
  match s.pc with
  | .top =>
    let c := readPower i.systemKeyHigh s.counters
    some { s with counters := c, pc := if c.isShortPress then .power else .wps }
  | .power =>
    some
      { s with
        pc := if s.runState = .idle then .link
          else if s.runState = .exeTask then .unregister
          else .wps }
  | .link =>
    some { s with pc := if i.serverLink ∧ i.lightDetectLow then .register else .warn .power }
  | .register => registerTask s i
  | .setExeTask => some { s with runState := .exeTask, pc := .wps }
  | .unregister => some { unRegisterProc s s.procId with pc := .setIdle }
  | .setIdle => some { s with runState := .idle, pc := .wps }
  | .warn key => some { s with runState := .warning, pc := .endWarn key }
  | .endWarn key => some { s with runState := .idle, pc := key.next }
  | .wps =>
    -- `timeOut` is counted when the press has been handled, which does not use it
    let wps := readWps i.wpsKeyLow (handlePower s.counters).1
    some
      { s with
        counters := (countTimeOut wps.1).1
        pc := if .short .wps ∈ wps.2 then .wpsShort
          else if .long .wps ∈ wps.2 then .wpsLong
          else .top }
  | .wpsShort =>
    some
      { s with
        pc := if s.runState = .airkiss then .request
          else if s.runState = .idle then .warn .wps
          else .top }
  | .wpsLong => some { s with pc := if s.runState = .idle then .enter else .top }
  | .enter => some { s with pc := if s.runState ≠ .idle then .top else .setAirkiss }
  | .setAirkiss => some { s with runState := .airkiss, pc := .create }
  | .create => some { s with threads := ⟨.init, false⟩ :: s.threads, pc := .top }
  | .request => some { s with isExit := true, pc := .join }
  | .join =>
    -- the thread that was started last has ended
    if ∀ t ∈ s.threads.head?, t.pc = .exited then some { s with pc := .endAirkiss } else none
  | .endAirkiss => some { s with runState := .idle, pc := .top }

/-- What an `airkissThr` sees. -/
def Airkiss.view (t : Airkiss) (s : State) : AirkissThr.State where
  isExit := s.isExit
  pc := t.pc
  isGetSSID := t.isGetSSID
  runState := s.runState
  key := .running
  latePasses := 0

/-- The steps of the thread alone. -/
def airkissThr (v : AirkissThr.State) : AirkissThr.Event → Option AirkissThr.State
  | .thread succeeds => AirkissThr.threadStep v succeeds
  | .pass received => if v.pc = .receive then some (AirkissThr.receiveStep v received) else none
  | _ => none

def airkissStep (s : State) (thread : ℕ) (e : AirkissThr.Event) : Option State :=
  s.threads[thread]?.bind fun t =>
    (airkissThr (t.view s) e).map fun v =>
      { s with
        isExit := v.isExit
        runState := v.runState
        threads := s.threads.set thread ⟨v.pc, v.isGetSSID⟩ }

/-- Only `execTask` registers `execTaskStateMachine`. -/
def step (s : State) : Event → Option State
  | .key i => keyStep s i
  | .airkiss thread e => airkissStep s thread e
  | .register r =>
    if r.pfnProc = some .execTaskStateMachine then none else registerProc s r

end IpncRdk.KeyChkThr
