import IpncRdk.Lib.Run
import IpncRdk.SysCfg.RunState
import IpncRdk.SysCtrl.StateMachine

/-!
# The two threads that drive the outputs of a check

The key thread starts a check with `execTask` and stops it with `ExitTask`; a step of it is one
of the writes they make to what the threads share. The timer thread picks the task from its list
and then runs one invocation of `execTaskStateMachine`; it does not always hold the lock that
`UnRegisterProc` takes, so the task may be gone when the invocation runs.
-/

namespace IpncRdk.SysCtrl

open SysCfg (RunState)

/-- What the key thread is about to do. -/
inductive KeyPc
  /-- neither `execTask` nor `ExitTask` -/
  | running
  /-- `RegisterProc`, behind `state = 0` -/
  | register
  /-- `setSysState(Sys_State_Run, MDVR_Sys_EXE_TASK)` -/
  | setExeTask
  /-- `UnRegisterProc`, behind the write of the light -/
  | unregister
  /-- `setSysState(Sys_State_Run, MDVR_Sys_IDLE)` -/
  | setIdle
  deriving DecidableEq, Repr

namespace Outputs

structure State where
  machine : Machine
  /-- `report.isValid` -/
  isValid : Bool
  heat : Bool
  light : Bool
  registered : Bool
  /-- the timer thread has picked the task and not yet run it -/
  picked : Bool
  runState : RunState
  key : KeyPc
  deriving DecidableEq, Repr

/-- Before the first check. -/
def initial : State where
  machine := ⟨0, 50, 0⟩
  isValid := false
  heat := false
  light := false
  registered := false
  picked := false
  runState := .idle
  key := .running

inductive Event
  /-- key thread: `execTask` with `state = 0` -/
  | execTask
  /-- key thread: `RegisterProc`, and whether its `malloc` succeeds -/
  | register (success : Bool)
  | setExeTask
  /-- key thread: `ExitTask` with its write of the light -/
  | exitTask
  | unregister
  | setIdle
  /-- a run state that has nothing to do with a check -/
  | otherRunState (runState : RunState)
  /-- timer thread: the task is due -/
  | pick
  /-- timer thread: the invocation, what it reads as server link, and whether an upload it makes
  is answered by a success reply -/
  | invoke (link answered : Bool)
  deriving DecidableEq, Repr

/-- What an action of the state machine does to the outputs and to `isValid`. -/
def perform (answered : Bool) (s : State) : Action → State
  | .gioWrite gpio high =>
    if gpio = gpioHeatEn then { s with heat := high }
    else if gpio = gpioFlashLightEn then { s with light := high }
    else s
  | .clearValid => { s with isValid := false }
  | .saveJpeg => { s with isValid := s.isValid || answered }
  | _ => s

/-- One invocation of `execTaskStateMachine`. -/
def invoke (link answered : Bool) (s : State) : State :=
  let (machine, actions) := execTaskStateMachine link s.isValid s.machine
  actions.foldl (perform answered) { s with machine := machine, picked := false }

def step (s : State) : Event → Option State
  | .execTask =>
    if s.key = .running ∧ s.runState = .idle then
      some { s with machine := { s.machine with state := 0 }, key := .register }
    else none
  | .register success =>
    if s.key = .register then
      some { s with registered := success, key := if success then .setExeTask else .running }
    else none
  | .setExeTask =>
    if s.key = .setExeTask then some { s with runState := .exeTask, key := .running } else none
  | .exitTask =>
    if s.key = .running ∧ s.runState = .exeTask then
      some { s with light := false, key := .unregister }
    else none
  | .unregister =>
    if s.key = .unregister then some { s with registered := false, key := .setIdle } else none
  | .setIdle =>
    if s.key = .setIdle then some { s with runState := .idle, key := .running } else none
  | .otherRunState runState =>
    if s.key = .running ∧ s.runState ≠ .exeTask ∧ runState ≠ .exeTask then
      some { s with runState := runState }
    else none
  | .pick => if s.registered ∧ s.picked = false then some { s with picked := true } else none
  | .invoke link answered => if s.picked then some (invoke link answered s) else none

end Outputs

end IpncRdk.SysCtrl
