import IpncRdk.Lib.Run
import IpncRdk.SysCfg.RunState

/-!
# `airkissThr.c`: the AirKiss thread and the key thread that starts and stops it

The key thread starts `airkissThr` from `enterAirkissConfigNet` and stops it from
`exitAirkissConfigNet`, through the shared flag `isExit` and `pthread_join`. The two threads
take their steps in any order; a step is what lies between two accesses to what they share.
-/

namespace IpncRdk.AirkissThr

open SysCfg (RunState)

/-- Where `airkissThr` stands. -/
inductive Pc
  /-- `airkiss_version`, the pause and `airkiss_init` -/
  | init
  /-- `socket` -/
  | socket
  /-- `monitor_on` and the ioctl `mangos` -/
  | monitor
  /-- signal handler and timer are set up; next is `isExit = 0` -/
  | reset
  /-- the test `while(!isExit)` -/
  | test
  /-- the body of the receive loop -/
  | receive
  /-- behind the loop: `monitor_off` and the ioctl `mangop` -/
  | stop
  /-- connecting to the access point, or the LED when there is no result -/
  | connect
  /-- `setSysState(Sys_State_Run, MDVR_Sys_IDLE)` -/
  | finish
  /-- the thread has returned, or was never started -/
  | exited
  deriving DecidableEq, Repr

/-- Where the key thread stands. -/
inductive KeyPc
  | running
  /-- it has seen `MDVR_Sys_AIRKISS` and is about to call `airKissThrDelete` -/
  | deleting
  /-- `isExit = True` is done, `pthread_join` waits -/
  | joining
  deriving DecidableEq, Repr

/-- What one pass of the receive loop meets. -/
inductive Received
  /-- the ioctl fails, or the packet changes nothing -/
  | nothing
  /-- `AIRKISS_STATUS_CHANNEL_LOCKED`: the channel timer is stopped -/
  | channelLocked
  /-- `AIRKISS_STATUS_COMPLETE`, and whether `airkiss_get_result` succeeds -/
  | complete (result : Bool)
  deriving DecidableEq, Repr

structure State where
  isExit : Bool
  pc : Pc
  isGetSSID : Bool
  runState : RunState
  key : KeyPc
  /-- receive passes begun by a loop test that came after the stop request -/
  latePasses : ℕ
  deriving DecidableEq, Repr

/-- Before the first start. -/
def initial : State where
  isExit := false
  pc := .exited
  isGetSSID := false
  runState := .idle
  key := .running
  latePasses := 0

inductive Event
  /-- key thread: `enterAirkissConfigNet` with `airKissThrCreat` -/
  | create
  /-- key thread: a short press of the WPS key reads the run state -/
  | wpsShort
  /-- key thread: `isExit = True` in `airKissThrDelete` -/
  | request
  /-- key thread: `pthread_join` returns and the run state becomes idle -/
  | join
  /-- `airkissThr` outside the receive loop; the call it makes succeeds or fails -/
  | thread (succeeds : Bool)
  /-- `airkissThr`: one pass of the receive loop -/
  | pass (received : Received)
  deriving DecidableEq, Repr

/-- The steps of `airkissThr` outside the loop body. A failing call returns early, without
touching the run state. -/
def threadStep (s : State) (succeeds : Bool) : Option State :=
  match s.pc with
  | .init => some { s with pc := if succeeds then .socket else .exited }
  | .socket => some { s with pc := if succeeds then .monitor else .exited }
  | .monitor => some { s with pc := if succeeds then .reset else .exited }
  | .reset => some { s with isExit := false, pc := .test }
  | .test =>
    if s.isExit then some { s with pc := .stop }
    else
      some
        { s with
          pc := .receive
          latePasses := if s.key = .joining then s.latePasses + 1 else s.latePasses }
  | .receive => none
  | .stop => some { s with pc := if succeeds then .connect else .exited }
  | .connect => some { s with pc := .finish }
  | .finish => some { s with runState := .idle, pc := .exited }
  | .exited => none

/-- One pass of the receive loop. -/
def receiveStep (s : State) : Received → State
  | .nothing => { s with pc := .test }
  | .channelLocked => { s with pc := .test }
  | .complete false => { s with pc := .stop }
  | .complete true => { s with isGetSSID := true, pc := .stop }

def step (s : State) : Event → Option State
  | .create =>
    if s.key = .running ∧ s.runState = .idle ∧ s.pc = .exited then
      some { s with runState := .airkiss, pc := .init, isGetSSID := false, latePasses := 0 }
    else none
  | .wpsShort =>
    if s.key = .running ∧ s.runState = .airkiss then some { s with key := .deleting } else none
  | .request =>
    if s.key = .deleting then some { s with isExit := true, key := .joining } else none
  | .join =>
    if s.key = .joining ∧ s.pc = .exited then
      some { s with key := .running, runState := .idle }
    else none
  | .thread succeeds => threadStep s succeeds
  | .pass received => if s.pc = .receive then some (receiveStep s received) else none

end IpncRdk.AirkissThr
