import IpncRdk.HttpThread.Delivery
import IpncRdk.Lib.Run
import IpncRdk.SysCfg.SetValue
import IpncRdk.SysCtrl.StateMachine

/-!
# A check and the record of the last report

The state machine of a check clears and shows the report, the upload it makes fills it in, and
`showReport` saves it in the configuration file. The upload runs within the invocation that takes
the picture: `saveJpeg` returns when libcurl has delivered the reply or given up. A reply that makes
the handler use a null pointer ends the process. A save that leaves one of its buffers has no
defined outcome, but what `showReport` wrote before it stays written.
-/

namespace IpncRdk.SysCtrl

open Lib HttpThread SysCfg

/-! ## The saved record -/

/-- `"report"` -/
def reportSection : List UInt8 := [114, 101, 112, 111, 114, 116]

/-- `"result"` -/
def resultKey : List UInt8 := [114, 101, 115, 117, 108, 116]

/-- `"Percent"` -/
def percentKey : List UInt8 := [80, 101, 114, 99, 101, 110, 116]

/-- `"date"` -/
def dateKey : List UInt8 := [100, 97, 116, 101]

/-- `"2019-01-01 00:00"` -/
def defaultDate : List UInt8 :=
  [50, 48, 49, 57, 45, 48, 49, 45, 48, 49, 32, 48, 48, 58, 48, 48]

/-- The record as the next boot loads it: date, result and percent. -/
def savedRecord (file : Option (List UInt8)) : Except Fault (List UInt8 × ℤ × ℤ) := do
  let date ← getConfigFileStringValue reportSection dateKey (some defaultDate)
    (List.replicate 20 0) 20 file
  let result ← getConfigFileIntValue reportSection resultKey 0 file
  let percent ← getConfigFileIntValue reportSection percentKey 0 file
  pure (cstr date, result, percent)

/-- The writes at the end of `showReport`: the file as far as their outcome is defined, and whether
it is to the end. -/
def saveReport (report : Report) (file : Option (List UInt8)) : Option (List UInt8) × Bool :=
  match setConfigFileIntValue reportSection resultKey report.result file with
  | .error _ => (file, false)
  | .ok file =>
    match setConfigFileIntValue reportSection percentKey report.percent file with
    | .error _ => (file, false)
    | .ok file =>
      match setConfigFileStringValue reportSection dateKey report.date file with
      | .error _ => (file, false)
      | .ok file => (file, true)

/-! ## The display of the report -/

/-- What `localtime` gives `showReport`. -/
structure Tm where
  mon : Fin 12
  mday : Fin 32
  hour : Fin 24
  min : Fin 60
  deriving DecidableEq, Repr

/-- `"%02d#%02d@ %02d:%02d"`, 12 of the 20 bytes of `report.date`. -/
def dateText (now : Tm) : List UInt8 :=
  format02 (now.mon + 1) ++ [35] ++ format02 now.mday ++ [64, 32] ++ format02 now.hour ++ [58] ++
    format02 now.min

/-- `showReport(True)`; without memory for its picture it returns at once. -/
def showReport (hasMemory : Bool) (now : Tm) (report : Report) (file : Option (List UInt8)) :
    Report × Option (List UInt8) × Bool :=
  if hasMemory then
    let report := { report with date := dateText now }
    (report, saveReport report file)
  else (report, file, true)

/-! ## Runs of a check -/

/-- `OSA_ENETUNREACH`, with the error numbers of the MIPS target. -/
def osaEnetunreach : ℤ := -128

/-- What an invocation meets. -/
structure Tick where
  link : Bool
  /-- the buffers of the reply, none where the upload is not answered -/
  replies : List Buffer
  /-- the error that a failing picture or upload leaves in `report.errCode` -/
  errCode : Option ℤ
  /-- `malloc` in `showReport` succeeds -/
  hasMemory : Bool
  now : Tm

structure World where
  machine : Machine
  http : HttpThread.State
  /-- the file `SYS_CFG_PATHNAME`, if it exists -/
  file : Option (List UInt8)
  /-- a reply of this run has set `report.isValid` -/
  answered : Bool
  /-- a save has left its buffers -/
  stopped : Bool
  deriving DecidableEq

/-- What an action of the state machine does to the report and the file. -/
def perform (intOf : List UInt8 → ℤ) (tick : Tick) (w : World) : Action → Except Fault World
  | .clearValid =>
    pure { w with http := { w.http with report := { w.http.report with isValid := false } } }
  | .setNetUnreach =>
    pure { w with
      http := { w.http with report := { w.http.report with errCode := osaEnetunreach } } }
  | .saveJpeg => do
    let http ← deliver intOf tick.replies w.http
    pure { w with
      http := { http with report :=
        { http.report with errCode := tick.errCode.getD http.report.errCode } }
      answered := w.answered || tick.replies.any fun b => (effectOf intOf b).valid }
  | .showReport =>
    let (report, file, saved) := showReport tick.hasMemory tick.now w.http.report w.file
    pure { w with http := { w.http with report := report }, file := file, stopped := !saved }
  | _ => pure w

/-- The actions of an invocation in their order. -/
def performAll (intOf : List UInt8 → ℤ) (tick : Tick) : List Action → World → Except Fault World
  | [], w => pure w
  | a :: actions, w => do
    let w ← perform intOf tick w a
    performAll intOf tick actions w

/-- One invocation of `execTaskStateMachine`. Nothing is known of what follows a save that has left
its buffers. -/
def invoke (intOf : List UInt8 → ℤ) (tick : Tick) (w : World) : Except Fault World :=
  if w.stopped then .error .outOfBounds
  else
    let r := execTaskStateMachine tick.link w.http.report.isValid w.machine
    performAll intOf tick r.2 { w with machine := r.1 }

/-- An invocation as a step, where its outcome is defined. -/
def step (intOf : List UInt8 → ℤ) (w : World) (tick : Tick) : Option World :=
  (invoke intOf tick w).toOption

/-- `execTask` begins a run. -/
def execTask (w : World) : World :=
  { w with machine := { w.machine with state := 0 }, answered := false }

end IpncRdk.SysCtrl
