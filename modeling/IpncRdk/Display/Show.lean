import IpncRdk.Display.Draw
import IpncRdk.Lib.Run
import IpncRdk.SysCfg.RunState
import IpncRdk.SysCtrl.Record

/-!
# What the application draws

The `show…` routines of `sys_ctrl.c`, its state machine of a check, and the countdown that
`airkissThr` shows. A step is one call with what it reads at run time: the report, the date, an
address, and whether `malloc` has memory for the picture. The writes of a call depend on nothing
but these and the static variables of the state machine, so calls of several threads need not be
cut into smaller steps.
-/

namespace IpncRdk.Display

open Lib SysCfg SysCtrl

/-- A position as the drawing routines take it, in 16 bits. -/
def uint16 (n : ℤ) : ℕ := (n % 2 ^ 16).toNat

/-- `(240-len*12)/2` -/
def textX (len : ℕ) : ℕ := uint16 ((240 - len * 12 : ℤ).tdiv 2)

/-! ## `sys_ctrl.c` -/

/-- The picture below the status line: what most routines draw, each from its own file, where
`malloc` has memory for it. -/
def picture (hasMemory : Bool) : List Write := if hasMemory then guiImageDraw 0 25 240 216 else []

/-- `showRecord`. A date of 16 characters or more overruns `text`; it is drawn all the same. -/
def showRecord (isShow hasMemory : Bool) (report : Report) : List Write :=
  if !isShow then guiCleanScreen 0 25 240 216
  else if !hasMemory then []
  else
    picture hasMemory ++ guiDrawText 64 80 (format02 report.percent) .midlle ++
      guiDrawText (textX report.date.length) 172 report.date .big

/-- `showReport` -/
def showReport (isShow hasMemory : Bool) (now : Tm) (report : Report) : List Write :=
  if !isShow then guiCleanScreen 0 25 240 216
  else if !hasMemory then []
  else
    picture hasMemory ++ guiDrawText 64 74 (format02 report.percent) .midlle ++
      (if report.result < 4 ∧ 0 ≤ report.result then guiImageDraw 120 172 56 18 else []) ++
      guiDrawText 98 197 (dateText now) .big

/-- `showCamera` -/
def showCamera (hasMemory : Bool) : List Write :=
  if hasMemory then guiImageDraw 180 0 24 20 else []

/-- `showAirkissQRcode` -/
def showAirkissQRcode (isShow hasMemory : Bool) : List Write :=
  if !isShow then guiCleanScreen 41 65 160 158
  else if hasMemory then guiImageDraw 41 65 160 158 else []

/-- `showWelcom` -/
def showWelcom (isShow hasMemory : Bool) : List Write :=
  if !isShow then guiCleanScreen 0 25 240 216 else picture hasMemory

/-- `showWarning` -/
def showWarning (hasMemory : Bool) : List Write := picture hasMemory

/-- An IPv4 address. -/
structure InAddr where
  a : UInt8
  b : UInt8
  c : UInt8
  d : UInt8
  deriving DecidableEq, Repr

/-- `inet_ntoa` -/
def inetNtoa (ip : InAddr) : List UInt8 :=
  digits ip.a.toNat ++ [46] ++ digits ip.b.toNat ++ [46] ++ digits ip.c.toNat ++ [46] ++
    digits ip.d.toNat

/-- `"version:1.5"` -/
def versionText : List UInt8 := [118, 101, 114, 115, 105, 111, 110, 58, 49, 46, 53]

/-- `"wlan:%s"` -/
def wlanText (ip : InAddr) : List UInt8 := [119, 108, 97, 110, 58] ++ inetNtoa ip

/-- `showSysInfo` -/
def showSysInfo (ip : InAddr) : List Write :=
  guiDrawText 8 100 versionText .big ++ guiDrawText 8 130 (wlanText ip) .big

/-- `showSysTime` -/
def showSysTime (now : Tm) : List Write := guiDrawText 0 0 (dateText now) .big

/-- `showSysNet` -/
def showSysNet (runState : RunState) : List Write :=
  if runState = .airkiss then guiImageDraw 210 0 24 20
  else guiImageDraw 210 0 24 20 ++ guiImageDraw 150 0 24 20

/-- What an action of the state machine draws; `execHeat`, `execCheck` and `execNetAbort` draw
the picture. -/
def actionWrites (hasMemory : Bool) (now : Tm) (report : Report) : Action → List Write
  | .draw _ => picture hasMemory
  | .drawText x y text => guiDrawText (uint16 x) (uint16 y) text .big
  | .showReport => showReport true hasMemory now report
  | _ => []

/-! ## `airkissThr.c` -/

/-- `"Connect AP %02ds..."` -/
def connectText (timeout : ℕ) : List UInt8 :=
  [67, 111, 110, 110, 101, 99, 116, 32, 65, 80, 32] ++ format02 timeout ++ [115, 46, 46, 46]

/-- `"   Get ip %02ds...  "` -/
def getIpText (timeout : ℕ) : List UInt8 :=
  [32, 32, 32, 71, 101, 116, 32, 105, 112, 32] ++ format02 timeout ++ [115, 46, 46, 46, 32, 32]

/-- `"   Connect AP OK.  "` -/
def connectOkText : List UInt8 :=
  [32, 32, 32, 67, 111, 110, 110, 101, 99, 116, 32, 65, 80, 32, 79, 75, 46, 32, 32]

/-- A text of the countdown. -/
def countdownText (text : List UInt8) : List Write :=
  guiDrawText (textX text.length) 220 text .big

/-- The first loop, which ends with `check_assoc`. -/
def connectLoop (assoc : ℕ → Bool) : ℕ → List Write
  | 0 => []
  | timeout + 1 =>
    countdownText (connectText (timeout + 1)) ++
      if assoc (timeout + 1) then [] else connectLoop assoc timeout

/-- The second loop, which ends with an address. -/
def getIpLoop (hasIp : ℕ → Bool) : ℕ → List Write
  | 0 => []
  | timeout + 1 =>
    countdownText (getIpText (timeout + 1)) ++
      if hasIp (timeout + 1) then countdownText connectOkText else getIpLoop hasIp timeout

/-- What `airkissThr` draws once it has left its receive loop. It returns where the ioctl that
stops the monitor fails. -/
def airkissThr (stops isGetSSID : Bool) (assoc hasIp : ℕ → Bool) : List Write :=
  if stops = false then []
  else if isGetSSID then connectLoop assoc 30 ++ getIpLoop hasIp 30
  else []

/-! ## Runs -/

inductive Call
  | showRecord (isShow hasMemory : Bool) (report : Report)
  | showReport (isShow hasMemory : Bool) (now : Tm) (report : Report)
  | showCamera (hasMemory : Bool)
  | showAirkissQRcode (isShow hasMemory : Bool)
  | showWelcom (isShow hasMemory : Bool)
  | showWarning (hasMemory : Bool)
  | showSysInfo (ip : InAddr)
  | showSysTime (now : Tm)
  | showSysNet (runState : RunState)
  /-- `execTask` -/
  | execTask
  /-- `execTaskStateMachine`, with the server link -/
  | execTaskStateMachine (link hasMemory : Bool) (now : Tm) (report : Report)
  | airkissThr (stops isGetSSID : Bool) (assoc hasIp : ℕ → Bool)

/-- The static variables before the first call. -/
def start : Machine := ⟨0, 50, 0⟩

/-- What a call makes of the static variables. -/
def after (m : Machine) : Call → Machine
  | .execTask => { m with state := 0 }
  | .execTaskStateMachine link _ _ report => (execTaskStateMachine link report.isValid m).1
  | _ => m

def step (m : Machine) (c : Call) : Option Machine := some (after m c)

/-- The pixels that a call writes. -/
def writes (m : Machine) : Call → List Write
  | .showRecord isShow hasMemory report => showRecord isShow hasMemory report
  | .showReport isShow hasMemory now report => showReport isShow hasMemory now report
  | .showCamera hasMemory => showCamera hasMemory
  | .showAirkissQRcode isShow hasMemory => showAirkissQRcode isShow hasMemory
  | .showWelcom isShow hasMemory => showWelcom isShow hasMemory
  | .showWarning hasMemory => showWarning hasMemory
  | .showSysInfo ip => showSysInfo ip
  | .showSysTime now => showSysTime now
  | .showSysNet runState => showSysNet runState
  | .execTask => []
  | .execTaskStateMachine link hasMemory now report =>
    (execTaskStateMachine link report.isValid m).2.flatMap (actionWrites hasMemory now report)
  | .airkissThr stops isGetSSID assoc hasIp => airkissThr stops isGetSSID assoc hasIp

end IpncRdk.Display
