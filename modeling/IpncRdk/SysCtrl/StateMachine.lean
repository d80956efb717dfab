import IpncRdk.Lib.Format
import Mathlib.Tactic.SplitIfs

/-!
# `sys_ctrl.c`: the state machine of a check

`execTaskStateMachine` is called once a second while a check is registered. It heats, counts
down, waits for the server, takes and uploads a picture and shows the report. What it does to
the world around it is a list of actions, in the order of the source.
-/

namespace IpncRdk.SysCtrl

open Lib

/-- `GPIO_HEAT_EN` -/
abbrev gpioHeatEn : ℕ := 19

/-- `GPIO_FLASH_LIGTHT_EN` -/
abbrev gpioFlashLightEn : ℕ := 11

/-- The pictures that `execHeat`, `execCheck` and `execNetAbort` draw. -/
inductive Screen
  | heat
  | check
  | netAbort
  deriving DecidableEq, Repr

inductive Action
  /-- `ipnc_gio_write` -/
  | gioWrite (gpio : ℕ) (high : Bool)
  | draw (screen : Screen)
  /-- `GUIDrawText` in the big font -/
  | drawText (x y : ℤ) (text : List UInt8)
  /-- `report.isValid = False` -/
  | clearValid
  /-- `report.errCode = OSA_ENETUNREACH` -/
  | setNetUnreach
  | saveJpeg
  | showReport
  /-- `start_bp(200,1)` -/
  | beep
  /-- `sleep(1)` -/
  | sleep
  deriving DecidableEq, Repr

/-- The static variables of the state machine. -/
structure Machine where
  state : ℤ
  heatCount : ℤ
  retryCount : ℤ
  deriving DecidableEq, Repr

/-- `start_heat()` -/
def startHeat : Action := .gioWrite gpioHeatEn true

/-- `stop_heat()` -/
def stopHeat : Action := .gioWrite gpioHeatEn false

/-- State 0. -/
def beginHeat (m : Machine) : Machine × List Action :=
  ({ m with state := 1, heatCount := 50 }, [startHeat, .draw .heat, .clearValid])

/-- State 1. The light comes on ten seconds before the heating ends. -/
def countDown (link : Bool) (m : Machine) : Machine × List Action :=
  let text := Action.drawText 160 169 (format02 m.heatCount)
  let m := { m with heatCount := m.heatCount - 1 }
  if m.heatCount = 10 then (m, [text, .gioWrite gpioFlashLightEn true])
  else if m.heatCount = 0 then
    if link then ({ m with state := 2 }, [text, stopHeat])
    else ({ m with state := 3, retryCount := 30 }, [text, stopHeat, .draw .netAbort])
  else (m, [text])

/-- `"retry %02d ..."` -/
def retryText (retryCount : ℤ) : List UInt8 :=
  [114, 101, 116, 114, 121, 32] ++ format02 retryCount ++ [32, 46, 46, 46]

/-- State 3. -/
def retryLink (link : Bool) (m : Machine) : Machine × List Action :=
  if link then ({ m with state := 2 }, [])
  else
    let text := Action.drawText 160 169 (retryText m.retryCount)
    let m := { m with retryCount := m.retryCount - 1 }
    if m.retryCount = 0 then ({ m with state := 5 }, [text, .setNetUnreach]) else (m, [text])

/-- `"Check Error."` -/
def checkError : List UInt8 := [67, 104, 101, 99, 107, 32, 69, 114, 114, 111, 114, 46]

/-- State 5. -/
def finish (isValid : Bool) (m : Machine) : Machine × List Action :=
  let shown := if isValid then [.gioWrite gpioFlashLightEn false, .showReport]
    else [.showReport, .drawText ((240 - checkError.length * 12) / 2) 74 checkError]
  ({ m with state := 6 }, [.beep] ++ shown ++ [.sleep, .beep, .sleep, .beep])

/-- `execTaskStateMachine`, given the server link and `report.isValid`. -/
def execTaskStateMachine (link isValid : Bool) (m : Machine) : Machine × List Action :=
  if m.state = 0 then beginHeat m
  else if m.state = 1 then countDown link m
  else if m.state = 2 then ({ m with state := 4 }, [.draw .check])
  else if m.state = 3 then retryLink link m
  else if m.state = 4 then ({ m with state := 5 }, [.saveJpeg])
  else if m.state = 5 then finish isValid m
  else (m, [])

/-! ## The branches of an invocation -/

/-- The branches of `execTaskStateMachine`, each with its guards and its result. -/
inductive Branch (link isValid : Bool) (m : Machine) : Machine × List Action → Prop
  | begins (h : m.state = 0) : Branch link isValid m
      ({ m with state := 1, heatCount := 50 }, [startHeat, .draw .heat, .clearValid])
  | light (h : m.state = 1) (hcount : m.heatCount = 11) : Branch link isValid m
      ({ m with heatCount := 10 },
        [.drawText 160 169 (format02 m.heatCount), .gioWrite gpioFlashLightEn true])
  | endsUp (h : m.state = 1) (hcount : m.heatCount = 1) (hlink : link = true) :
      Branch link isValid m ({ m with state := 2, heatCount := 0 },
        [.drawText 160 169 (format02 m.heatCount), stopHeat])
  | endsDown (h : m.state = 1) (hcount : m.heatCount = 1) (hlink : link = false) :
      Branch link isValid m ({ state := 3, heatCount := 0, retryCount := 30 },
        [.drawText 160 169 (format02 m.heatCount), stopHeat, .draw .netAbort])
  | counts (h : m.state = 1) (hcount : m.heatCount ≠ 11 ∧ m.heatCount ≠ 1) :
      Branch link isValid m ({ m with heatCount := m.heatCount - 1 },
        [.drawText 160 169 (format02 m.heatCount)])
  | checks (h : m.state = 2) : Branch link isValid m ({ m with state := 4 }, [.draw .check])
  | linkUp (h : m.state = 3) (hlink : link = true) :
      Branch link isValid m ({ m with state := 2 }, [])
  | givesUp (h : m.state = 3) (hlink : link = false) (hcount : m.retryCount = 1) :
      Branch link isValid m ({ m with state := 5, retryCount := 0 },
        [.drawText 160 169 (retryText m.retryCount), .setNetUnreach])
  | retries (h : m.state = 3) (hlink : link = false) (hcount : m.retryCount ≠ 1) :
      Branch link isValid m ({ m with retryCount := m.retryCount - 1 },
        [.drawText 160 169 (retryText m.retryCount)])
  | uploads (h : m.state = 4) : Branch link isValid m ({ m with state := 5 }, [.saveJpeg])
  | finishes (h : m.state = 5) : Branch link isValid m (finish isValid m)
  | rests (h : m.state < 0 ∨ 5 < m.state) : Branch link isValid m (m, [])

/-- An invocation takes one of the branches. -/
theorem execTaskStateMachine_branch (link isValid : Bool) (m : Machine) :
    Branch link isValid m (execTaskStateMachine link isValid m) := by
  unfold execTaskStateMachine
  split_ifs with h0 h1 h2 h3 h4 h5
  · exact .begins h0
  · by_cases hlight : m.heatCount = 11
    · simpa [countDown, hlight] using Branch.light h1 hlight
    by_cases hend : m.heatCount = 1
    · cases link with
      | true => simpa [countDown, hend] using Branch.endsUp h1 hend rfl
      | false => simpa [countDown, hend] using Branch.endsDown h1 hend rfl
    · have h₁ : m.heatCount - 1 ≠ 10 := by omega
      have h₂ : m.heatCount - 1 ≠ 0 := by omega
      simp only [countDown, h₁, h₂, if_false]
      exact .counts h1 ⟨hlight, hend⟩
  · exact .checks h2
  · cases link with
    | true => exact .linkUp h3 rfl
    | false =>
      by_cases hlast : m.retryCount = 1
      · simpa [retryLink, hlast] using Branch.givesUp h3 rfl hlast
      · have h₁ : m.retryCount - 1 ≠ 0 := by omega
        simpa [retryLink, h₁] using Branch.retries h3 rfl hlast
  · exact .uploads h4
  · exact .finishes h5
  · exact .rests (by omega)

/-! ## The outputs of an invocation -/

/-- What an action writes to an output. -/
def Action.writes (gpio : ℕ) : Action → Option Bool
  | .gioWrite g high => if g = gpio then some high else none
  | _ => none

/-- The last write of a list of actions to an output. -/
def lastWrite (gpio : ℕ) (actions : List Action) : Option Bool :=
  actions.reverse.findSome? (Action.writes gpio)

lemma lastWrite_cons (gpio : ℕ) (a : Action) (actions : List Action) :
    lastWrite gpio (a :: actions) = (lastWrite gpio actions).or (a.writes gpio) := by
  unfold lastWrite
  rw [List.reverse_cons, List.findSome?_append]
  simp

section LastWrite
variable {link isValid : Bool} {m : Machine} {r : Machine × List Action}

/-- The heater goes on in state 0 and off at the end of the countdown. -/
lemma lastWrite_heat (h : Branch link isValid m r) : lastWrite gpioHeatEn r.2 =
    if m.state = 0 then some true
    else if m.state = 1 ∧ m.heatCount = 1 then some false else none := by
  cases h with
  | begins h =>
    rw [if_pos h]
    rfl
  | endsUp h hcount _ | endsDown h hcount _ =>
    rw [if_neg (by omega), if_pos ⟨h, hcount⟩]
    rfl
  | finishes h =>
    rw [if_neg (by omega), if_neg (by omega)]
    cases isValid <;> rfl
  | _ =>
    rw [if_neg (by omega), if_neg (by omega)]
    rfl

/-- The light goes on during the countdown, and off when a valid report is shown. -/
lemma lastWrite_light (h : Branch link isValid m r) : lastWrite gpioFlashLightEn r.2 =
    if m.state = 1 ∧ m.heatCount = 11 then some true
    else if m.state = 5 ∧ isValid = true then some false else none := by
  cases h with
  | light h hcount =>
    rw [if_pos ⟨h, hcount⟩]
    rfl
  | finishes h =>
    rw [if_neg (by omega)]
    cases isValid with
    | true =>
      rw [if_pos ⟨h, rfl⟩]
      rfl
    | false =>
      rw [if_neg (by simp)]
      rfl
  | _ =>
    rw [if_neg (by omega), if_neg (by omega)]
    rfl

/-- State 1 begins in state 0 and lasts until the end of the countdown. -/
lemma state_eq_one_iff (h : Branch link isValid m r) :
    r.1.state = 1 ↔ m.state = 0 ∨ (m.state = 1 ∧ m.heatCount ≠ 1) := by
  cases h with
  | begins h => exact iff_of_true rfl (.inl h)
  | finishes h =>
    show (6 : ℤ) = 1 ↔ _
    omega
  | _ =>
    simp only
    omega

/-- State 6 is entered from state 5. -/
lemma state_eq_six_iff (h : Branch link isValid m r) :
    r.1.state = 6 ↔ m.state = 5 ∨ m.state = 6 := by
  cases h with
  | finishes h =>
    show (6 : ℤ) = 6 ↔ _
    omega
  | _ =>
    simp only
    omega

end LastWrite

end IpncRdk.SysCtrl
