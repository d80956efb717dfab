import IpncRdk.Lib.Run
import Mathlib.Tactic.Linarith

/-!
# `netLinkChkThr.c`: the thread that watches the link to the server

Once a second the thread reads the signal strength of the Wi-Fi, publishes a level for it, and
while there is a signal asks up to three times whether the server answers.

* `netLinkChkThr` — one cycle of the loop;
* `Sound` — the published server link rests on an answer of this cycle;
* `lastAnswer` — what the last cycle with a signal found;
* `sound_iff` — the published link is sound exactly if the signal is lost only while the server
  does not answer.
-/

namespace IpncRdk.NetLink

open Lib

/-- `WIRELESS_RSSI_DISCONMECT` -/
abbrev wirelessRssiDisconmect : ℤ := 100

/-- `WIRELESS_RSSI_LEVEL_1` -/
abbrev wirelessRssiLevel1 : ℤ := 101

/-- `WIRELESS_RSSI_LEVEL_2` -/
abbrev wirelessRssiLevel2 : ℤ := 102

/-- `WIRELESS_RSSI_LEVEL_3` -/
abbrev wirelessRssiLevel3 : ℤ := 103

/-- What the thread meets in a cycle: the result of `getWifiRSSI`, an `int8_t`, and what `isLive`
returns at its first, second and third call. -/
structure Cycle where
  rssi : Int8
  isLive₁ : Bool
  isLive₂ : Bool
  isLive₃ : Bool
  deriving DecidableEq, Repr

/-- `sys_net_wireless_wifi` and `sys_net_server_link` as published, and the variable
`serverConnetState` of the thread. -/
structure State where
  netWirelessWifi : ℤ
  netServerLink : Bool
  serverConnetState : Bool
  deriving DecidableEq, Repr

/-- The level published for a signal strength. -/
def wifiLevel (wifiDB : ℤ) : ℤ :=
  if wifiDB ≥ 0 then wirelessRssiDisconmect
  else if wifiDB ≥ -58 then wirelessRssiLevel1
  else if wifiDB < -58 ∧ wifiDB ≥ -80 then wirelessRssiLevel2
  else if wifiDB < -80 then wirelessRssiLevel3
  else wifiDB

/-- The answers that a cycle asks for: none without a signal, otherwise up to the first `True`. -/
def answers (c : Cycle) : List Bool :=
  if wifiLevel c.rssi.toInt > wirelessRssiDisconmect then
    if c.isLive₁ then [c.isLive₁]
    else if c.isLive₂ then [c.isLive₁, c.isLive₂]
    else [c.isLive₁, c.isLive₂, c.isLive₃]
  else []

/-- One cycle of the loop of `netLinkChkThr`. -/
def netLinkChkThr (s : State) (c : Cycle) : State :=
  let wifiDB := wifiLevel c.rssi.toInt
  let serverConnetState :=
    if wifiDB > wirelessRssiDisconmect then
      let serverConnetState := if c.isLive₁ = false then c.isLive₂ else true
      if serverConnetState = false then c.isLive₃ else serverConnetState
    else s.serverConnetState
  { netWirelessWifi := wifiDB
    netServerLink := serverConnetState
    serverConnetState := serverConnetState }

/-- The thread before its first cycle; what is published then is not its own. -/
def start (netWirelessWifi : ℤ) (netServerLink : Bool) : State :=
  ⟨netWirelessWifi, netServerLink, false⟩

def step (s : State) (c : Cycle) : Option State := some (netLinkChkThr s c)

/-- If a cycle publishes the server link, there is a signal and the server answered in this
cycle. -/
def Sound (s : State) (c : Cycle) : Prop :=
  (netLinkChkThr s c).netServerLink = true →
    (netLinkChkThr s c).netWirelessWifi ≠ wirelessRssiDisconmect ∧ true ∈ answers c

/-! ## The history that the variable carries -/

/-- Whether the server answered in the last cycle with a signal. -/
def lastAnswer : List Cycle → Bool
  | [] => false
  | c :: earlier => if c.rssi.toInt < 0 then true ∈ answers c else lastAnswer earlier

section Cycles
variable {s : State} {c : Cycle}

lemma wifiLevel_of_signal {wifiDB : ℤ} (h : wifiDB < 0) :
    wifiLevel wifiDB > wirelessRssiDisconmect := by
  unfold wifiLevel
  rw [if_neg (by omega)]
  split_ifs
  · show (101 : ℤ) > 100
    decide
  · show (102 : ℤ) > 100
    decide
  · show (103 : ℤ) > 100
    decide
  · omega

lemma wifiLevel_of_none {wifiDB : ℤ} (h : ¬ wifiDB < 0) :
    wifiLevel wifiDB = wirelessRssiDisconmect := by
  unfold wifiLevel
  rw [if_pos (by omega)]

/-- With a signal the variable says whether the server answered in this cycle. -/
lemma serverConnetState_of_signal (h : c.rssi.toInt < 0) :
    (netLinkChkThr s c).serverConnetState = decide (true ∈ answers c) := by
  simp only [netLinkChkThr, answers, if_pos (wifiLevel_of_signal h)]
  cases c.isLive₁ <;> cases c.isLive₂ <;> cases c.isLive₃ <;> rfl

/-- Without one it keeps what it was. -/
lemma serverConnetState_of_none (h : ¬ c.rssi.toInt < 0) :
    (netLinkChkThr s c).serverConnetState = s.serverConnetState := by
  simp only [netLinkChkThr, wifiLevel_of_none h]
  rw [if_neg (lt_irrefl _)]

lemma netServerLink_eq :
    (netLinkChkThr s c).netServerLink = (netLinkChkThr s c).serverConnetState := rfl

/-- A cycle is sound unless it finds no signal while the variable is set. -/
lemma sound_iff_step : Sound s c ↔ (¬ c.rssi.toInt < 0 → s.serverConnetState = false) := by
  unfold Sound
  rw [netServerLink_eq]
  by_cases h : c.rssi.toInt < 0
  · refine ⟨fun _ hnot => absurd h hnot, fun _ hlink => ⟨?_, ?_⟩⟩
    · show wifiLevel c.rssi.toInt ≠ wirelessRssiDisconmect
      exact (wifiLevel_of_signal h).ne'
    · rw [serverConnetState_of_signal h] at hlink
      exact of_decide_eq_true hlink
  · rw [serverConnetState_of_none h]
    constructor
    · intro hsound _
      by_contra hset
      obtain ⟨hwifi, -⟩ := hsound (by simpa using hset)
      exact hwifi (wifiLevel_of_none h)
    · intro hclear hset
      rw [hclear h] at hset
      simp at hset

/-- The variable after a run. -/
lemma serverConnetState_run {cycles : List Cycle} {t : State}
    (hrun : run step s cycles = some t) (earlier : List Cycle)
    (hs : s.serverConnetState = lastAnswer earlier) :
    t.serverConnetState = lastAnswer (cycles.reverse ++ earlier) := by
  induction cycles generalizing s earlier with
  | nil =>
    rw [run_nil, Option.some.injEq] at hrun
    rw [← hrun, hs]
    rfl
  | cons c cycles ih =>
    rw [List.reverse_cons, List.append_assoc]
    refine ih hrun (c :: earlier) ?_
    unfold lastAnswer
    by_cases h : c.rssi.toInt < 0
    · rw [if_pos h, serverConnetState_of_signal h]
    · rw [if_neg h, serverConnetState_of_none h, hs]

/-- **Exactly when the published server link is sound.** In every sequence of cycles: every cycle
is sound if and only if each cycle that finds no signal comes when the last one with a signal had
no answer from the server. -/
theorem sound_iff (netWirelessWifi : ℤ) (netServerLink : Bool) (cycles : List Cycle) :
    EveryStep step Sound (start netWirelessWifi netServerLink) cycles ↔
      ∀ before c after, cycles = before ++ c :: after → ¬ c.rssi.toInt < 0 →
        lastAnswer before.reverse = false := by
  rw [everyStep_iff_forall]
  have hstate {before : List Cycle} {t : State}
      (hrun : run step (start netWirelessWifi netServerLink) before = some t) :
      t.serverConnetState = lastAnswer before.reverse := by
    rw [serverConnetState_run hrun [] rfl, List.append_nil]
  constructor
  · intro h before c after hsplit hlost
    obtain ⟨t, hrun⟩ : ∃ t, run step (start netWirelessWifi netServerLink) before = some t :=
      run_of_total (fun s c => ⟨_, rfl⟩) before
    rw [← hstate hrun]
    exact sound_iff_step.mp (h before c after t hsplit hrun) hlost
  · intro h before c after t hsplit hrun
    refine sound_iff_step.mpr fun hlost => ?_
    rw [hstate hrun]
    exact h before c after hsplit hlost

/-- The server answers, and then the signal is gone: the link is still published. -/
theorem link_kept_after_loss :
    ¬ ∀ cycles, EveryStep step Sound (start 100 false) cycles := by
  intro h
  have hsteps := h [⟨-50, true, true, true⟩, ⟨0, false, false, false⟩]
  have hlost := ((hsteps.2 _ rfl).1 (by decide)).1
  exact hlost (by decide)

end Cycles

end IpncRdk.NetLink
