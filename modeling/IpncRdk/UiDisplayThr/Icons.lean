import IpncRdk.NetLink.LinkCheck
import IpncRdk.SysCfg.RunState

/-!
# `UIDispalyThr.c`: the icons of the status line

Twice a second `uiDisplayProc` copies the system state and, where it differs from the copy shown
last, draws an icon whose index it computes from the Wi-Fi level in the copy. The state begins
zeroed, and `netLinkChkThr` stores the first level when it gets there.

* `Event`, `step` — the steps of `main` that start the threads, and those of the threads;
* `IconsValid` — the icons that are drawn exist;
* `levelKnown` — a level had been published when the last copy was made;
* `iconsValid_iff` — exactly the orders of steps that draw icons from such copies only.
-/

namespace IpncRdk.UiDisplayThr

open Lib NetLink SysCfg

/-- `SYS_DEV_Camera_…` -/
inductive Camera
  | disconnect
  | err
  | normal
  deriving DecidableEq, Repr

/-- The members of `sys_state_st` that are ever stored; `none` is the zero of `initSysState`. -/
structure SysState where
  runState : Option RunState
  /-- `wifiLink.linkState` -/
  linkState : ℤ
  serverState : ℤ
  cameraState : Option Camera
  deriving DecidableEq, Repr

def zeroed : SysState := ⟨none, 0, 0, none⟩

/-! ## The threads -/

/-- The step that `main` takes next. -/
inductive Main
  | initSysState
  | initCameral
  | startCameral
  | uiDisplayThrCreat
  | netLinkThrCreat
  | keyChkThrCreat
  | loops
  deriving DecidableEq, Repr

/-- The thread that draws: `lastSysState`, and the copy that it is about to show. -/
structure Ui where
  lastSysState : SysState
  sysState : Option SysState
  deriving DecidableEq, Repr

/-- The thread that watches the link: its variable, and whether it has published the level of a
cycle whose server link it has yet to publish. -/
structure Net where
  serverConnetState : Bool
  published : Bool
  deriving DecidableEq, Repr

/-- The threads that `main` has not created yet are `none`, or `false`. -/
structure State where
  main : Main
  /-- `video_fd` is that of a device -/
  videoFd : Bool
  gSysState : SysState
  ui : Option Ui
  net : Option Net
  keyChk : Bool
  deriving DecidableEq, Repr

def start : State := ⟨.initSysState, false, zeroed, none, none, false⟩

inductive Event
  | initSysState
  | initCameral (opens : Bool)
  | startCameral (streams : Bool)
  | uiDisplayThrCreat
  | netLinkThrCreat
  | keyChkThrCreat
  /-- `keyChkThr`, or `airkissThr` that it creates, stores the run state -/
  | setRunState (runState : RunState)
  /-- `netLinkChkThr` publishes the level of a cycle -/
  | setWifi (c : Cycle)
  /-- and then the server link -/
  | setServerLink
  /-- `uiDisplayProc` copies the state -/
  | getSysState
  /-- and shows it -/
  | showSysNet
  deriving DecidableEq, Repr

/-- The camera's state as `Init_Cameral` and `Start_Cameral` leave it. -/
def openCamera (opens : Bool) (sys : SysState) : SysState :=
  if opens then sys else { sys with cameraState := some .disconnect }

def streamCamera (videoFd streams : Bool) (sys : SysState) : SysState :=
  if videoFd then { sys with cameraState := some (if streams then .normal else .err) } else sys

/-- A step of a thread, where that thread is there and has come to it. -/
def step (s : State) : Event → Option State
  | .initSysState =>
    if s.main = .initSysState then some { s with main := .initCameral, gSysState := zeroed }
    else none
  | .initCameral opens =>
    if s.main = .initCameral then
      some { s with
        main := .startCameral, videoFd := opens, gSysState := openCamera opens s.gSysState }
    else none
  | .startCameral streams =>
    if s.main = .startCameral then
      some { s with
        main := .uiDisplayThrCreat, gSysState := streamCamera s.videoFd streams s.gSysState }
    else none
  | .uiDisplayThrCreat =>
    if s.main = .uiDisplayThrCreat then
      some { s with main := .netLinkThrCreat, ui := some ⟨zeroed, none⟩ }
    else none
  | .netLinkThrCreat =>
    if s.main = .netLinkThrCreat then
      some { s with main := .keyChkThrCreat, net := some ⟨false, false⟩ }
    else none
  | .keyChkThrCreat =>
    if s.main = .keyChkThrCreat then some { s with main := .loops, keyChk := true } else none
  | .setRunState runState =>
    if s.keyChk then some { s with gSysState := { s.gSysState with runState := some runState } }
    else none
  | .setWifi c =>
    match s.net with
    | some ⟨serverConnetState, false⟩ =>
      let cycle := netLinkChkThr ⟨s.gSysState.linkState, false, serverConnetState⟩ c
      some { s with
        gSysState := { s.gSysState with linkState := cycle.netWirelessWifi }
        net := some ⟨cycle.serverConnetState, true⟩ }
    | _ => none
  | .setServerLink =>
    match s.net with
    | some ⟨serverConnetState, true⟩ =>
      some { s with
        gSysState := { s.gSysState with serverState := if serverConnetState then 1 else 0 }
        net := some ⟨serverConnetState, false⟩ }
    | _ => none
  | .getSysState =>
    match s.ui with
    | some ⟨lastSysState, none⟩ =>
      if s.gSysState = lastSysState then some s
      else some { s with ui := some ⟨lastSysState, some s.gSysState⟩ }
    | _ => none
  | .showSysNet =>
    match s.ui with
    | some ⟨_, some sysState⟩ => some { s with ui := some ⟨sysState, none⟩ }
    | _ => none

/-! ## The property -/

/-- `showSysNet` draws both icons from a copy, outside AirKiss. -/
def DrawsIcons (s : State) (sysState : SysState) : Prop :=
  (∃ lastSysState, s.ui = some ⟨lastSysState, some sysState⟩) ∧
    sysState.runState ≠ some .airkiss

/-- The icons that `showSysNet` draws: one of four for the level in the copy, and one of two for
the server link that it reads. -/
def IconsValid (s : State) (e : Event) : Prop :=
  e = .showSysNet → ∀ sysState, DrawsIcons s sysState →
    (0 ≤ sysState.linkState - wirelessRssiDisconmect ∧
      sysState.linkState - wirelessRssiDisconmect ≤ 3) ∧
    (s.gSysState.serverState = 0 ∨ s.gSysState.serverState = 1)

/-- A level has been published. -/
def published : List Event → Bool
  | [] => false
  | .setWifi _ :: _ => true
  | _ :: earlier => published earlier

/-- A level had been published when the last copy was made. -/
def levelKnown : List Event → Bool
  | [] => false
  | .getSysState :: earlier => published earlier
  | _ :: earlier => levelKnown earlier

/-! ## What the threads keep -/

/-- A level that has been published, or none. -/
def Level (known : Bool) (linkState : ℤ) : Prop :=
  if known then 100 ≤ linkState ∧ linkState ≤ 103 else linkState = 0

structure Inv (earlier : List Event) (s : State) : Prop where
  level : Level (published earlier) s.gSysState.linkState
  copy : ∀ lastSysState sysState, s.ui = some ⟨lastSysState, some sysState⟩ →
    Level (levelKnown earlier) sysState.linkState
  server : s.gSysState.serverState = 0 ∨ s.gSysState.serverState = 1
  /-- nothing is published before the state is zeroed -/
  fresh : s.main = .initSysState → published earlier = false ∧ s.net = none

section Steps
variable {earlier : List Event} {s t : State} {e : Event}

lemma wifiLevel_bounds (wifiDB : ℤ) : 100 ≤ wifiLevel wifiDB ∧ wifiLevel wifiDB ≤ 103 := by
  unfold wifiLevel
  split_ifs
  · exact ⟨le_refl 100, by decide⟩
  · exact ⟨by decide, by decide⟩
  · exact ⟨by decide, by decide⟩
  · exact ⟨by decide, le_refl 103⟩
  · omega

/-- A step that publishes no level and makes no copy. -/
lemma Inv.of_eq (h : Inv earlier s) (hpublished : published (e :: earlier) = published earlier)
    (hknown : levelKnown (e :: earlier) = levelKnown earlier)
    (hlevel : t.gSysState.linkState = s.gSysState.linkState)
    (hcopy : ∀ lastSysState sysState, t.ui = some ⟨lastSysState, some sysState⟩ →
      s.ui = some ⟨lastSysState, some sysState⟩)
    (hserver : t.gSysState.serverState = 0 ∨ t.gSysState.serverState = 1)
    (hmain : t.main = .initSysState → s.main = .initSysState ∧ t.net = s.net) :
    Inv (e :: earlier) t where
  level := by
    rw [hpublished, hlevel]
    exact h.level
  copy lastSysState sysState hui := by
    rw [hknown]
    exact h.copy lastSysState sysState (hcopy lastSysState sysState hui)
  server := hserver
  fresh hinit := by
    obtain ⟨hbefore, hnet⟩ := hmain hinit
    rw [hpublished, hnet]
    exact h.fresh hbefore

lemma of_guard {p : Prop} [Decidable p] (h : (if p then some s else none) = some t) :
    p ∧ s = t := by
  rw [Option.ite_none_right_eq_some, Option.some.injEq] at h
  exact h

lemma openCamera_linkState (opens : Bool) (sys : SysState) :
    (openCamera opens sys).linkState = sys.linkState := by
  cases opens <;> rfl

lemma openCamera_serverState (opens : Bool) (sys : SysState) :
    (openCamera opens sys).serverState = sys.serverState := by
  cases opens <;> rfl

lemma streamCamera_linkState (videoFd streams : Bool) (sys : SysState) :
    (streamCamera videoFd streams sys).linkState = sys.linkState := by
  cases videoFd <;> rfl

lemma streamCamera_serverState (videoFd streams : Bool) (sys : SysState) :
    (streamCamera videoFd streams sys).serverState = sys.serverState := by
  cases videoFd <;> rfl

lemma step_setWifi {c : Cycle} (h : step s (.setWifi c) = some t) :
    ∃ serverConnetState, s.net = some ⟨serverConnetState, false⟩ ∧
      ∃ cycle, cycle = netLinkChkThr ⟨s.gSysState.linkState, false, serverConnetState⟩ c ∧
        t = { s with
          gSysState := { s.gSysState with linkState := cycle.netWirelessWifi }
          net := some ⟨cycle.serverConnetState, true⟩ } := by
  unfold step at h
  dsimp only at h
  split at h
  · next serverConnetState hnet =>
    exact ⟨serverConnetState, hnet, _, rfl, (Option.some.inj h).symm⟩
  · cases h

lemma step_setServerLink (h : step s .setServerLink = some t) :
    ∃ serverConnetState, s.net = some ⟨serverConnetState, true⟩ ∧
      t = { s with
        gSysState := { s.gSysState with serverState := if serverConnetState then 1 else 0 }
        net := some ⟨serverConnetState, false⟩ } := by
  unfold step at h
  dsimp only at h
  split at h
  · next serverConnetState hnet => exact ⟨serverConnetState, hnet, (Option.some.inj h).symm⟩
  · cases h

/-- A copy is made to be shown, unless nothing has changed. -/
lemma step_getSysState (h : step s .getSysState = some t) :
    ∃ lastSysState, s.ui = some ⟨lastSysState, none⟩ ∧
      (t = s ∨ t = { s with ui := some ⟨lastSysState, some s.gSysState⟩ }) := by
  unfold step at h
  dsimp only at h
  split at h
  · next lastSysState hui =>
    refine ⟨lastSysState, hui, ?_⟩
    split at h
    · exact .inl (Option.some.inj h).symm
    · exact .inr (Option.some.inj h).symm
  · cases h

lemma step_showSysNet (h : step s .showSysNet = some t) :
    ∃ sysState, t = { s with ui := some ⟨sysState, none⟩ } := by
  unfold step at h
  dsimp only at h
  split at h
  · next lastSysState sysState _ => exact ⟨sysState, (Option.some.inj h).symm⟩
  · cases h

/-- What one step preserves. -/
lemma inv_step (h : Inv earlier s) (hstep : step s e = some t) : Inv (e :: earlier) t := by
  have hcopy : ∀ lastSysState sysState, s.ui = some ⟨lastSysState, some sysState⟩ →
      s.ui = some ⟨lastSysState, some sysState⟩ := fun _ _ => id
  cases e with
  | initSysState =>
    obtain ⟨hmain, rfl⟩ := of_guard hstep
    obtain ⟨hnone, -⟩ := h.fresh hmain
    have hpublished : published (.initSysState :: earlier) = false := hnone
    refine ⟨?_, h.copy, .inl rfl, fun hinit => by cases hinit⟩
    rw [hpublished]
    rfl
  | initCameral opens =>
    obtain ⟨-, rfl⟩ := of_guard hstep
    exact h.of_eq rfl rfl (openCamera_linkState opens _) hcopy
      ((openCamera_serverState opens _).symm ▸ h.server) (fun hinit => by cases hinit)
  | startCameral streams =>
    obtain ⟨-, rfl⟩ := of_guard hstep
    exact h.of_eq rfl rfl (streamCamera_linkState s.videoFd streams _) hcopy
      ((streamCamera_serverState s.videoFd streams _).symm ▸ h.server) (fun hinit => by cases hinit)
  | uiDisplayThrCreat =>
    obtain ⟨-, rfl⟩ := of_guard hstep
    exact h.of_eq rfl rfl rfl (fun _ _ hui => by cases hui) h.server (fun hinit => by cases hinit)
  | netLinkThrCreat =>
    obtain ⟨-, rfl⟩ := of_guard hstep
    exact h.of_eq rfl rfl rfl hcopy h.server (fun hinit => by cases hinit)
  | keyChkThrCreat =>
    obtain ⟨-, rfl⟩ := of_guard hstep
    exact h.of_eq rfl rfl rfl hcopy h.server (fun hinit => by cases hinit)
  | setRunState runState =>
    obtain ⟨-, rfl⟩ := of_guard hstep
    exact h.of_eq rfl rfl rfl hcopy h.server (fun hinit => ⟨hinit, rfl⟩)
  | setWifi c =>
    obtain ⟨serverConnetState, hnet, cycle, rfl, rfl⟩ := step_setWifi hstep
    refine ⟨wifiLevel_bounds c.rssi.toInt, h.copy, h.server, fun hinit => ?_⟩
    cases hnet.symm.trans (h.fresh hinit).2
  | setServerLink =>
    obtain ⟨serverConnetState, hnet, rfl⟩ := step_setServerLink hstep
    refine h.of_eq rfl rfl rfl hcopy ?_ fun hinit => ?_
    · cases serverConnetState with
      | true => exact .inr rfl
      | false => exact .inl rfl
    · cases hnet.symm.trans (h.fresh hinit).2
  | getSysState =>
    obtain ⟨lastSysState, hui, rfl | rfl⟩ := step_getSysState hstep
    · -- nothing is to be shown
      refine ⟨h.level, fun _ _ hui' => ?_, h.server, h.fresh⟩
      cases hui.symm.trans hui'
    · refine ⟨h.level, fun _ sysState hui' => ?_, h.server, h.fresh⟩
      cases hui'
      exact h.level
  | showSysNet =>
    obtain ⟨sysState, rfl⟩ := step_showSysNet hstep
    exact h.of_eq rfl rfl rfl (fun _ _ hui => by cases hui) h.server (fun hinit => ⟨hinit, rfl⟩)

/-- What a run preserves. -/
lemma inv_run {es : List Event} (h : Inv earlier s) (hrun : run step s es = some t) :
    Inv (es.reverse ++ earlier) t := by
  induction es generalizing s earlier with
  | nil =>
    rw [run_nil, Option.some.injEq] at hrun
    exact hrun ▸ h
  | cons e es ih =>
    obtain ⟨s', hstep, hrest⟩ := run_cons_eq_some.mp hrun
    rw [List.reverse_cons, List.append_assoc]
    exact ih (inv_step h hstep) hrest

lemma inv_start : Inv [] start where
  level := rfl
  copy _ _ hui := by cases hui
  server := .inl rfl
  fresh _ := ⟨rfl, rfl⟩

/-- The icons exist exactly if the copy has a published level. -/
lemma iconsValid_iff_step (h : Inv earlier s) : IconsValid s .showSysNet ↔
    ∀ sysState, DrawsIcons s sysState → levelKnown earlier = true := by
  unfold IconsValid
  rw [forall_prop_of_true rfl]
  refine forall₂_congr fun sysState hdraws => ?_
  obtain ⟨⟨lastSysState, hui⟩, -⟩ := hdraws
  have hlevel := h.copy lastSysState sysState hui
  unfold Level at hlevel
  cases hknown : levelKnown earlier with
  | true =>
    rw [hknown, if_pos rfl] at hlevel
    refine iff_of_true ⟨?_, h.server⟩ rfl
    show 0 ≤ sysState.linkState - 100 ∧ sysState.linkState - 100 ≤ 3
    omega
  | false =>
    rw [hknown, if_neg Bool.false_ne_true] at hlevel
    refine iff_of_false (fun hvalid => ?_) Bool.false_ne_true
    have hlow : 0 ≤ sysState.linkState - 100 := hvalid.1.1
    omega

/-- **Exactly when the icons exist.** In every order of the start-up and the threads' steps: every
icon that is drawn exists if and only if icons are only drawn from copies that were made after the
first level had been published. -/
theorem iconsValid_iff (es : List Event) : EveryStep step IconsValid start es ↔
    ∀ before after t sysState, es = before ++ .showSysNet :: after →
      run step start before = some t → DrawsIcons t sysState →
      levelKnown before.reverse = true := by
  have hinv : ∀ {before t}, run step start before = some t → Inv before.reverse t := by
    intro before t hrun
    have h := inv_run inv_start hrun
    rwa [List.append_nil] at h
  rw [everyStep_iff_forall]
  constructor
  · intro h before after t sysState hsplit hrun hdraws
    exact (iconsValid_iff_step (hinv hrun)).mp (h before .showSysNet after t hsplit hrun) sysState
      hdraws
  · intro h before e after t hsplit hrun he
    subst he
    have hknown : ∀ sysState, DrawsIcons t sysState → levelKnown before.reverse = true :=
      fun sysState hdraws => h before after t sysState hsplit hrun hdraws
    exact (iconsValid_iff_step (hinv hrun)).mpr hknown rfl

/-- The camera works, and the state is shown before the first reading of the Wi-Fi. -/
theorem iconsValid_not_always : ¬ ∀ es, EveryStep step IconsValid start es := by
  intro h
  have hsteps := everyStep_iff_forall.mp (h [.initSysState, .initCameral true, .startCameral true,
    .uiDisplayThrCreat, .getSysState, .showSysNet])
  have hvalid := hsteps [.initSysState, .initCameral true, .startCameral true,
    .uiDisplayThrCreat, .getSysState] .showSysNet [] _ rfl rfl rfl ⟨none, 0, 0, some .normal⟩
    ⟨⟨zeroed, rfl⟩, by decide⟩
  exact absurd hvalid.1.1 (by decide)

end Steps

end IpncRdk.UiDisplayThr
