import IpncRdk.SysCtrl.Outputs

/-!
# When the outputs of a check are safe

* `Safe` — both outputs are off while no check runs and once the state is 6, and the heater is on
  in state 1 of a registered check only;
* `Spares` — the steps that spare the outputs, on every path out of a check;
* `outputs_safe_iff` — a run is safe throughout exactly when all its steps do;
* `outputs_unsafe` — an abort during the heating leaves the heater on.
-/

namespace IpncRdk.SysCtrl.Outputs

open Lib
open SysCfg (RunState)

/-- The safety of the actuators. -/
structure Safe (s : State) : Prop where
  off : s.key = .running → s.runState ≠ .exeTask → s.heat = false ∧ s.light = false
  heat : s.heat = true → s.registered = true ∧ s.machine.state = 1
  finished : s.machine.state = 6 → s.heat = false ∧ s.light = false

/-- `UnRegisterProc` does not come in state 1; an invocation in state 0 finds the task
registered, and one in state 5 a valid report or the light off; `ExitTask` ends with the light
still off. -/
def Spares (s : State) : Event → Prop
  | .unregister => s.key = .unregister → s.machine.state ≠ 1
  | .setIdle => s.key = .setIdle → s.light = false
  | .invoke _ _ => s.picked = true →
    (s.machine.state = 0 → s.registered = true) ∧
      (s.machine.state = 5 → s.isValid = true ∨ s.light = false)
  | _ => True

/-! ## One invocation -/

section Invoke
variable (link answered : Bool) (s : State)

/-- The actions of an invocation leave alone what the key thread writes. -/
lemma foldl_perform_frame (actions : List Action) :
    let t := actions.foldl (perform answered) s
    t.machine = s.machine ∧ t.registered = s.registered ∧ t.picked = s.picked ∧
      t.runState = s.runState ∧ t.key = s.key := by
  induction actions generalizing s with
  | nil => exact ⟨rfl, rfl, rfl, rfl, rfl⟩
  | cons a actions ih =>
    have hperform : (perform answered s a).machine = s.machine ∧
        (perform answered s a).registered = s.registered ∧
        (perform answered s a).picked = s.picked ∧
        (perform answered s a).runState = s.runState ∧ (perform answered s a).key = s.key := by
      unfold perform
      split
      · split_ifs <;> exact ⟨rfl, rfl, rfl, rfl, rfl⟩
      all_goals exact ⟨rfl, rfl, rfl, rfl, rfl⟩
    have htail := ih (perform answered s a)
    simp only [hperform] at htail
    exact htail

@[simp] lemma invoke_machine : (invoke link answered s).machine =
    (execTaskStateMachine link s.isValid s.machine).1 :=
  (foldl_perform_frame answered _ _).1

@[simp] lemma invoke_registered : (invoke link answered s).registered = s.registered :=
  (foldl_perform_frame answered _ _).2.1

@[simp] lemma invoke_runState : (invoke link answered s).runState = s.runState :=
  (foldl_perform_frame answered _ _).2.2.2.1

@[simp] lemma invoke_key : (invoke link answered s).key = s.key :=
  (foldl_perform_frame answered _ _).2.2.2.2

/-- An action leaves what it writes in an output. -/
lemma perform_outputs (a : Action) :
    (perform answered s a).heat = (a.writes gpioHeatEn).getD s.heat ∧
      (perform answered s a).light = (a.writes gpioFlashLightEn).getD s.light := by
  cases a with
  | gioWrite gpio high =>
    unfold perform Action.writes
    by_cases hheat : gpio = gpioHeatEn
    · subst hheat
      exact ⟨rfl, rfl⟩
    by_cases hlight : gpio = gpioFlashLightEn
    · subst hlight
      exact ⟨rfl, rfl⟩
    · simp [hheat, hlight]
  | _ => exact ⟨rfl, rfl⟩

/-- The actions of an invocation leave the last value written in each output. -/
lemma foldl_perform_outputs (actions : List Action) :
    (actions.foldl (perform answered) s).heat = (lastWrite gpioHeatEn actions).getD s.heat ∧
      (actions.foldl (perform answered) s).light =
        (lastWrite gpioFlashLightEn actions).getD s.light := by
  induction actions generalizing s with
  | nil => exact ⟨rfl, rfl⟩
  | cons a actions ih =>
    obtain ⟨hheat, hlight⟩ := ih (perform answered s a)
    rw [List.foldl_cons, hheat, hlight, lastWrite_cons, lastWrite_cons, Option.getD_or,
      Option.getD_or, (perform_outputs answered s a).1, (perform_outputs answered s a).2]
    exact ⟨rfl, rfl⟩

lemma invoke_heat : (invoke link answered s).heat =
    if s.machine.state = 0 then true
    else if s.machine.state = 1 ∧ s.machine.heatCount = 1 then false else s.heat := by
  have hlast := lastWrite_heat (execTaskStateMachine_branch link s.isValid s.machine)
  unfold invoke
  rw [(foldl_perform_outputs answered _ _).1, hlast]
  split_ifs <;> rfl

lemma invoke_light : (invoke link answered s).light =
    if s.machine.state = 1 ∧ s.machine.heatCount = 11 then true
    else if s.machine.state = 5 ∧ s.isValid = true then false else s.light := by
  have hlast := lastWrite_light (execTaskStateMachine_branch link s.isValid s.machine)
  unfold invoke
  rw [(foldl_perform_outputs answered _ _).2, hlast]
  split_ifs <;> rfl

end Invoke

/-! ## The invariant -/

/-- The heater burns in state 1, which only a registered check is in, and what the key thread
does next tells whether one is registered. -/
structure Inv (s : State) : Prop where
  heat : s.heat = true ↔ s.machine.state = 1
  registered : s.machine.state = 1 → s.registered = true
  key : s.registered = true ↔
    s.key = .setExeTask ∨ s.key = .unregister ∨ (s.key = .running ∧ s.runState = .exeTask)
  light : s.key = .register ∨ (s.key = .running ∧ s.runState ≠ .exeTask) → s.light = false
  finished : s.machine.state = 6 → s.light = false
  idle : s.key = .register → s.runState ≠ .exeTask

namespace Inv

variable {s : State}

lemma safe (h : Inv s) : Safe s := by
  have hheat : s.machine.state ≠ 1 → s.heat = false := by
    intro hne
    rw [← Bool.not_eq_true, h.heat]
    exact hne
  refine ⟨fun hkey hrun => ⟨hheat fun hone => ?_, h.light (.inr ⟨hkey, hrun⟩)⟩,
    fun hon => ⟨h.registered (h.heat.mp hon), h.heat.mp hon⟩,
    fun hsix => ⟨hheat (by omega), h.finished hsix⟩⟩
  -- state 1 needs a registered check, which a running or idle key thread does not have
  have hreg := h.key.mp (h.registered hone)
  simp [hkey, hrun] at hreg

lemma initial : Inv initial := by
  constructor <;> decide

end Inv

/-! ## Steps -/

section Steps
variable {s : State}

/-- Where no check is registered the machine is not heating. -/
lemma Inv.not_heating (hI : Inv s) (hreg : s.registered = false) :
    s.heat = false ∧ s.machine.state ≠ 1 := by
  have hone : s.machine.state ≠ 1 := by
    intro hone
    rw [hI.registered hone] at hreg
    nomatch hreg
  refine ⟨?_, hone⟩
  rw [← Bool.not_eq_true, hI.heat]
  exact hone

/-- Where the key thread is between the two parts of `execTask`, or runs outside of a check, no
check is registered. -/
lemma Inv.not_registered (hI : Inv s)
    (h : s.key = .register ∨ s.key = .setIdle ∨ (s.key = .running ∧ s.runState ≠ .exeTask)) :
    s.registered = false := by
  rw [← Bool.not_eq_true, hI.key]
  rcases h with hkey | hkey | ⟨hkey, hrun⟩
  · simp [hkey]
  · simp [hkey]
  · simp [hkey, hrun]

lemma inv_execTask (hI : Inv s) (hkey : s.key = .running) (hrun : s.runState = .idle) :
    Inv { s with machine := { s.machine with state := 0 }, key := .register } := by
  have hne : s.runState ≠ .exeTask := by
    rw [hrun]
    decide
  have hreg := hI.not_registered (.inr (.inr ⟨hkey, hne⟩))
  have hlight := hI.light (.inr ⟨hkey, hne⟩)
  have hheat := (hI.not_heating hreg).1
  constructor <;> simp [hheat, hlight, hreg, hne]

lemma inv_register (hI : Inv s) (hkey : s.key = .register) (success : Bool) :
    Inv { s with
      registered := success
      key := if success then .setExeTask else .running } := by
  have hlight : s.light = false := hI.light (.inl hkey)
  have hrun := hI.idle hkey
  obtain ⟨hheat, hone⟩ := hI.not_heating (hI.not_registered (.inl hkey))
  cases success with
  | true => constructor <;> simp [hone, hheat, hlight]
  | false => constructor <;> simp [hone, hheat, hlight, hrun]

lemma inv_setExeTask (hI : Inv s) (hkey : s.key = .setExeTask) :
    Inv { s with runState := .exeTask, key := .running } := by
  have hreg : s.registered = true := hI.key.mpr (.inl hkey)
  refine ⟨hI.heat, hI.registered, ?_, ?_, hI.finished, ?_⟩ <;> simp [hreg]

lemma inv_exitTask (hI : Inv s) (hkey : s.key = .running) (hrun : s.runState = .exeTask) :
    Inv { s with light := false, key := .unregister } := by
  have hreg : s.registered = true := hI.key.mpr (.inr (.inr ⟨hkey, hrun⟩))
  refine ⟨hI.heat, hI.registered, ?_, ?_, ?_, ?_⟩ <;> simp [hreg]

lemma inv_unregister (hI : Inv s) (hone : s.machine.state ≠ 1) :
    Inv { s with registered := false, key := .setIdle } := by
  refine ⟨hI.heat, fun h => absurd h hone, ?_, ?_, hI.finished, ?_⟩ <;> simp

lemma inv_setIdle (hI : Inv s) (hkey : s.key = .setIdle) (hlight : s.light = false) :
    Inv { s with runState := .idle, key := .running } := by
  have hreg := hI.not_registered (.inr (.inl hkey))
  refine ⟨hI.heat, hI.registered, ?_, ?_, hI.finished, ?_⟩ <;> simp [hreg, hlight]

lemma inv_otherRunState (hI : Inv s) (hkey : s.key = .running) (hrun : s.runState ≠ .exeTask)
    {runState : RunState} (hother : runState ≠ .exeTask) : Inv { s with runState := runState } := by
  have hreg := hI.not_registered (.inr (.inr ⟨hkey, hrun⟩))
  have hlight := hI.light (.inr ⟨hkey, hrun⟩)
  refine ⟨hI.heat, hI.registered, ?_, ?_, hI.finished, ?_⟩ <;> simp [hreg, hlight, hkey, hother]

lemma inv_invoke (hI : Inv s) (link answered : Bool)
    (hzero : s.machine.state = 0 → s.registered = true)
    (hfive : s.machine.state = 5 → s.isValid = true ∨ s.light = false) :
    Inv (invoke link answered s) := by
  have hone := state_eq_one_iff (execTaskStateMachine_branch link s.isValid s.machine)
  have hsix := state_eq_six_iff (execTaskStateMachine_branch link s.isValid s.machine)
  constructor
  · -- the heater goes on and off with state 1
    rw [invoke_heat, invoke_machine, hone]
    split_ifs with h0 h1
    · simp [h0]
    · simp [h1]
    · rw [hI.heat]
      omega
  · rw [invoke_machine, invoke_registered, hone]
    rintro (h0 | ⟨h1, _⟩)
    · exact hzero h0
    · exact hI.registered h1
  · rw [invoke_registered, invoke_key, invoke_runState]
    exact hI.key
  · -- the light only goes on in state 1, when a check is registered
    rw [invoke_key, invoke_runState, invoke_light]
    intro hkey
    have hreg : s.registered = false := by
      apply hI.not_registered
      rcases hkey with hkey | hkey
      · exact .inl hkey
      · exact .inr (.inr hkey)
    rw [if_neg fun h => (hI.not_heating hreg).2 h.1, hI.light hkey, ite_self]
  -- state 6 is entered from state 5, which puts the light out with a valid report
  · rw [invoke_machine, hsix, invoke_light]
    rintro (h5 | h6)
    · rw [if_neg (by omega)]
      rcases hfive h5 with hvalid | hlight
      · rw [if_pos ⟨h5, hvalid⟩]
      · rw [hlight, ite_self]
    · rw [if_neg (by omega), if_neg (by omega)]
      exact hI.finished h6
  · rw [invoke_key, invoke_runState]
    exact hI.idle

/-- A step that spares the outputs keeps the invariant. -/
lemma inv_step {e : Event} {t : State} (hI : Inv s) (hspares : Spares s e)
    (h : step s e = some t) : Inv t := by
  cases e with
  | execTask =>
    obtain ⟨hen, rfl⟩ := Option.ite_some_none_eq_some.mp h
    exact inv_execTask hI hen.1 hen.2
  | register success =>
    obtain ⟨hen, rfl⟩ := Option.ite_some_none_eq_some.mp h
    exact inv_register hI hen success
  | setExeTask =>
    obtain ⟨hen, rfl⟩ := Option.ite_some_none_eq_some.mp h
    exact inv_setExeTask hI hen
  | exitTask =>
    obtain ⟨hen, rfl⟩ := Option.ite_some_none_eq_some.mp h
    exact inv_exitTask hI hen.1 hen.2
  | unregister =>
    obtain ⟨hen, rfl⟩ := Option.ite_some_none_eq_some.mp h
    exact inv_unregister hI (hspares hen)
  | setIdle =>
    obtain ⟨hen, rfl⟩ := Option.ite_some_none_eq_some.mp h
    exact inv_setIdle hI hen (hspares hen)
  | otherRunState runState =>
    obtain ⟨hen, rfl⟩ := Option.ite_some_none_eq_some.mp h
    exact inv_otherRunState hI hen.1 hen.2.1 hen.2.2
  | pick =>
    obtain ⟨_, rfl⟩ := Option.ite_some_none_eq_some.mp h
    exact ⟨hI.heat, hI.registered, hI.key, hI.light, hI.finished, hI.idle⟩
  | invoke link answered =>
    obtain ⟨hen, rfl⟩ := Option.ite_some_none_eq_some.mp h
    have hsp := hspares hen
    exact inv_invoke hI link answered hsp.1 hsp.2

/-- A step that does not spare the outputs leaves one of them on. -/
lemma unsafe_step {e : Event} (hI : Inv s) (h : ¬ Spares s e) :
    ∃ t, step s e = some t ∧ ¬ Safe t := by
  cases e with
  | unregister =>
    obtain ⟨hkey, hone⟩ : s.key = .unregister ∧ s.machine.state = 1 := by
      simpa [Spares] using h
    refine ⟨_, if_pos hkey, fun hsafe => ?_⟩
    -- the heater is on in state 1, and its check is no longer registered
    have hreg := (hsafe.heat (hI.heat.mpr hone)).1
    nomatch hreg
  | setIdle =>
    obtain ⟨hkey, hlight⟩ : s.key = .setIdle ∧ s.light = true := by
      simpa [Spares] using h
    refine ⟨_, if_pos hkey, fun hsafe => ?_⟩
    have hidle : RunState.idle ≠ .exeTask := by decide
    have hoff : s.light = false := (hsafe.off rfl hidle).2
    rw [hoff] at hlight
    nomatch hlight
  | invoke link answered =>
    have hpicked : s.picked = true := by
      by_contra hnot
      exact h fun hpicked => absurd hpicked hnot
    refine ⟨_, if_pos hpicked, fun hsafe => h fun _ => ⟨fun h0 => ?_, fun h5 => ?_⟩⟩
    · -- an invocation in state 0 turns the heater on
      have hheat : (invoke link answered s).heat = true := by
        rw [invoke_heat, if_pos h0]
      have hreg := (hsafe.heat hheat).1
      rwa [invoke_registered] at hreg
    · -- an invocation in state 5 enters state 6
      have hsix : (invoke link answered s).machine.state = 6 := by
        rw [invoke_machine,
          state_eq_six_iff (execTaskStateMachine_branch link s.isValid s.machine)]
        exact .inl h5
      have hlight := (hsafe.finished hsix).2
      rw [invoke_light, if_neg (by omega)] at hlight
      by_cases hvalid : s.isValid = true
      · exact .inl hvalid
      · rw [if_neg (by simp [hvalid])] at hlight
        exact .inr hlight
  | _ => exact absurd trivial h

end Steps

/-! ## Runs -/

/-- A run is safe throughout exactly when all its steps spare the outputs. -/
theorem outputs_safe_iff (es : List Event) :
    Always step Safe initial es ↔ EveryStep step Spares initial es :=
  always_iff_everyStep (fun _ hI => hI.safe) (fun _ _ _ hI hC h => inv_step hI hC h)
    (fun _ _ hI h => unsafe_step hI h) es Inv.initial

/-- A key press in the first second of the heating ends the check with the heater on. -/
theorem outputs_unsafe :
    ¬ Always step Safe initial
      [.execTask, .register true, .setExeTask, .pick, .invoke true false, .exitTask, .unregister,
        .setIdle] := by
  intro h
  have hlast := (h.2 _ rfl).2 _ rfl
  have hsafe := (hlast.2 _ rfl).2 _ rfl
  have hend := (((hsafe.2 _ rfl).2 _ rfl).2 _ rfl).2 _ rfl
  exact absurd (hend.off rfl (by decide)).1 (by decide)

end IpncRdk.SysCtrl.Outputs
