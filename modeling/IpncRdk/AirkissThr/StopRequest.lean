import IpncRdk.AirkissThr.Thread

/-!
# The stop request of the AirKiss thread

A request stands from `isExit = True` until the thread has left its receive loop. The one
statement that can lose it is the reset of `isExit` at the end of the thread's start-up.
-/

namespace IpncRdk.AirkissThr

open Lib

/-- The thread has not left its receive loop yet. -/
def Pc.beforeLoopEnd : Pc → Bool
  | .init | .socket | .monitor | .reset | .test | .receive => true
  | .stop | .connect | .finish | .exited => false

/-- A stop request is not lost: from the request until the thread has left its loop `isExit`
is true, and no loop test after the request begins another pass. -/
structure StopKept (s : State) : Prop where
  flag : s.key = .joining → s.pc.beforeLoopEnd = true → s.isExit = true
  passes : s.latePasses = 0

/-- The thread does not execute `isExit = 0` while a stop request is pending. -/
def ResetBeforeStop (s : State) (e : Event) : Prop :=
  s.pc = .reset → (∃ succeeds, e = .thread succeeds) → s.key ≠ .joining

lemma stopKept_initial : StopKept initial := ⟨fun h => (nomatch h), rfl⟩

/-- The thread's own steps keep a pending request, except for the reset. -/
lemma stopKept_threadStep {s s' : State} {succeeds : Bool} (hI : StopKept s)
    (hreset : s.pc = .reset → s.key ≠ .joining) (hstep : threadStep s succeeds = some s') :
    StopKept s' := by
  unfold threadStep at hstep
  -- a step that only moves on in front of the end of the loop
  have early : ∀ next : Pc, (next.beforeLoopEnd = true → s.pc.beforeLoopEnd = true) →
      StopKept { s with pc := next } := fun next h => ⟨fun hk hn => hI.flag hk (h hn), hI.passes⟩
  cases hpc : s.pc <;> rw [hpc] at hstep early <;>
    simp only [Option.some.injEq, reduceCtorEq] at hstep
  case init | socket | monitor =>
    subst hstep
    exact early _ fun _ => rfl
  case reset =>
    subst hstep
    exact ⟨fun hk => absurd hk (hreset hpc), hI.passes⟩
  case test =>
    -- with a request pending the test reads true
    by_cases hexit : s.isExit = true
    · rw [if_pos hexit, Option.some.injEq] at hstep
      subst hstep
      exact early _ fun _ => rfl
    · have hkey : s.key ≠ .joining := fun hk => hexit (hI.flag hk (by rw [hpc]; rfl))
      rw [if_neg hexit, Option.some.injEq, if_neg hkey] at hstep
      subst hstep
      exact ⟨fun hk => absurd hk hkey, hI.passes⟩
  case stop =>
    subst hstep
    exact early _ fun h => by cases succeeds <;> cases h
  case connect =>
    subst hstep
    exact early _ fun h => by cases h
  case finish =>
    subst hstep
    exact ⟨fun _ hn => (nomatch hn), hI.passes⟩

/-- One pass of the loop leaves flag and request alone. -/
lemma stopKept_receiveStep {s : State} (hI : StopKept s) (hpc : s.pc = .receive)
    (received : Received) : StopKept (receiveStep s received) := by
  have hflag : s.key = .joining → s.isExit = true := fun hk => hI.flag hk (by rw [hpc]; rfl)
  cases received with
  | nothing => exact ⟨fun hk _ => hflag hk, hI.passes⟩
  | channelLocked => exact ⟨fun hk _ => hflag hk, hI.passes⟩
  | complete result => cases result <;> exact ⟨fun hk _ => hflag hk, hI.passes⟩

theorem stopKept_step (s : State) (e : Event) (s' : State) (hI : StopKept s)
    (hC : ResetBeforeStop s e) (hstep : step s e = some s') : StopKept s' := by
  cases e with
  | create =>
    simp only [step, Option.ite_none_right_eq_some, Option.some.injEq] at hstep
    obtain ⟨⟨hkey, -⟩, rfl⟩ := hstep
    refine ⟨fun hk => ?_, rfl⟩
    rw [show s.key = .joining from hk] at hkey
    cases hkey
  | wpsShort =>
    simp only [step, Option.ite_none_right_eq_some, Option.some.injEq] at hstep
    obtain ⟨-, rfl⟩ := hstep
    exact ⟨fun hk => (nomatch hk), hI.passes⟩
  | request =>
    simp only [step, Option.ite_none_right_eq_some, Option.some.injEq] at hstep
    obtain ⟨-, rfl⟩ := hstep
    exact ⟨fun _ _ => rfl, hI.passes⟩
  | join =>
    simp only [step, Option.ite_none_right_eq_some, Option.some.injEq] at hstep
    obtain ⟨-, rfl⟩ := hstep
    exact ⟨fun hk => (nomatch hk), hI.passes⟩
  | thread succeeds =>
    exact stopKept_threadStep hI (fun hpc => hC hpc ⟨succeeds, rfl⟩) hstep
  | pass received =>
    simp only [step, Option.ite_none_right_eq_some, Option.some.injEq] at hstep
    obtain ⟨hpc, rfl⟩ := hstep
    exact stopKept_receiveStep hI hpc received

/-- The reset with a request pending loses the request at once. -/
lemma stop_lost {s : State} {e : Event} (hC : ¬ ResetBeforeStop s e) :
    ∃ s', step s e = some s' ∧ ¬ StopKept s' := by
  unfold ResetBeforeStop at hC
  push Not at hC
  obtain ⟨hpc, ⟨succeeds, rfl⟩, hkey⟩ := hC
  refine ⟨{ s with isExit := false, pc := .test }, ?_, fun hI => ?_⟩
  · simp only [step, threadStep, hpc]
  · exact absurd (hI.flag hkey rfl) Bool.false_ne_true

/-- **Exactly when no stop request is lost.** In every interleaving of the key thread with
the steps of `airkissThr`, over any number of starts and stops, the request is kept in all
states if and only if the thread never executes `isExit = 0` with a request pending. -/
theorem stop_kept_iff (events : List Event) :
    Always step StopKept initial events ↔ EveryStep step ResetBeforeStop initial events :=
  always_iff_everyStep (I := StopKept) (fun _ hI => hI) stopKept_step
    (fun _ _ _ hC => stop_lost hC) events stopKept_initial

/-- The stop comes while the thread is still opening its socket. -/
theorem stop_not_kept :
    ¬ Always step StopKept initial
      [.create, .wpsShort, .request, .thread true, .thread true, .thread true, .thread true] := by
  intro h
  have hlast := (((((((h.2 _ rfl).2 _ rfl).2 _ rfl).2 _ rfl).2 _ rfl).2 _ rfl).2 _ rfl)
  exact absurd (hlast.flag rfl rfl) (by decide)

end IpncRdk.AirkissThr
