import IpncRdk.OsaEvent.Event
import IpncRdk.Lib.Run

/-!
# Tasks that wait for one event object

Tasks suspended in `OSA_EventRetrieve` wait for one condition. A signal wakes some of them, at
least one, and a task may also wake without a signal. A woken task takes the lock again and tests
the flags.

* `NoLost` — nobody sleeps over a satisfied request with no wake-up pending;
* `HandsOn` — the last woken task to test takes the flags, or nobody is left who could;
* `noLost_iff` — exactly the runs without a lost wake-up;
* `noLost_of_wakesAll` — signals that reach everybody they concern lose none.
-/

namespace IpncRdk.OsaEvent

open Lib

/-- A suspended call. -/
structure Waiter where
  task : ℕ
  uRequestedEvents : BitVec 32
  eOperation : EventOperation
  deriving DecidableEq, Repr

/-- The flags, the tasks that sleep, and those that were woken and have not tested again. -/
structure State where
  eFlags : BitVec 32
  sleeping : List Waiter
  woken : List Waiter
  deriving DecidableEq, Repr

inductive Event
  /-- a task calls `OSA_EventRetrieve` with `OSA_SUSPEND` -/
  | retrieve (w : Waiter)
  /-- a task calls `OSA_EventSet`, and the signal wakes some of the given tasks -/
  | set (uEventFlags : BitVec 32) (eOperation : EventOperation) (wakes : List ℕ)
  /-- a task wakes without a signal -/
  | spurious (w : Waiter)
  /-- a woken task has the lock again and tests the flags -/
  | test (w : Waiter)
  deriving DecidableEq, Repr

/-- The combination that a task waits for is there. -/
def Waiter.Has (w : Waiter) (eFlags : BitVec 32) : Prop :=
  Satisfied eFlags w.uRequestedEvents w.eOperation

instance (w : Waiter) (eFlags : BitVec 32) : Decidable (w.Has eFlags) :=
  inferInstanceAs (Decidable (Satisfied eFlags w.uRequestedEvents w.eOperation))

def step (s : State) : Event → Option State
  | .retrieve w =>
    if (s.sleeping ++ s.woken).all fun v => v.task ≠ w.task then
      if w.Has s.eFlags then some { s with eFlags := consume s.eFlags w.eOperation }
      else some { s with sleeping := w :: s.sleeping }
    else none
  | .set uEventFlags eOperation wakes =>
    match osaEventSet s.eFlags uEventFlags eOperation with
    | (_, _, false) => some s
    | (_, eFlags, true) =>
      -- at least one of the sleeping tasks wakes
      if s.sleeping ≠ [] ∧ s.sleeping.all (fun w => w.task ∉ wakes) then none
      else
        some
          { eFlags := eFlags
            sleeping := s.sleeping.filter fun w => w.task ∉ wakes
            woken := s.woken ++ s.sleeping.filter fun w => w.task ∈ wakes }
  | .spurious w =>
    if w ∈ s.sleeping then
      some { s with sleeping := s.sleeping.erase w, woken := s.woken ++ [w] }
    else none
  | .test w =>
    if w ∈ s.woken then
      if w.Has s.eFlags then
        some { s with woken := s.woken.erase w, eFlags := consume s.eFlags w.eOperation }
      else some { s with woken := s.woken.erase w, sleeping := w :: s.sleeping }
    else none

/-- An event object nobody waits for. -/
def start (eFlags : BitVec 32) : State := ⟨eFlags, [], []⟩

/-- With no wake-up pending, no sleeping task has the combination that it waits for. -/
def NoLost (s : State) : Prop := s.woken = [] → ∀ w ∈ s.sleeping, ¬ w.Has s.eFlags

/-- The last woken task to test takes the flags, or leaves no task asleep that has the combination
that it waits for. -/
def HandsOn (s : State) : Event → Prop
  | .test w =>
    w ∈ s.woken → s.woken.erase w = [] →
      (w.Has s.eFlags ∧ consumes w.eOperation = true) ∨ ∀ v ∈ s.sleeping, ¬ v.Has s.eFlags
  | _ => True

/-- A signal wakes every task whose combination the set call makes true. -/
def WakesAll (s : State) : Event → Prop
  | .set uEventFlags eOperation wakes =>
    ∀ w ∈ s.sleeping, w.Has (osaEventSet s.eFlags uEventFlags eOperation).2.1 → w.task ∈ wakes
  | _ => True

/-! ## Flags that are taken -/

/-- A task that had to wait has nothing once the flags are taken. -/
lemma Waiter.not_has_consume {w v : Waiter} {eFlags : BitVec 32} (hv : ¬ v.Has 0)
    (hnot : ¬ v.Has eFlags ∨ consumes w.eOperation = true) :
    ¬ v.Has (consume eFlags w.eOperation) := by
  unfold consume
  by_cases hc : consumes w.eOperation = true
  · rw [if_pos hc]
    exact hv
  · rw [if_neg hc]
    exact hnot.resolve_right hc

/-- No task waits for a combination that is there without any flag. -/
structure Waits (s : State) : Prop where
  sleeping : ∀ w ∈ s.sleeping, ¬ w.Has 0
  woken : ∀ w ∈ s.woken, ¬ w.Has 0

/-! ## What a step can do -/

section Step
variable {s s' : State} {w : Waiter}

lemma step_retrieve (hstep : step s (.retrieve w) = some s') :
    (w.Has s.eFlags ∧ s' = { s with eFlags := consume s.eFlags w.eOperation }) ∨
      (¬ w.Has s.eFlags ∧ s' = { s with sleeping := w :: s.sleeping }) := by
  simp only [step] at hstep
  split at hstep
  swap
  · simp at hstep
  by_cases hw : w.Has s.eFlags
  · rw [if_pos hw, Option.some.injEq] at hstep
    exact .inl ⟨hw, hstep.symm⟩
  · rw [if_neg hw, Option.some.injEq] at hstep
    exact .inr ⟨hw, hstep.symm⟩

/-- A set call that does nothing, or one that wakes somebody if anybody sleeps. -/
lemma step_set {uEventFlags : BitVec 32} {eOperation : EventOperation} {wakes : List ℕ}
    (hstep : step s (.set uEventFlags eOperation wakes) = some s') :
    s' = s ∨
      (s' =
        { eFlags := (osaEventSet s.eFlags uEventFlags eOperation).2.1
          sleeping := s.sleeping.filter fun w => w.task ∉ wakes
          woken := s.woken ++ s.sleeping.filter fun w => w.task ∈ wakes } ∧
        (s.sleeping ≠ [] → ∃ w ∈ s.sleeping, w.task ∈ wakes)) := by
  simp only [step] at hstep
  split at hstep
  · exact .inl (Option.some.inj hstep).symm
  rename_i heq
  split at hstep
  · simp at hstep
  rename_i hwakes
  refine .inr ⟨?_, fun hne => ?_⟩
  · rw [heq]
    exact (Option.some.inj hstep).symm
  · by_contra hnone
    refine hwakes ⟨hne, List.all_eq_true.mpr fun w hw => ?_⟩
    exact decide_eq_true fun htask => hnone ⟨w, hw, htask⟩

lemma step_spurious (hstep : step s (.spurious w) = some s') :
    w ∈ s.sleeping ∧ s' = { s with sleeping := s.sleeping.erase w, woken := s.woken ++ [w] } := by
  simp only [step] at hstep
  split at hstep
  swap
  · simp at hstep
  exact ⟨‹_›, (Option.some.inj hstep).symm⟩

lemma step_test (hw : w ∈ s.woken) :
    step s (.test w) = some
      (if w.Has s.eFlags then
        { s with woken := s.woken.erase w, eFlags := consume s.eFlags w.eOperation }
      else { s with woken := s.woken.erase w, sleeping := w :: s.sleeping }) := by
  simp only [step, if_pos hw]
  split <;> rfl

lemma mem_woken_of_test (hstep : step s (.test w) = some s') : w ∈ s.woken := by
  by_contra hw
  simp only [step, if_neg hw] at hstep
  simp at hstep

lemma waits_step (s : State) (e : Event) (s' : State) (h : Waits s)
    (hstep : step s e = some s') : Waits s' := by
  cases e with
  | retrieve w =>
    rcases step_retrieve hstep with ⟨-, rfl⟩ | ⟨hnot, rfl⟩
    · exact ⟨h.sleeping, h.woken⟩
    · refine ⟨fun v hv => ?_, h.woken⟩
      rcases List.mem_cons.mp hv with rfl | hv
      · exact fun hzero => hnot (satisfied_of_zero hzero)
      · exact h.sleeping v hv
  | set uEventFlags eOperation wakes =>
    rcases step_set hstep with rfl | ⟨rfl, -⟩
    · exact h
    · refine ⟨fun v hv => h.sleeping v (List.mem_filter.mp hv).1, fun v hv => ?_⟩
      rcases List.mem_append.mp hv with hv | hv
      · exact h.woken v hv
      · exact h.sleeping v (List.mem_filter.mp hv).1
  | spurious w =>
    obtain ⟨hw, rfl⟩ := step_spurious hstep
    refine ⟨fun v hv => h.sleeping v (List.mem_of_mem_erase hv), fun v hv => ?_⟩
    rcases List.mem_append.mp hv with hv | hv
    · exact h.woken v hv
    · rw [List.mem_singleton.mp hv]
      exact h.sleeping w hw
  | test w =>
    have hw := mem_woken_of_test hstep
    rw [step_test hw, Option.some.injEq] at hstep
    have hwoken : ∀ v ∈ s.woken.erase w, ¬ v.Has 0 := fun v hv =>
      h.woken v (List.mem_of_mem_erase hv)
    rw [← hstep]
    split
    · exact ⟨h.sleeping, hwoken⟩
    · refine ⟨fun v hv => ?_, hwoken⟩
      rcases List.mem_cons.mp hv with rfl | hv
      · exact h.woken v hw
      · exact h.sleeping v hv

/-! ## Steps that lose nothing -/

/-- After a test nothing is lost exactly if the task hands on. -/
lemma noLost_test_iff (h : Waits s) (hw : w ∈ s.woken) :
    NoLost (if w.Has s.eFlags then
        { s with woken := s.woken.erase w, eFlags := consume s.eFlags w.eOperation }
      else { s with woken := s.woken.erase w, sleeping := w :: s.sleeping }) ↔
      HandsOn s (.test w) := by
  by_cases hhas : w.Has s.eFlags
  · rw [if_pos hhas]
    constructor
    · intro hno _ hlast
      by_cases hc : consumes w.eOperation = true
      · exact .inl ⟨hhas, hc⟩
      · refine .inr fun v hv => ?_
        have := hno hlast v hv
        simp only [consume, if_neg hc] at this
        exact this
    · intro hands hlast v hv
      refine Waiter.not_has_consume (h.sleeping v hv) ?_
      rcases hands hw hlast with ⟨-, hc⟩ | hnone
      · exact .inr hc
      · exact .inl (hnone v hv)
  · rw [if_neg hhas]
    constructor
    · intro hno _ hlast
      exact .inr fun v hv => hno hlast v (List.mem_cons_of_mem w hv)
    · intro hands hlast v hv
      rcases List.mem_cons.mp hv with rfl | hv
      · exact hhas
      · rcases hands hw hlast with ⟨hthere, -⟩ | hnone
        · exact absurd hthere hhas
        · exact hnone v hv

/-- No other step loses a wake-up. -/
lemma noLost_step (s : State) (e : Event) (s' : State) (h : NoLost s ∧ Waits s)
    (hands : HandsOn s e) (hstep : step s e = some s') : NoLost s' ∧ Waits s' := by
  refine ⟨?_, waits_step s e s' h.2 hstep⟩
  obtain ⟨hno, hwaits⟩ := h
  cases e with
  | retrieve w =>
    rcases step_retrieve hstep with ⟨-, rfl⟩ | ⟨hnot, rfl⟩
    · intro hempty v hv
      exact Waiter.not_has_consume (hwaits.sleeping v hv) (.inl (hno hempty v hv))
    · intro hempty v hv
      rcases List.mem_cons.mp hv with rfl | hv
      · exact hnot
      · exact hno hempty v hv
  | set uEventFlags eOperation wakes =>
    rcases step_set hstep with rfl | ⟨rfl, hwakes⟩
    · exact hno
    · -- if anybody slept somebody is awake now
      intro hempty v hv
      obtain ⟨u, hu, htask⟩ := hwakes (List.ne_nil_of_mem (List.mem_filter.mp hv).1)
      have hnil := (List.append_eq_nil_iff.mp hempty).2
      have hmem : u ∈ s.sleeping.filter fun w => w.task ∈ wakes :=
        List.mem_filter.mpr ⟨hu, decide_eq_true htask⟩
      rw [hnil] at hmem
      exact absurd hmem List.not_mem_nil
  | spurious w =>
    obtain ⟨-, rfl⟩ := step_spurious hstep
    intro hempty
    simp at hempty
  | test w =>
    have hw := mem_woken_of_test hstep
    rw [step_test hw, Option.some.injEq] at hstep
    exact hstep ▸ (noLost_test_iff hwaits hw).mpr hands

lemma loses (s : State) (e : Event) (h : NoLost s ∧ Waits s) (hands : ¬ HandsOn s e) :
    ∃ s', step s e = some s' ∧ ¬ NoLost s' := by
  cases e with
  | test w =>
    have hw : w ∈ s.woken := by
      by_contra hnot
      exact hands fun hmem => absurd hmem hnot
    exact ⟨_, step_test hw, fun hno => hands ((noLost_test_iff h.2 hw).mp hno)⟩
  | retrieve => exact absurd trivial hands
  | set => exact absurd trivial hands
  | spurious => exact absurd trivial hands

lemma inv_start (eFlags : BitVec 32) : NoLost (start eFlags) ∧ Waits (start eFlags) := by
  refine ⟨fun _ w hw => ?_, ⟨fun w hw => ?_, fun w hw => ?_⟩⟩ <;>
    exact absurd hw List.not_mem_nil

/-- Signals that reach everybody they concern leave nobody asleep over a satisfied request, not
even while wake-ups are pending. -/
lemma quiet_step (s : State) (e : Event) (s' : State)
    (h : (∀ v ∈ s.sleeping, ¬ v.Has s.eFlags) ∧ Waits s) (hall : WakesAll s e)
    (hstep : step s e = some s') : (∀ v ∈ s'.sleeping, ¬ v.Has s'.eFlags) ∧ Waits s' := by
  refine ⟨?_, waits_step s e s' h.2 hstep⟩
  obtain ⟨hquiet, hwaits⟩ := h
  cases e with
  | retrieve w =>
    rcases step_retrieve hstep with ⟨-, rfl⟩ | ⟨hnot, rfl⟩
    · exact fun v hv => Waiter.not_has_consume (hwaits.sleeping v hv) (.inl (hquiet v hv))
    · exact List.forall_mem_cons.mpr ⟨hnot, hquiet⟩
  | set uEventFlags eOperation wakes =>
    rcases step_set hstep with rfl | ⟨rfl, -⟩
    · exact hquiet
    · intro v hv hhas
      obtain ⟨hsleeping, hnot⟩ := List.mem_filter.mp hv
      exact of_decide_eq_true hnot (hall v hsleeping hhas)
  | spurious w =>
    obtain ⟨-, rfl⟩ := step_spurious hstep
    exact fun v hv => hquiet v (List.mem_of_mem_erase hv)
  | test w =>
    have hw := mem_woken_of_test hstep
    rw [step_test hw, Option.some.injEq] at hstep
    rw [← hstep]
    split
    · exact fun v hv => Waiter.not_has_consume (hwaits.sleeping v hv) (.inl (hquiet v hv))
    · exact List.forall_mem_cons.mpr ⟨‹_›, hquiet⟩

end Step

/-! ## Runs -/

/-- Where every signal wakes all tasks that it concerns, no wake-up is lost. -/
theorem noLost_of_wakesAll (eFlags : BitVec 32) {events : List Event}
    (h : EveryStep step WakesAll (start eFlags) events) :
    Always step NoLost (start eFlags) events := by
  refine always_of_everyStep (fun s h _ => h.1) quiet_step events ⟨?_, (inv_start eFlags).2⟩ h
  exact fun w hw => absurd hw List.not_mem_nil

/-- **Exactly when no wake-up is lost.** In every run of any number of tasks, with any masks and
operations: no state has a task asleep over a satisfied request with no wake-up pending, if and
only if in every step that is the test of the last woken task this task takes the flags, or no
sleeping task has the combination that it waits for. -/
theorem noLost_iff (eFlags : BitVec 32) (events : List Event) :
    Always step NoLost (start eFlags) events ↔ EveryStep step HandsOn (start eFlags) events :=
  always_iff_everyStep (fun _ h => h.1) noLost_step loses events (inv_start eFlags)

/-- Two tasks wait for different flags, and the signal for the second wakes the first. -/
theorem wrong_task_woken :
    ¬ ∀ events, Always step NoLost (start 0) events := by
  intro h
  have hrun : run step (start 0)
      [.retrieve ⟨1, 1, .or⟩, .retrieve ⟨2, 2, .or⟩, .set 2 .or [1], .test ⟨1, 1, .or⟩]
      = some ⟨2, [⟨1, 1, .or⟩, ⟨2, 2, .or⟩], []⟩ := by decide
  exact of_always (h _) hrun rfl ⟨2, 2, .or⟩ (by decide) (by decide)

end IpncRdk.OsaEvent
