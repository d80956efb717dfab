import IpncRdk.TimerThr.Checker

/-!
# The lock of the task list

The checker owns the mutex from the lock at the top of an iteration to one of the two
unlocks. The unlock in the branch for a `NULL` cursor is meant for an empty list, but it comes
before the reloaded cursor is tested: with a task in the list the iteration goes on without
the mutex.
-/

namespace IpncRdk.TimerThr

open Lib

variable {φ : Type}

/-! ## The discipline -/

/-- The checker keeps the lock discipline of its loop. The read of the list before the loop
belongs to no iteration. -/
structure Disciplined (s : State φ) : Prop where
  /-- it holds the mutex where it reads or edits the list or runs a callback -/
  access : s.pc.accesses = true → s.mutex = some .checker
  /-- no critical section of another thread overlaps such an access -/
  exclusive : s.pc.accesses = true → ∀ thread, s.others thread = .outside
  /-- it unlocks only a mutex it holds -/
  owned : s.pc = .release ∨ s.pc = .unlock → s.mutex = some .checker
  /-- it does not hold the mutex between two iterations -/
  between : s.pc = .top → s.mutex ≠ some .checker

/-- A cursor that was `NULL` and has been reloaded finds the list empty. -/
def ReloadFindsNone (s : State φ) (e : Event φ) : Prop :=
  s.pc = .release → (∃ now junk, e = .checker now junk) → s.cursor = none

/-! ## Who owns the mutex -/

/-- The checker is between the lock and the unlock of an iteration. -/
def Pc.inside : Pc → Bool
  | .start | .top => false
  | .check | .reload | .release | .examine | .invoke | .calling | .settle | .advance
  | .unlock => true

/-- The owner of the mutex is the thread inside its critical section. -/
structure LockInv (s : State φ) : Prop where
  checker : s.pc.inside = true ↔ s.mutex = some .checker
  others : ∀ thread, s.others thread ≠ .outside ↔ s.mutex = some (.other thread)

lemma lockInv_creat : LockInv (timerThrCreat : State φ) where
  checker := by simp [timerThrCreat, Pc.inside]
  others := by simp [timerThrCreat]

lemma Pc.inside_of_accesses {pc : Pc} (h : pc.accesses = true) : pc.inside = true := by
  cases pc <;> first | rfl | cases h

/-- A thread that does not own the mutex is outside. -/
lemma LockInv.outside {s : State φ} (hI : LockInv s) {thread : ℕ}
    (h : s.mutex ≠ some (.other thread)) : s.others thread = .outside := by
  by_contra hin
  exact h ((hI.others thread).mp hin)

lemma disciplined_of_lockInv {s : State φ} (hI : LockInv s) : Disciplined s where
  access h := hI.checker.mp (Pc.inside_of_accesses h)
  exclusive h thread := by
    apply hI.outside
    simp [hI.checker.mp (Pc.inside_of_accesses h)]
  owned h := by
    refine hI.checker.mp ?_
    rcases h with h | h <;> rw [h] <;> rfl
  between h hmutex := by
    have hinside := hI.checker.mpr hmutex
    rw [h] at hinside
    cases hinside

/-- A step of the checker that leaves the mutex alone keeps it inside or outside. -/
lemma LockInv.move {s : State φ} (hI : LockInv s) {s' : State φ} (hmutex : s'.mutex = s.mutex)
    (hothers : s'.others = s.others) (hpc : s'.pc.inside = s.pc.inside) : LockInv s' where
  checker := by rw [hpc, hmutex]; exact hI.checker
  others := by rw [hmutex, hothers]; exact hI.others

/-- An unlock by the checker, which leaves its critical section. -/
lemma LockInv.unlock {s : State φ} (hI : LockInv s) (hpc : s.pc.inside = true) :
    LockInv { s with mutex := none, pc := .top } where
  checker := by simp [Pc.inside]
  others thread := by
    have hout : s.others thread = .outside := hI.outside (by simp [hI.checker.mp hpc])
    simp [hout]

lemma LockInv.lock {s : State φ} (hI : LockInv s) (hfree : s.mutex = none) :
    LockInv { s with mutex := some .checker, pc := .check } where
  checker := by simp [Pc.inside]
  others thread := by
    have hout : s.others thread = .outside := hI.outside (by simp [hfree])
    simp [hout]

lemma lockInv_checkerStep {s s' : State φ} {now : Timespec} {junk : Junk φ} (hI : LockInv s)
    (hreload : s.pc = .release → s.cursor = none)
    (hstep : checkerStep s now junk = some s') : LockInv s' := by
  unfold checkerStep at hstep
  cases hpc : s.pc <;> rw [hpc] at hstep <;> simp only at hstep
  case top =>
    rw [Option.ite_none_right_eq_some, Option.some.injEq] at hstep
    obtain ⟨hfree, rfl⟩ := hstep
    exact hI.lock hfree
  case release =>
    rw [if_pos (hreload hpc), Option.some.injEq] at hstep
    subst hstep
    exact hI.unlock (by rw [hpc]; rfl)
  case unlock =>
    rw [Option.some.injEq] at hstep
    subst hstep
    exact hI.unlock (by rw [hpc]; rfl)
  case invoke =>
    -- with or without a callback to call
    split at hstep <;> (rw [Option.some.injEq] at hstep; subst hstep)
    · exact hI.move rfl rfl (by rw [hpc]; rfl)
    · exact hI.move rfl rfl (by rw [hpc]; rfl)
  case check | examine =>
    rw [Option.some.injEq] at hstep
    subst hstep
    refine hI.move rfl rfl ?_
    rw [hpc]
    simp only
    split <;> rfl
  case start | reload | calling | settle | advance =>
    rw [Option.some.injEq] at hstep
    subst hstep
    exact hI.move rfl rfl (by rw [hpc]; rfl)

/-- A critical section of another thread is entered with the mutex free. -/
lemma lockInv_enter {s s' : State φ} {thread : ℕ} {call : Call φ} (hI : LockInv s)
    (hstep : step s (.enter thread call) = some s') : LockInv s' := by
  simp only [step] at hstep
  split at hstep
  next hfree hout =>
    rw [Option.some.injEq] at hstep
    subst hstep
    refine ⟨?_, fun t => ?_⟩
    · have hnot : ¬ s.pc.inside = true := by rw [hI.checker, hfree]; simp
      simp [hnot]
    · by_cases ht : t = thread
      · subst ht
        simp
      · have hout' : s.others t = .outside := hI.outside (by simp [hfree])
        simp [ht, hout', Ne.symm ht]
  next => cases hstep

/-- The edit of another thread leaves it inside its critical section. -/
lemma LockInv.edit {s : State φ} (hI : LockInv s) {thread : ℕ} (hin : s.others thread ≠ .outside)
    {s' : State φ} {unregistered : Option ℤ} (hmutex : s'.mutex = s.mutex) (hpc : s'.pc = s.pc)
    (hothers : s'.others = Function.update s.others thread (.edited unregistered)) :
    LockInv s' where
  checker := by rw [hpc, hmutex]; exact hI.checker
  others t := by
    rw [hmutex, hothers]
    by_cases ht : t = thread
    · subst ht
      simp [(hI.others t).mp hin]
    · rw [Function.update_of_ne ht]
      exact hI.others t

lemma lockInv_editStep {s s' : State φ} {thread : ℕ} (hI : LockInv s)
    (hstep : editStep s thread = some s') : LockInv s' := by
  unfold editStep at hstep
  split at hstep
  next r hin =>
    rw [Option.ite_none_right_eq_some, Option.some.injEq] at hstep
    obtain ⟨-, rfl⟩ := hstep
    exact hI.edit (by rw [hin]; exact fun h => (nomatch h)) rfl rfl rfl
  next procId hin =>
    rw [Option.some.injEq] at hstep
    subst hstep
    exact hI.edit (by rw [hin]; exact fun h => (nomatch h)) rfl rfl rfl
  next => cases hstep

lemma lockInv_leaveStep {s s' : State φ} {thread : ℕ} (hI : LockInv s)
    (hstep : leaveStep s thread = some s') : LockInv s' := by
  unfold leaveStep at hstep
  split at hstep
  next unregistered hin =>
    rw [Option.some.injEq] at hstep
    subst hstep
    have howner := (hI.others thread).mp (by rw [hin]; exact fun h => (nomatch h))
    refine ⟨?_, fun t => ?_⟩
    · have hnot : ¬ s.pc.inside = true := by rw [hI.checker, howner]; simp
      simp [hnot]
    · by_cases ht : t = thread
      · subst ht
        simp
      · -- no other thread owned the mutex that this one gives back
        have hout : s.others t = .outside := hI.outside (by simpa [howner] using Ne.symm ht)
        simp [ht, hout]
  next => cases hstep

theorem lockInv_step (s : State φ) (e : Event φ) (s' : State φ) (hI : LockInv s)
    (hC : ReloadFindsNone s e) (hstep : step s e = some s') : LockInv s' := by
  cases e with
  | checker now junk =>
    exact lockInv_checkerStep hI (fun hpc => hC hpc ⟨now, junk, rfl⟩) hstep
  | enter thread call => exact lockInv_enter hI hstep
  | edit thread => exact lockInv_editStep hI hstep
  | leave thread => exact lockInv_leaveStep hI hstep

/-- After a reload that finds a task the checker examines it without the mutex. -/
lemma undisciplined_reload {s : State φ} {e : Event φ} (hC : ¬ ReloadFindsNone s e) :
    ∃ s', step s e = some s' ∧ ¬ Disciplined s' := by
  unfold ReloadFindsNone at hC
  push Not at hC
  obtain ⟨hpc, ⟨now, junk, rfl⟩, hcursor⟩ := hC
  refine ⟨{ s with mutex := none, pc := .examine }, ?_, fun hD => ?_⟩
  · simp only [step, checkerStep, hpc, if_neg hcursor]
  · exact absurd (hD.access rfl) (fun h => (nomatch h))

/-- **Exactly when the checker keeps the lock discipline.** In every run of the checker and
any number of other threads, over any number of iterations, the discipline holds in all
states if and only if every reload of a `NULL` cursor finds the list empty. -/
theorem lock_discipline_iff (events : List (Event φ)) :
    Always step Disciplined timerThrCreat events ↔
      EveryStep step ReloadFindsNone timerThrCreat events :=
  always_iff_everyStep (I := LockInv) (fun _ hI => disciplined_of_lockInv hI) lockInv_step
    (fun _ _ _ hC => undisciplined_reload hC) events lockInv_creat

/-- A task registered while the checker waits on an empty list: the next scan begins with a
reload and examines the task without the mutex. -/
theorem lock_undisciplined :
    ¬ Always (step (φ := Unit)) Disciplined timerThrCreat
      (let tick := Event.checker ⟨7, 0⟩ ⟨⟨0, [], 0, 0, ⟨0, 0⟩, 0, none⟩, none⟩
       [tick, .enter 0 (.register ⟨1, 1000, [], some (), 0, 4096, ⟨7, 0⟩⟩), .edit 0, .leave 0,
        tick, tick, tick, tick]) := by
  intro h
  have hlast := ((((((((h.2 _ rfl).2 _ rfl).2 _ rfl).2 _ rfl).2 _ rfl).2 _ rfl).2 _ rfl).2 _ rfl)
  exact absurd (hlast.access rfl) (fun h => (nomatch h))

end IpncRdk.TimerThr
