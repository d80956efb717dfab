import IpncRdk.TimerThr.Cursor

/-!
# When a task runs

A task waits from the reading of its registration on, and a `SYS_TIMER_TASK_CONTINUE` one again
from the reading at which it ran. `checkTime` adds the nanoseconds of the period to the seconds
of that reading instead of its nanoseconds, so the time the code stores is another one, and the
remaining milliseconds are compared with the period as unsigned values.

* `Watch`, `examine` — a task and the reading it waits from, examined at a reading;
* `OnTime` — the task is not run before its period is over;
* `Waits` — the readings at which the code waits, in nanoseconds;
* `never_early_iff` — a task never runs early exactly when all early readings are such ones.
-/

namespace IpncRdk.TimerThr

open Lib

variable {φ : Type}

/-! ## The clock -/

/-- What `clock_gettime` returns. -/
structure IsReading (t : Timespec) : Prop where
  sec : 0 ≤ t.tvSec ∧ t.tvSec < 2 ^ 31
  nsec : 0 ≤ t.tvNsec ∧ t.tvNsec < 10 ^ 9

/-- A reading in nanoseconds. -/
def instant (t : Timespec) : ℤ := t.tvSec * 10 ^ 9 + t.tvNsec

/-- Readings of `CLOCK_MONOTONIC`, one after the other. -/
structure Monotonic (readings : List Timespec) : Prop where
  valid : ∀ t ∈ readings, IsReading t
  sorted : readings.Pairwise fun a b => instant a ≤ instant b

lemma Monotonic.sublist {readings fewer : List Timespec} (h : Monotonic readings)
    (hsub : fewer.Sublist readings) : Monotonic fewer :=
  ⟨fun t ht => h.valid t (hsub.subset ht), h.sorted.sublist hsub⟩

/-! ## One task -/

/-- A task, the reading it waits from, and how often it has run. -/
structure Watch (φ : Type) where
  task : TimerTask φ
  base : Timespec
  runs : ℕ

/-- What the checker does with a task that it examines at a reading; a `SYS_TIMER_TASK_SINGLE`
one is removed when it has run. -/
def examine (w : Watch φ) (now : Timespec) : Option (Watch φ) :=
  if due w.task now then
    if w.task.mode = taskSingle then none
    else if w.task.mode = taskContinue then
      some
        { task := { w.task with stCheckTime := checkTime now w.task.u32Time }
          base := now
          runs := w.runs + 1 }
    else some { w with base := now, runs := w.runs + 1 }
  else some w

/-- The task `RegisterProc` fills in. -/
def Registration.watch (r : Registration φ) (procId : ℤ) : Watch φ where
  task := (r.node procId).task
  base := r.now
  runs := 0

/-- Whether the task has a callback that is yet to run after a period. -/
def Watch.Periodic (w : Watch φ) : Prop :=
  w.task.pfnProc.isSome = true ∧ (w.runs = 0 ∨ w.task.mode = taskContinue)

/-- The period is over. -/
def Elapsed (time : ℕ) (base now : Timespec) : Prop :=
  instant base + time * 10 ^ 6 ≤ instant now

/-- The task is not run at this reading, or its period is over. -/
def OnTime (w : Watch φ) (now : Timespec) : Prop :=
  w.Periodic → due w.task now = true → Elapsed w.task.u32Time w.base now

/-! ## The readings at which the code waits -/

/-- The stored nanoseconds less those of the reading, as a 32-bit difference of what lies between
`-10 ^ 9` and `2 ^ 32`. -/
def nsecDiff (time : ℕ) (base now : Timespec) : ℤ :=
  let diff := base.tvSec + (time % 1000 * 1000000 : ℕ) - now.tvNsec
  if diff < 2 ^ 31 then diff else diff - 2 ^ 32

/-- The instant that the stored due time stands for, seen from the second of a reading. -/
def dueInstant (time : ℕ) (base now : Timespec) : ℤ :=
  (base.tvSec + (time / 1000 : ℕ)) * 10 ^ 9 + nsecDiff time base now + now.tvNsec

/-- The due time lies a period ahead at most, and is not over. A rest of less than a millisecond
is cut off: at its end the due time is over a millisecond late, within the second of the due
time, and at its start the code waits a millisecond late where the period is a number of seconds. -/
structure Pending (time : ℕ) (base now : Timespec) : Prop where
  started : dueInstant time base now - time * 10 ^ 6 < instant now
  startedSecond : time % 1000 = 0 → now.tvSec = base.tvSec →
    dueInstant time base now - time * 10 ^ 6 + 10 ^ 6 ≤ instant now
  ahead : instant now ≤ dueInstant time base now ∨
    (now.tvSec ≤ base.tvSec + (time / 1000 : ℕ) ∧
      instant now < dueInstant time base now + 10 ^ 6)

/-- The milliseconds to the due time lie outside `0 ≤ ms < 2 ^ 32`, and come out below the
period as an unsigned value; this takes a period of 49 days. -/
def Lapped (time : ℕ) (base now : Timespec) : Prop :=
  instant now + 2 ^ 32 * 10 ^ 6 ≤ dueInstant time base now ∨
    dueInstant time base now + (2 ^ 32 - time + 1) * 10 ^ 6 ≤ instant now ∨
    (base.tvSec + (time / 1000 : ℕ) < now.tvSec ∧ 2 ^ 32 < (time : ℤ) + 1000 ∧
      dueInstant time base now + (2 ^ 32 - time) * 10 ^ 6 < instant now)

/-- The readings, not later than a period, at which the code waits. -/
def Waits (time : ℕ) (base now : Timespec) : Prop :=
  Pending time base now ∨ Lapped time base now

/-- At this reading the period is over, or the code waits. -/
def Punctual (w : Watch φ) (now : Timespec) : Prop :=
  w.Periodic → Elapsed w.task.u32Time w.base now ∨ Waits w.task.u32Time w.base now

/-! ## The comparison -/

section Comparison
variable {time : ℕ} {base now : Timespec}

lemma wrap32_eq_nsecDiff (hbase : IsReading base) (hnow : IsReading now) :
    wrap32 (base.tvSec + (time % 1000 * 1000000 : ℕ) - now.tvNsec) = nsecDiff time base now := by
  obtain ⟨hs₁, hs₂⟩ := hbase.sec
  obtain ⟨hn₁, hn₂⟩ := hnow.nsec
  have hm : time % 1000 < 1000 := Nat.mod_lt _ (by decide)
  unfold nsecDiff wrap32
  rw [Int.bmod_def]
  norm_num at *
  split_ifs <;> omega

lemma nsecDiff_bounds (time : ℕ) (hbase : IsReading base) (hnow : IsReading now) :
    -2 ^ 31 ≤ nsecDiff time base now ∧ nsecDiff time base now < 2 ^ 31 := by
  rw [← wrap32_eq_nsecDiff hbase hnow]
  exact ⟨wrap32_lo _, wrap32_hi _⟩

/-- In the first 36 years of the clock the stored due time is off by the seconds of the reading,
taken as nanoseconds, less its nanoseconds. -/
lemma dueInstant_eq (hnow : IsReading now) (hearly : base.tvSec < 2 ^ 31 - 10 ^ 9) :
    dueInstant time base now = instant base + time * 10 ^ 6 + (base.tvSec - base.tvNsec) := by
  obtain ⟨hn₁, hn₂⟩ := hnow.nsec
  unfold dueInstant nsecDiff instant
  norm_num at *
  split_ifs <;> omega

/-- The remaining milliseconds, up to the wraps of the code. -/
lemma timeDiff_mod (hbase : IsReading base) (hnow : IsReading now) (task : TimerTask φ)
    (h : task.stCheckTime = checkTime base time) :
    timeDiff task now % 2 ^ 32
      = ((base.tvSec + (time / 1000 : ℕ) - now.tvSec) * 1000
        + (nsecDiff time base now).tdiv 1000000) % 2 ^ 32 := by
  unfold timeDiff
  rw [h, ← wrap32_eq_nsecDiff hbase hnow]
  unfold checkTime wrap32
  -- the seconds, then the nanoseconds
  rw [Int.bmod_add_bmod, Int.bmod_sub_bmod, ← Int.bmod_add_bmod, Int.bmod_mul_bmod,
    Int.bmod_add_bmod, Int.bmod_sub_bmod]
  exact Int.bmod_emod

/-- Division of nanoseconds cuts towards zero. -/
lemma tdiv_bounds (x : ℤ) :
    (0 ≤ x ∧ x.tdiv 1000000 * 1000000 ≤ x ∧ x < x.tdiv 1000000 * 1000000 + 1000000) ∨
      (x < 0 ∧ x ≤ x.tdiv 1000000 * 1000000 ∧ x.tdiv 1000000 * 1000000 < x + 1000000) := by
  rcases Int.lt_or_le x 0 with hneg | hpos
  · right
    have hneg' : x.tdiv 1000000 = -((-x) / 1000000) := by
      rw [← Int.tdiv_eq_ediv_of_nonneg (by omega), Int.neg_tdiv, neg_neg]
    omega
  · left
    rw [Int.tdiv_eq_ediv_of_nonneg hpos]
    omega

/-- A number of less than two laps, as an unsigned value. -/
lemma emod_lap {x : ℤ} (hlo : -2 ^ 32 ≤ x) (hhi : x < 2 ^ 33) :
    (x < 0 ∧ x % 2 ^ 32 = x + 2 ^ 32) ∨ (0 ≤ x ∧ x < 2 ^ 32 ∧ x % 2 ^ 32 = x) ∨
      (2 ^ 32 ≤ x ∧ x % 2 ^ 32 = x - 2 ^ 32) := by
  norm_num at *
  omega

lemma pending_iff : Pending time base now ↔
    dueInstant time base now - time * 10 ^ 6 < instant now ∧
    (time % 1000 = 0 → now.tvSec = base.tvSec →
      dueInstant time base now - time * 10 ^ 6 + 10 ^ 6 ≤ instant now) ∧
    (instant now ≤ dueInstant time base now ∨
      (now.tvSec ≤ base.tvSec + (time / 1000 : ℕ) ∧
        instant now < dueInstant time base now + 10 ^ 6)) :=
  ⟨fun h => ⟨h.started, h.startedSecond, h.ahead⟩, fun ⟨h₁, h₂, h₃⟩ => ⟨h₁, h₂, h₃⟩⟩

/-- **One examination** of a task before its period is over. -/
lemma due_iff_of_early (hbase : IsReading base) (hnow : IsReading now) (htime : time < 2 ^ 32)
    (hsorted : instant base ≤ instant now) (hearly : ¬ Elapsed time base now)
    (task : TimerTask φ) (hcheck : task.stCheckTime = checkTime base time)
    (hperiod : task.u32Time = time) : due task now = true ↔ ¬ Waits time base now := by
  unfold due
  rw [timeDiff_mod hbase hnow task hcheck, hperiod, decide_eq_true_eq]
  have hdiff := nsecDiff_bounds time hbase hnow
  have hdiv := tdiv_bounds (nsecDiff time base now)
  obtain ⟨hs₁, hs₂⟩ := hbase.sec
  obtain ⟨hs₃, hs₄⟩ := hnow.sec
  obtain ⟨hn₁, hn₂⟩ := hbase.nsec
  obtain ⟨hn₃, hn₄⟩ := hnow.nsec
  unfold Waits Lapped
  rw [pending_iff]
  unfold dueInstant
  unfold Elapsed at hearly
  unfold instant at *
  generalize nsecDiff time base now = diff at *
  generalize diff.tdiv 1000000 = ms at *
  obtain ⟨q, hq⟩ : ∃ q : ℕ, time / 1000 = q := ⟨_, rfl⟩
  obtain ⟨m, hm⟩ : ∃ m : ℕ, time % 1000 = m := ⟨_, rfl⟩
  have hsplit : time = q * 1000 + m ∧ m < 1000 := by omega
  rw [hq, hm]
  obtain ⟨htime', hm'⟩ := hsplit
  clear hq hm
  subst htime'
  norm_num at *
  have hlap := emod_lap (x := (base.tvSec + q - now.tvSec) * 1000 + ms) (by omega) (by omega)
  norm_num at hlap
  rcases hlap with ⟨hx, hmod⟩ | ⟨hx, hx', hmod⟩ | ⟨hx, hmod⟩
  · rw [hmod]
    omega
  · rw [hmod]
    omega
  · rw [hmod]
    omega

end Comparison

/-! ## Runs -/

/-- While the task has a callback to run, its due time is that of its base. -/
structure Tracks (w : Watch φ) : Prop where
  time : w.task.u32Time < 2 ^ 32
  check : w.Periodic → w.task.stCheckTime = checkTime w.base w.task.u32Time

section Runs
variable {w w' : Watch φ} {now : Timespec}

/-- One examination: the task is on time exactly when the reading is a punctual one. -/
lemma onTime_iff (hw : Tracks w) (hclock : Monotonic [w.base, now]) :
    OnTime w now ↔ Punctual w now := by
  have hbase := hclock.valid w.base (by simp)
  have hnow := hclock.valid now (by simp)
  have hsorted : instant w.base ≤ instant now := by simpa using hclock.sorted
  unfold OnTime Punctual
  refine forall_congr' fun hperiodic => ?_
  by_cases hearly : Elapsed w.task.u32Time w.base now
  · exact iff_of_true (fun _ => hearly) (Or.inl hearly)
  · rw [due_iff_of_early hbase hnow hw.time hsorted hearly w.task (hw.check hperiodic) rfl]
    simp only [hearly, false_or, imp_false, not_not]

/-- An examination keeps the due time in step with the base, which is the old one or the
reading. -/
lemma tracks_step (hw : Tracks w) (h : examine w now = some w') :
    Tracks w' ∧ (w'.base = w.base ∨ w'.base = now) := by
  unfold examine at h
  split_ifs at h with hdue hsingle hcontinue
  · obtain rfl := Option.some.inj h
    exact ⟨⟨hw.time, fun _ => rfl⟩, Or.inr rfl⟩
  · obtain rfl := Option.some.inj h
    -- a task of any other mode keeps its due time, and is not followed any further
    have hnot : ¬ Watch.Periodic { w with base := now, runs := w.runs + 1 } := fun hperiodic =>
      hperiodic.2.elim (Nat.succ_ne_zero _) hcontinue
    exact ⟨⟨hw.time, fun hperiodic => absurd hperiodic hnot⟩, Or.inr rfl⟩
  · obtain rfl := Option.some.inj h
    exact ⟨hw, Or.inl rfl⟩

/-- **A run.** -/
lemma run_onTime_iff (hw : Tracks w) {readings : List Timespec}
    (hclock : Monotonic (w.base :: readings)) :
    EveryStep examine OnTime w readings ↔ EveryStep examine Punctual w readings := by
  induction readings generalizing w with
  | nil => exact Iff.rfl
  | cons now readings ih =>
    have hfirst : Monotonic [w.base, now] := hclock.sublist (by simp)
    refine and_congr (onTime_iff hw hfirst) (forall_congr' fun w' => imp_congr_right fun h => ?_)
    obtain ⟨hw', hbase⟩ := tracks_step hw h
    refine ih hw' ?_
    rcases hbase with hbase | hbase
    · rw [hbase]
      exact hclock.sublist (by simp)
    · rw [hbase]
      exact hclock.sublist (by simp)

end Runs

/-- **When a task never runs early.** For every period, every registration and all readings of
the clock from the registration on: no examination runs the callback before its period is over,
exactly when each of them comes after the period or at a reading at which the code waits. -/
theorem never_early_iff (r : Registration φ) (procId : ℤ) (readings : List Timespec)
    (htime : r.time < 2 ^ 32) (hclock : Monotonic (r.now :: readings)) :
    EveryStep examine OnTime (r.watch procId) readings ↔
      EveryStep examine Punctual (r.watch procId) readings :=
  run_onTime_iff ⟨htime, fun _ => rfl⟩ hclock

/-- A period of one second, from 5.9 s on. -/
def second : Registration Unit where
  mode := taskSingle
  time := 1000
  name := []
  pfnProc := some ()
  pPrivData := 0
  addr := 1
  now := ⟨5, 900000000⟩

/-- The clock 0.2 s later. -/
lemma monotonic_second : Monotonic [second.now, ⟨6, 100000000⟩] where
  valid t ht := by
    rcases List.mem_pair.mp ht with rfl | rfl
    · exact ⟨⟨by decide, by decide⟩, ⟨by decide, by decide⟩⟩
    · exact ⟨⟨by decide, by decide⟩, ⟨by decide, by decide⟩⟩
  sorted := by
    rw [List.pairwise_pair]
    decide

/-- The task runs after 0.2 s. -/
theorem second_not_onTime : Monotonic [second.now, ⟨6, 100000000⟩] ∧
    ¬ EveryStep examine OnTime (second.watch 1) [⟨6, 100000000⟩] := by
  refine ⟨monotonic_second, fun h => ?_⟩
  have helapsed := h.1 ⟨rfl, Or.inl rfl⟩ rfl
  revert helapsed
  unfold Elapsed
  decide

theorem second_never_early : second.time < 2 ^ 32 ∧ Monotonic [second.now, ⟨6, 100000000⟩] ∧
    (EveryStep examine OnTime (second.watch 1) [⟨6, 100000000⟩] ↔
      EveryStep examine Punctual (second.watch 1) [⟨6, 100000000⟩]) :=
  ⟨by decide, monotonic_second, never_early_iff second 1 _ (by decide) monotonic_second⟩

/-! ## The checker -/

section Checker
variable {s : State φ} {n : Node φ}

/-- The node under the cursor is the one that is rescheduled. -/
lemma find?_reschedule {nodes : List (Node φ)} {cursor : Option ℕ}
    (hn : (nodes.find? fun m => cursor = some m.addr) = some n) (now : Timespec) :
    ((reschedule nodes n.addr now).find? fun m => cursor = some m.addr)
      = some { n with task := { n.task with stCheckTime := checkTime now n.task.u32Time } } := by
  unfold reschedule
  rw [List.find?_map]
  -- rescheduling keeps the addresses
  have hsame : ((fun m : Node φ => decide (cursor = some m.addr)) ∘ fun m : Node φ =>
      if m.addr = n.addr then
        { m with task := { m.task with stCheckTime := checkTime now m.task.u32Time } }
      else m) = fun m => decide (cursor = some m.addr) := by
    funext m
    simp only [Function.comp_apply]
    split <;> rfl
  rw [hsame, hn, Option.map_some, if_pos rfl]

/-- The steps of the checker that run a callback, if the task has one. -/
lemma run_invoke (hpc : s.pc = .invoke) (hn : s.currentNode = some n) (clock : Timespec)
    (junk : Junk φ) : ∃ k records,
      run step s (List.replicate k (.checker clock junk))
        = some { s with pc := .settle, records := records } := by
  cases hproc : n.task.pfnProc with
  | none =>
    refine ⟨1, s.records, ?_⟩
    simp [List.replicate, run, step, checkerStep, hpc, currentTask_of_currentNode hn, hproc]
  | some f =>
    refine ⟨2, .started n.task.procId n.task.mode
      (decide (n.task.procId ∈ s.nodes.map fun m => m.task.procId)) :: s.records, ?_⟩
    simp [List.replicate, run, step, checkerStep, hpc, currentTask_of_currentNode hn, hproc]

/-- **The checker examines.** From its test of a linked task on, the steps of the checker do to
the task what `examine` does. -/
theorem checker_examine (hpc : s.pc = .examine) (hn : s.currentNode = some n) (base : Timespec)
    (runs : ℕ) (clock : Timespec) (junk : Junk φ) :
    ∃ k t, run step s (List.replicate k (.checker clock junk)) = some t ∧ t.pc = .advance ∧
      match examine ⟨n.task, base, runs⟩ s.now with
      | none => t.nodes = delNode n.task.procId s.nodes
      | some w => t.currentNode = some { n with task := w.task } := by
  unfold examine
  by_cases hdue : due n.task s.now = true
  · obtain ⟨k, records, hinvoke⟩ := run_invoke (s := { s with pc := .invoke }) rfl hn clock junk
    have hexamine : checkerStep s clock junk = some { s with pc := .invoke } := by
      simp [checkerStep, hpc, currentTask_of_currentNode hn, hdue]
    have hcursor : s.cursor = some n.addr := by simpa using List.find?_some hn
    -- one step in front of those of the callback, and one behind them
    have hsplit : List.replicate (1 + k + 1) (Event.checker clock junk)
        = [.checker clock junk] ++ List.replicate k (.checker clock junk)
          ++ [.checker clock junk] := by
      rw [List.replicate_add, List.replicate_add]
      rfl
    have hrun : ∀ t, checkerStep { s with pc := .settle, records := records } clock junk = some t →
        run step s (List.replicate (1 + k + 1) (.checker clock junk)) = some t := fun t ht => by
      rw [hsplit, run_append, run_append]
      simp only [run, step, hexamine, Option.bind_some]
      rw [hinvoke]
      simp only [Option.bind_some, ht]
    refine ⟨1 + k + 1, _, hrun _ rfl, rfl, ?_⟩
    have htask : State.currentTask { s with pc := .settle, records := records } junk = n.task :=
      currentTask_of_currentNode hn junk
    simp only [if_pos hdue, htask]
    by_cases hsingle : n.task.mode = taskSingle
    · simp only [if_pos hsingle]
    by_cases hcontinue : n.task.mode = taskContinue
    · simp only [if_neg hsingle, if_pos hcontinue]
      show List.find? _ ((s.cursor.map fun addr => reschedule s.nodes addr s.now).getD s.nodes) = _
      rw [hcursor]
      exact find?_reschedule (hcursor ▸ hn) s.now
    · simp only [if_neg hsingle, if_neg hcontinue]
      exact hn
  · refine ⟨1, { s with pc := .advance }, ?_, rfl, ?_⟩
    · simp [List.replicate, run, step, checkerStep, hpc, currentTask_of_currentNode hn, hdue]
    · simp only [if_neg hdue]
      exact hn

end Checker

end IpncRdk.TimerThr
