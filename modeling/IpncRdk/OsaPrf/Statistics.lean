import Mathlib.Algebra.BigOperators.Group.List.Basic
import Mathlib.Algebra.GroupWithZero.Nat
import Mathlib.Data.List.Induction
import Mathlib.Order.Bounds.Basic
import Mathlib.Order.Fin.Basic

/-!
# `osa_prf.c`: the statistics of the profiler

Each pair of `OSA_prfBegin` and `OSA_prfEnd` measures a time and is given a value. A reset sets the
minima to 0, so that no time is ever below the least one so far, and a new least value is looked for
among those below the least time.

* `Accounts` — what the fields hold after some measurements;
* `Statistics` — what they should hold;
* `statistics_iff` — exactly when they do.
-/

namespace IpncRdk.OsaPrf

/-- A `Uint32`. -/
abbrev Uint32 : Type := Fin (2 ^ 32)

/-- `OSA_PrfHndl` -/
structure PrfHndl where
  totalTime : Uint32
  maxTime : Uint32
  minTime : Uint32
  totalValue : Uint32
  maxValue : Uint32
  minValue : Uint32
  count : Uint32
  curTime : Uint32
  deriving DecidableEq, Repr

/-- `OSA_prfBegin`, at a time in milliseconds. -/
def osaPrfBegin (hndl : PrfHndl) (now : Uint32) : PrfHndl := { hndl with curTime := now }

/-- `OSA_prfEnd` -/
def osaPrfEnd (hndl : PrfHndl) (now value : Uint32) : PrfHndl :=
  let curTime := now - hndl.curTime
  let minTime := if curTime < hndl.minTime then curTime else hndl.minTime
  { totalTime := hndl.totalTime + curTime
    maxTime := if curTime > hndl.maxTime then curTime else hndl.maxTime
    minTime := minTime
    totalValue := hndl.totalValue + value
    maxValue := if value > hndl.maxValue then value else hndl.maxValue
    -- the source compares with `minTime`
    minValue := if value < minTime then value else hndl.minValue
    count := hndl.count + 1
    curTime := curTime }

/-- `OSA_prfReset` -/
def osaPrfReset (hndl : PrfHndl) : PrfHndl :=
  { hndl with
    count := 0, totalTime := 0, maxTime := 0, maxValue := 0, minTime := 0, minValue := 0,
    totalValue := 0 }

/-- The times at which a pair of calls finds the clock, and the value. -/
structure Measurement where
  began : Uint32
  ended : Uint32
  value : Uint32
  deriving DecidableEq, Repr

def Measurement.duration (m : Measurement) : Uint32 := m.ended - m.began

/-- A pair of calls. -/
def measure (hndl : PrfHndl) (m : Measurement) : PrfHndl :=
  osaPrfEnd (osaPrfBegin hndl m.began) m.ended m.value

/-- The handle after a reset and some measurements. -/
def profile (hndl : PrfHndl) (ms : List Measurement) : PrfHndl :=
  ms.foldl measure (osaPrfReset hndl)

/-! ## The property -/

/-- At least one measurement, with sums that fit. -/
structure Session where
  ms : List Measurement
  ne_nil : ms ≠ []
  time_lt : (ms.map fun m => m.duration.val).sum < 2 ^ 32
  value_lt : (ms.map fun m => m.value.val).sum < 2 ^ 32

/-- The number of the measurements, the sums, the maxima and the minima. -/
structure Statistics (hndl : PrfHndl) (ms : List Measurement) : Prop where
  count : hndl.count.val = ms.length
  totalTime : hndl.totalTime.val = (ms.map fun m => m.duration.val).sum
  totalValue : hndl.totalValue.val = (ms.map fun m => m.value.val).sum
  maxTime : IsGreatest {t | ∃ m ∈ ms, m.duration = t} hndl.maxTime
  maxValue : IsGreatest {v | ∃ m ∈ ms, m.value = v} hndl.maxValue
  minTime : IsLeast {t | ∃ m ∈ ms, m.duration = t} hndl.minTime
  minValue : IsLeast {v | ∃ m ∈ ms, m.value = v} hndl.minValue

/-- The measurements have a time of 0 and a value of 0 among them, and their number fits. -/
structure HasZeros (ms : List Measurement) : Prop where
  length : ms.length < 2 ^ 32
  time : ∃ m ∈ ms, m.duration = 0
  value : ∃ m ∈ ms, m.value = 0

/-! ## The accumulators -/

section Accumulators
variable {α : Type} {hndl : PrfHndl} {ms : List Measurement} {m : Measurement}

/-- A maximum that began at 0. -/
structure Tops (f : α → Uint32) (xs : List α) (top : Uint32) : Prop where
  le : ∀ x ∈ xs, f x ≤ top
  mem : top = 0 ∨ ∃ x ∈ xs, f x = top

lemma tops_nil (f : α → Uint32) : Tops f [] 0 := ⟨by simp, .inl rfl⟩

/-- One more number. -/
lemma Tops.snoc {f : α → Uint32} {xs : List α} {top : Uint32} (h : Tops f xs top) (x : α) :
    Tops f (xs ++ [x]) (if f x > top then f x else top) := by
  split_ifs with hgt
  · refine ⟨fun y hy => ?_, .inr ⟨x, List.mem_append_right xs (List.mem_singleton_self x), rfl⟩⟩
    rcases List.mem_append.mp hy with hy | hy
    · exact (h.le y hy).trans hgt.le
    · rw [List.mem_singleton.mp hy]
  · refine ⟨fun y hy => ?_, ?_⟩
    · rcases List.mem_append.mp hy with hy | hy
      · exact h.le y hy
      · rw [List.mem_singleton.mp hy]
        exact not_lt.mp hgt
    · exact h.mem.imp_right fun ⟨y, hy, heq⟩ => ⟨y, List.mem_append_left [x] hy, heq⟩

/-- Of some numbers it is the greatest. -/
lemma Tops.isGreatest {f : α → Uint32} {xs : List α} {top : Uint32} (h : Tops f xs top)
    (hne : xs ≠ []) : IsGreatest {t | ∃ x ∈ xs, f x = t} top := by
  refine ⟨?_, ?_⟩
  · rcases h.mem with hzero | hmem
    · obtain ⟨x, hx⟩ := List.exists_mem_of_ne_nil xs hne
      have hle := h.le x hx
      rw [hzero, Fin.le_zero_iff] at hle
      exact ⟨x, hx, hle.trans hzero.symm⟩
    · exact hmem
  · rintro t ⟨x, hx, rfl⟩
    exact h.le x hx

/-- What the fields hold after some measurements. -/
structure Accounts (hndl : PrfHndl) (ms : List Measurement) : Prop where
  count : hndl.count.val = ms.length % 2 ^ 32
  totalTime : hndl.totalTime.val = (ms.map fun m => m.duration.val).sum % 2 ^ 32
  totalValue : hndl.totalValue.val = (ms.map fun m => m.value.val).sum % 2 ^ 32
  maxTime : Tops Measurement.duration ms hndl.maxTime
  maxValue : Tops Measurement.value ms hndl.maxValue
  minTime : hndl.minTime = 0
  minValue : hndl.minValue = 0

lemma accounts_reset (hndl : PrfHndl) : Accounts (osaPrfReset hndl) [] where
  count := rfl
  totalTime := rfl
  totalValue := rfl
  maxTime := tops_nil _
  maxValue := tops_nil _
  minTime := rfl
  minValue := rfl

/-- **One measurement.** -/
lemma Accounts.measure (h : Accounts hndl ms) (m : Measurement) :
    Accounts (measure hndl m) (ms ++ [m]) where
  count := by
    show (hndl.count + 1).val = _
    rw [Fin.val_add, h.count, List.length_append, List.length_singleton]
    exact Nat.mod_add_mod _ _ _
  totalTime := by
    show (hndl.totalTime + m.duration).val = _
    rw [Fin.val_add, h.totalTime, List.map_append, List.sum_append, List.map_singleton,
      List.sum_singleton, Nat.mod_add_mod]
  totalValue := by
    show (hndl.totalValue + m.value).val = _
    rw [Fin.val_add, h.totalValue, List.map_append, List.sum_append, List.map_singleton,
      List.sum_singleton, Nat.mod_add_mod]
  maxTime := h.maxTime.snoc m
  maxValue := h.maxValue.snoc m
  minTime := by
    show (if m.duration < hndl.minTime then m.duration else hndl.minTime) = 0
    rw [h.minTime, if_neg (Fin.not_lt_zero _)]
  minValue := by
    show (if m.value < (if m.duration < hndl.minTime then m.duration else hndl.minTime) then
      m.value else hndl.minValue) = 0
    rw [h.minTime, if_neg (Fin.not_lt_zero _), if_neg (Fin.not_lt_zero _), h.minValue]

/-- **All measurements after a reset.** -/
lemma accounts_profile (hndl : PrfHndl) (ms : List Measurement) :
    Accounts (profile hndl ms) ms := by
  induction ms using List.reverseRecOn with
  | nil => exact accounts_reset hndl
  | append_singleton ms m ih =>
    unfold profile at ih ⊢
    rw [List.foldl_append]
    exact ih.measure m

lemma isLeast_zero_iff {f : α → Uint32} {xs : List α} :
    IsLeast {t | ∃ x ∈ xs, f x = t} 0 ↔ ∃ x ∈ xs, f x = 0 :=
  ⟨And.left, fun h => ⟨h, fun t _ => Fin.zero_le t⟩⟩

/-- **Exactly when the statistics are right.** For every sequence of measurements. -/
theorem statistics_iff (hndl : PrfHndl) (s : Session) :
    Statistics (profile hndl s.ms) s.ms ↔ HasZeros s.ms := by
  have h := accounts_profile hndl s.ms
  constructor
  · rintro ⟨hcount, -, -, -, -, htime, hvalue⟩
    rw [h.minTime, isLeast_zero_iff] at htime
    rw [h.minValue, isLeast_zero_iff] at hvalue
    refine ⟨?_, htime, hvalue⟩
    rw [← hcount]
    exact (profile hndl s.ms).count.isLt
  · rintro ⟨hlen, htime, hvalue⟩
    refine ⟨?_, ?_, ?_, h.maxTime.isGreatest s.ne_nil, h.maxValue.isGreatest s.ne_nil, ?_, ?_⟩
    · rw [h.count, Nat.mod_eq_of_lt hlen]
    · rw [h.totalTime, Nat.mod_eq_of_lt s.time_lt]
    · rw [h.totalValue, Nat.mod_eq_of_lt s.value_lt]
    · rw [h.minTime, isLeast_zero_iff]
      exact htime
    · rw [h.minValue, isLeast_zero_iff]
      exact hvalue

/-- One measurement of 5 milliseconds with the value 7: both minima are 0. -/
theorem measurement_not_statistics :
    ¬ Statistics (profile ⟨0, 0, 0, 0, 0, 0, 0, 0⟩ [⟨0, 5, 7⟩]) [⟨0, 5, 7⟩] := by
  intro h
  obtain ⟨-, ⟨m, hm, htime⟩, -⟩ :=
    (statistics_iff _ ⟨[⟨0, 5, 7⟩], by simp, by decide, by decide⟩).mp h
  rw [List.mem_singleton.mp hm] at htime
  exact absurd htime (by decide)

end Accumulators

end IpncRdk.OsaPrf
