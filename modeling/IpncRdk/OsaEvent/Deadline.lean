import IpncRdk.Lib.CSemantics
import IpncRdk.OsaEvent.Event

/-!
# The deadline of a retrieve with a timeout

`OSA_EventRetrieve` turns its timeout into the absolute time that `pthread_cond_timedwait` takes. It
adds the milliseconds to the microseconds of the clock in one `unsigned` of 32 bits, and splits that
into seconds and nanoseconds.

* `timeout` — the deadline;
* `Exact` — it is the time of the call and the timeout;
* `deadline_exact_iff` — exactly the calls whose sums stay in their types;
* `timeout_le`, `timeout_lt` — a sum that wraps around makes the deadline too early.
-/

namespace IpncRdk.OsaEvent

open Lib

/-- `struct timeval`, with a `time_t` of 32 bits. -/
structure Timeval where
  tvSec : Int32
  tvUsec : ℕ
  usec_lt : tvUsec < 1000000

/-- `struct timespec` -/
structure Timespec where
  tvSec : ℤ
  tvNsec : ℕ
  deriving DecidableEq, Repr

/-- `timeout_us` -/
def timeoutUs (now : Timeval) (uTimeOutMsec : BitVec 32) : BitVec 32 :=
  BitVec.ofNat 32 now.tvUsec + 1000 * uTimeOutMsec

/-- The deadline, as `gettimeofday` finds the clock. -/
def timeout (now : Timeval) (uTimeOutMsec : BitVec 32) : Timespec where
  tvSec := wrap32 (now.tvSec.toInt + ((timeoutUs now uTimeOutMsec).toNat / 1000000 : ℕ))
  tvNsec := (timeoutUs now uTimeOutMsec).toNat % 1000000 * 1000

/-! ## The property -/

/-- Nanoseconds of the clock. -/
def Timeval.instant (now : Timeval) : ℤ := now.tvSec.toInt * 10 ^ 9 + now.tvUsec * 1000

def Timespec.instant (t : Timespec) : ℤ := t.tvSec * 10 ^ 9 + t.tvNsec

/-- The deadline is the time of the call and the milliseconds of the timeout. -/
structure Exact (now : Timeval) (uTimeOutMsec : BitVec 32) : Prop where
  instant : (timeout now uTimeOutMsec).instant = now.instant + uTimeOutMsec.toNat * 10 ^ 6
  nsec : (timeout now uTimeOutMsec).tvNsec < 1000000000

/-- The microseconds are below `2 ^ 32`, and the seconds of the deadline below `2 ^ 31`. -/
structure Fits (now : Timeval) (uTimeOutMsec : BitVec 32) : Prop where
  usec : now.tvUsec + 1000 * uTimeOutMsec.toNat < 2 ^ 32
  sec : now.tvSec.toInt + ((now.tvUsec + 1000 * uTimeOutMsec.toNat) / 1000000 : ℕ) < 2 ^ 31

/-! ## The sums -/

section Sums
variable {now : Timeval} {uTimeOutMsec : BitVec 32}

lemma timeoutUs_toNat (now : Timeval) (uTimeOutMsec : BitVec 32) :
    (timeoutUs now uTimeOutMsec).toNat =
      (now.tvUsec + 1000 * uTimeOutMsec.toNat) % 2 ^ 32 := by
  have husec := now.usec_lt
  unfold timeoutUs
  rw [BitVec.toNat_add, BitVec.toNat_ofNat, BitVec.toNat_mul]
  show (now.tvUsec % 2 ^ 32 + 1000 * uTimeOutMsec.toNat % 2 ^ 32) % 2 ^ 32 = _
  rw [← Nat.add_mod]

lemma timeout_nsec_lt (now : Timeval) (uTimeOutMsec : BitVec 32) :
    (timeout now uTimeOutMsec).tvNsec < 1000000000 := by
  show (timeoutUs now uTimeOutMsec).toNat % 1000000 * 1000 < 1000000000
  omega

/-- The deadline is early by what the wraps take away: some multiples of `2 ^ 32` microseconds, and
`2 ^ 32` seconds. -/
lemma timeout_instant (now : Timeval) (uTimeOutMsec : BitVec 32) : ∃ usecs secs : ℕ,
    (timeout now uTimeOutMsec).instant = now.instant + uTimeOutMsec.toNat * 10 ^ 6
      - (usecs * 2 ^ 32 + secs * 2 ^ 32 * 10 ^ 6) * 1000 ∧
    (usecs = 0 ↔ now.tvUsec + 1000 * uTimeOutMsec.toNat < 2 ^ 32) ∧
    (secs = 0 ↔ now.tvSec.toInt + ((timeoutUs now uTimeOutMsec).toNat / 1000000 : ℕ) < 2 ^ 31) := by
  have hlo := now.tvSec.le_toInt
  have hhi := now.tvSec.toInt_lt
  have hus := timeoutUs_toNat now uTimeOutMsec
  have hlt := (timeoutUs now uTimeOutMsec).isLt
  unfold timeout Timespec.instant Timeval.instant
  dsimp only
  generalize now.tvSec.toInt = sec at hlo hhi ⊢
  generalize (timeoutUs now uTimeOutMsec).toNat = us at hus hlt ⊢
  refine ⟨(now.tvUsec + 1000 * uTimeOutMsec.toNat) / 2 ^ 32, ?_⟩
  rcases lt_or_ge (sec + (us / 1000000 : ℕ)) (2 ^ 31) with hsec | hsec
  · refine ⟨0, ?_, by omega, by omega⟩
    rw [wrap32_of_bounds (by omega) hsec]
    omega
  · refine ⟨1, ?_, by omega, by omega⟩
    rw [wrap32_of_ge hsec (by omega)]
    omega

/-- A deadline is never late. -/
lemma timeout_le (now : Timeval) (uTimeOutMsec : BitVec 32) :
    (timeout now uTimeOutMsec).instant ≤ now.instant + uTimeOutMsec.toNat * 10 ^ 6 := by
  obtain ⟨usecs, secs, hinstant, -, -⟩ := timeout_instant now uTimeOutMsec
  rw [hinstant]
  omega

/-- No deadline is more than 72 minutes away, whatever the timeout. -/
lemma timeout_lt (now : Timeval) (uTimeOutMsec : BitVec 32) :
    (timeout now uTimeOutMsec).instant < now.instant + 72 * 60 * 10 ^ 9 := by
  have hlo := now.tvSec.le_toInt
  have hlt := (timeoutUs now uTimeOutMsec).isLt
  unfold timeout Timespec.instant Timeval.instant
  dsimp only
  generalize now.tvSec.toInt = sec at hlo ⊢
  generalize (timeoutUs now uTimeOutMsec).toNat = us at hlt ⊢
  have hsec : wrap32 (sec + (us / 1000000 : ℕ)) ≤ sec + (us / 1000000 : ℕ) := wrap32_le (by omega)
  omega

/-- **Exactly when the deadline is right.** For every time of the call and every timeout. -/
theorem deadline_exact_iff (now : Timeval) (uTimeOutMsec : BitVec 32) :
    Exact now uTimeOutMsec ↔ Fits now uTimeOutMsec := by
  obtain ⟨usecs, secs, hinstant, husecs, hsecs⟩ := timeout_instant now uTimeOutMsec
  rw [timeoutUs_toNat] at hsecs
  constructor
  · rintro ⟨hexact, -⟩
    rw [hinstant] at hexact
    have husec : now.tvUsec + 1000 * uTimeOutMsec.toNat < 2 ^ 32 := husecs.mp (by omega)
    have hsec := hsecs.mp (by omega)
    rw [Nat.mod_eq_of_lt husec] at hsec
    exact ⟨husec, hsec⟩
  · rintro ⟨husec, hsec⟩
    rw [Nat.mod_eq_of_lt husec] at hsecs
    have husecs := husecs.mpr husec
    have hsecs := hsecs.mpr hsec
    refine ⟨?_, timeout_nsec_lt now uTimeOutMsec⟩
    rw [hinstant, husecs, hsecs]
    omega

/-- A timeout of 4294968 milliseconds, 71 minutes and 35 seconds, at a full second: the deadline is
704 microseconds away. -/
theorem longTimeout_not_exact : ¬ Exact ⟨0, 0, by decide⟩ 4294968 ∧
    timeout ⟨0, 0, by decide⟩ 4294968 = ⟨0, 704000⟩ := by
  refine ⟨fun h => ?_, by decide⟩
  have hfits := (deadline_exact_iff _ _).mp h
  exact absurd hfits.usec (by decide)

end Sums

end IpncRdk.OsaEvent
