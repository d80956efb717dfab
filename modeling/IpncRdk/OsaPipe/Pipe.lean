import IpncRdk.Lib.CSemantics
import IpncRdk.Lib.Run

/-!
# `osa_pipe.c`: a pipe with counters beside it

The pipe of the operating system is a sequence of bytes: a write appends all its bytes, and a
read takes the first bytes up to the size it asks for, and waits while there are none. `OSA_PIPE`
counts messages and bytes on its own.

* `Accounted` — the counters say what is in the pipe;
* `Matches` — the calls after which they still do;
* `accounted_iff` — a run keeps the counters right exactly if all its calls match.

`pipeSize`, `messageSize` and `isFixedMessage` are stored by `OSA_CreatePipe` and used nowhere.
-/

namespace IpncRdk.OsaPipe

open Lib

/-- `OSA_SOK` -/
abbrev osaSok : ℤ := 0

/-- `OSA_EFAIL` -/
abbrev osaEfail : ℤ := -1

/-- What is in the pipe, and the counters of `OSA_PIPE`. -/
structure Pipe where
  bytes : List UInt8
  messageCount : ℤ
  totalBytesInPipe : ℤ
  deriving DecidableEq, Repr

/-- The handle that `OSA_CreatePipe` leaves behind. -/
def osaCreatePipe : Pipe := ⟨[], 0, 0⟩

/-- An `unsigned long` of the target. -/
abbrev ULong : Type := Fin (2 ^ 32)

/-- A message whose size is an `unsigned long`. -/
structure Message where
  bytes : List UInt8
  size_lt : bytes.length < 2 ^ 32

/-- `OSA_WriteToPipe` -/
def osaWriteToPipe (pHandle : Pipe) (pMessage : Message) : ℤ × Pipe :=
  let size := pMessage.bytes.length
  if size = 0 then (osaEfail, pHandle)
  else
    (osaSok,
      { bytes := pHandle.bytes ++ pMessage.bytes
        messageCount := wrap32 (pHandle.messageCount + 1)
        totalBytesInPipe := wrap32 (pHandle.totalBytesInPipe + size) })

/-- `OSA_ReadFromPipe`: the status, the bytes read, whose number is `*actualSize`, and the handle;
`none` where `read` waits for a byte. -/
def osaReadFromPipe (pHandle : Pipe) (size : ULong) : Option (ℤ × List UInt8 × Pipe) :=
  if size.val = 0 ∨ pHandle.messageCount = 0 then some (osaEfail, [], pHandle)
  else if pHandle.bytes = [] then none
  else
    some (osaSok, pHandle.bytes.take size.val,
      { bytes := pHandle.bytes.drop size.val
        messageCount := wrap32 (pHandle.messageCount - 1)
        -- the size asked for, not the size read
        totalBytesInPipe := wrap32 (pHandle.totalBytesInPipe - size.val) })

/-! ## Sequences of calls -/

inductive Call
  | write (pMessage : Message)
  | read (size : ULong)

def step (s : Pipe) : Call → Option Pipe
  | .write pMessage => some (osaWriteToPipe s pMessage).2
  | .read size => (osaReadFromPipe s size).map fun r => r.2.2

/-- `totalBytesInPipe` is the number of bytes in the pipe, and `messageCount` is 0 exactly when
there are none. -/
structure Accounted (s : Pipe) : Prop where
  total : s.totalBytesInPipe = s.bytes.length
  count : s.messageCount = 0 ↔ s.bytes = []

/-- A read refuses exactly where the pipe is empty, and waits nowhere. -/
def ReadOk (s : Pipe) : Call → Prop
  | .write _ => True
  | .read size => size.val ≠ 0 →
    ∃ r, osaReadFromPipe s size = some r ∧ (r.1 = osaEfail ↔ s.bytes = [])

/-- A write leaves the counters within an `int`. A read asks for no more than there is, and it
takes all of it if and only if it is the last one counted. -/
def Matches (s : Pipe) : Call → Prop
  | .write pMessage =>
    pMessage.bytes.length ≠ 0 →
      s.bytes.length + pMessage.bytes.length < 2 ^ 31 ∧ s.messageCount ≠ -1
  | .read size => size.val ≠ 0 → s.messageCount ≠ 0 →
      size.val ≤ s.bytes.length ∧ (s.messageCount = 1 ↔ size.val = s.bytes.length)

/-! ## The invariant -/

/-- The counters are right, and they are ints. -/
structure Inv (s : Pipe) : Prop extends Accounted s where
  count_lo : -2 ^ 31 ≤ s.messageCount
  count_hi : s.messageCount < 2 ^ 31
  total_hi : s.totalBytesInPipe < 2 ^ 31

lemma inv_create : Inv osaCreatePipe :=
  ⟨⟨rfl, by simp [osaCreatePipe]⟩, by decide, by decide, by decide⟩

section Step
variable {s : Pipe} {pMessage : Message} {size : ULong}

lemma write_empty (hsize : pMessage.bytes.length = 0) :
    osaWriteToPipe s pMessage = (osaEfail, s) := by
  unfold osaWriteToPipe
  rw [if_pos hsize]

lemma write_some (hsize : pMessage.bytes.length ≠ 0) :
    osaWriteToPipe s pMessage
      = (osaSok, ⟨s.bytes ++ pMessage.bytes, wrap32 (s.messageCount + 1),
          wrap32 (s.totalBytesInPipe + pMessage.bytes.length)⟩) := by
  unfold osaWriteToPipe
  rw [if_neg hsize]

lemma read_refused (h : size.val = 0 ∨ s.messageCount = 0) :
    osaReadFromPipe s size = some (osaEfail, [], s) := by
  unfold osaReadFromPipe
  rw [if_pos h]

lemma read_some (hsize : size.val ≠ 0) (hcount : s.messageCount ≠ 0) (hbytes : s.bytes ≠ []) :
    osaReadFromPipe s size
      = some (osaSok, s.bytes.take size.val, ⟨s.bytes.drop size.val, wrap32 (s.messageCount - 1),
          wrap32 (s.totalBytesInPipe - size.val)⟩) := by
  unfold osaReadFromPipe
  rw [if_neg (not_or.mpr ⟨hsize, hcount⟩), if_neg hbytes]

/-- After a write the counters are right exactly if it matches. -/
lemma accounted_write (h : Inv s) (hsize : pMessage.bytes.length ≠ 0) :
    Accounted (osaWriteToPipe s pMessage).2 ↔ Matches s (.write pMessage) := by
  have hlt := pMessage.size_lt
  have hlo := h.count_lo
  have hhi := h.count_hi
  have hne : s.bytes ++ pMessage.bytes ≠ [] := by
    intro hnil
    rw [List.append_eq_nil_iff] at hnil
    exact hsize (by rw [hnil.2]; rfl)
  -- the count is an int again, and it is 0 only behind `-1`
  have hcount : wrap32 (s.messageCount + 1) = 0 ↔ s.messageCount = -1 := by
    rw [wrap32_eq_zero (by omega) (by omega)]
    omega
  have htotal : wrap32 (s.totalBytesInPipe + pMessage.bytes.length)
        = ((s.bytes ++ pMessage.bytes).length : ℤ)
      ↔ s.bytes.length + pMessage.bytes.length < 2 ^ 31 := by
    rw [h.total, List.length_append, Nat.cast_add, wrap32_eq_self]
    omega
  rw [write_some hsize]
  constructor
  · intro hacc _
    exact ⟨htotal.mp hacc.total, fun hc => hne (hacc.count.mp (hcount.mpr hc))⟩
  · intro hmatches
    obtain ⟨hfits, hc⟩ := hmatches hsize
    exact ⟨htotal.mpr hfits, fun hz => absurd (hcount.mp hz) hc, fun hnil => absurd hnil hne⟩

/-- After a read the counters are right exactly if it matches. -/
lemma accounted_read (h : Inv s) (hsize : size.val ≠ 0) (hcount : s.messageCount ≠ 0) :
    Accounted ⟨s.bytes.drop size.val, wrap32 (s.messageCount - 1),
        wrap32 (s.totalBytesInPipe - size.val)⟩ ↔ Matches s (.read size) := by
  have hlt := size.isLt
  have hlo := h.count_lo
  have hhi := h.count_hi
  have hlast : wrap32 (s.messageCount - 1) = 0 ↔ s.messageCount = 1 := by
    rw [wrap32_eq_zero (by omega) (by omega)]
    omega
  have hempty : s.bytes.drop size.val = [] ↔ s.bytes.length ≤ size.val := List.drop_eq_nil_iff
  have htotal := h.total
  constructor
  · rintro ⟨hacc, hiff⟩ - -
    simp only [List.length_drop] at hacc hiff
    have hle : size.val ≤ s.bytes.length := by
      by_contra hmore
      -- `totalBytesInPipe` would be below zero
      rw [Nat.sub_eq_zero_of_le (by omega), htotal, Nat.cast_zero,
        wrap32_eq_zero (by omega) (by omega)] at hacc
      omega
    refine ⟨hle, ?_⟩
    rw [hlast, hempty] at hiff
    rw [hiff]
    omega
  · intro hmatches
    obtain ⟨hle, hiff⟩ := hmatches hsize hcount
    refine ⟨?_, ?_⟩
    · show wrap32 (s.totalBytesInPipe - size.val) = ((s.bytes.drop size.val).length : ℤ)
      have hsub : s.totalBytesInPipe - size.val = ((s.bytes.length - size.val : ℕ) : ℤ) := by omega
      have hbound := h.total_hi
      rw [List.length_drop, hsub, wrap32_eq_self]
      omega
    · show wrap32 (s.messageCount - 1) = 0 ↔ s.bytes.drop size.val = []
      rw [hlast, hempty, hiff]
      omega

/-- A read with something to take takes it; what the counters are right about is not empty. -/
lemma Inv.read_some (h : Inv s) (hsize : size.val ≠ 0) (hcount : s.messageCount ≠ 0) :
    osaReadFromPipe s size
      = some (osaSok, s.bytes.take size.val, ⟨s.bytes.drop size.val, wrap32 (s.messageCount - 1),
          wrap32 (s.totalBytesInPipe - size.val)⟩) :=
  OsaPipe.read_some hsize hcount fun hnil => hcount (h.count.mpr hnil)

/-- After a step the counters are right exactly if the call matches. -/
lemma step_spec (h : Inv s) (call : Call) :
    ∃ s', step s call = some s' ∧ (Accounted s' ↔ Matches s call) ∧
      (Accounted s' → Inv s') := by
  cases call with
  | write pMessage =>
    refine ⟨(osaWriteToPipe s pMessage).2, rfl, ?_⟩
    by_cases hsize : pMessage.bytes.length = 0
    · rw [write_empty hsize]
      exact ⟨⟨fun _ hne => absurd hsize hne, fun _ => h.toAccounted⟩, fun _ => h⟩
    · refine ⟨accounted_write h hsize, fun hacc => ?_⟩
      rw [write_some hsize] at hacc ⊢
      exact ⟨hacc, wrap32_lo _, wrap32_hi _, wrap32_hi _⟩
  | read size =>
    by_cases hrefused : size.val = 0 ∨ s.messageCount = 0
    · refine ⟨s, ?_, ⟨fun _ hsize hcount => ?_, fun _ => h.toAccounted⟩, fun _ => h⟩
      · rw [step, read_refused hrefused]
        rfl
      · exact absurd hrefused (not_or.mpr ⟨hsize, hcount⟩)
    · obtain ⟨hsize, hcount⟩ := not_or.mp hrefused
      refine ⟨_, ?_, accounted_read h hsize hcount, fun hacc => ?_⟩
      · rw [step, h.read_some hsize hcount]
        rfl
      · exact ⟨hacc, wrap32_lo _, wrap32_hi _, wrap32_hi _⟩

lemma inv_step (s : Pipe) (call : Call) (s' : Pipe) (h : Inv s) (hmatches : Matches s call)
    (hstep : step s call = some s') : Inv s' := by
  obtain ⟨t, ht, hiff, hinv⟩ := step_spec h call
  rw [ht, Option.some.injEq] at hstep
  exact hstep ▸ hinv (hiff.mpr hmatches)

/-- A call that does not match leaves wrong counters. -/
lemma breaks (s : Pipe) (call : Call) (h : Inv s) (hmatches : ¬ Matches s call) :
    ∃ s', step s call = some s' ∧ ¬ Accounted s' := by
  obtain ⟨t, ht, hiff, -⟩ := step_spec h call
  exact ⟨t, ht, fun hacc => hmatches (hiff.mp hacc)⟩

/-- Right counters refuse exactly the reads of an empty pipe. -/
lemma Inv.readOk (h : Inv s) (call : Call) : ReadOk s call := by
  cases call with
  | write => trivial
  | read size =>
    intro hsize
    by_cases hcount : s.messageCount = 0
    · exact ⟨_, read_refused (.inr hcount), fun _ => h.count.mp hcount, fun _ => rfl⟩
    · refine ⟨_, h.read_some hsize hcount, ?_⟩
      simp only [osaSok, osaEfail]
      exact ⟨fun hfail => absurd hfail (by decide), fun hnil => absurd (h.count.mpr hnil) hcount⟩

end Step

/-- **Exactly when the counters say what is in the pipe.** In every sequence of calls the counters
are right in every state, and no read refuses with data present or waits at an empty pipe, if and
only if every call matches. -/
theorem accounted_iff (calls : List Call) :
    (Always step Accounted osaCreatePipe calls ∧ EveryStep step ReadOk osaCreatePipe calls) ↔
      EveryStep step Matches osaCreatePipe calls := by
  have hiff : Always step Accounted osaCreatePipe calls ↔
      EveryStep step Matches osaCreatePipe calls :=
    always_iff_everyStep (fun _ h => h.toAccounted) inv_step breaks calls inv_create
  constructor
  · rintro ⟨hacc, -⟩
    exact hiff.mp hacc
  · intro hmatches
    refine ⟨hiff.mpr hmatches, ?_⟩
    exact everyStep_imp_of_invariant (fun _ call h _ => h.readOk call) inv_step calls inv_create
      hmatches

/-- Ten bytes written and four read: `messageCount` is 0, and six bytes are left. -/
theorem short_read_miscounts :
    ¬ ∀ calls, Always step Accounted osaCreatePipe calls ∧
      EveryStep step ReadOk osaCreatePipe calls := by
  intro h
  have hrun : run step osaCreatePipe
      [.write ⟨List.replicate 10 0, by decide⟩, .read 4] = some ⟨List.replicate 6 0, 0, 6⟩ := by
    decide
  have hcount := (of_always (h _).1 hrun).count
  exact absurd (hcount.mp rfl) (by decide)

end IpncRdk.OsaPipe
