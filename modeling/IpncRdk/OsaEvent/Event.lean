import Mathlib.Data.BitVec
import Mathlib.Data.Int.Notation

/-!
# `osa_event.c`: event flags

An event object is a word of flags, with a condition that a setter signals and a retriever waits
for. A call of `OSA_EventRetrieve` tests the flags under the lock; between two tests it waits
with the lock released, and other tasks set flags.

`bSignaled` is set and never read, and is left out; `unsigned long` and `unsigned` have 32 bits.
-/

namespace IpncRdk.OsaEvent

/-- `OSA_SOK` -/
abbrev osaSok : ℤ := 0

/-- `OSA_EFAIL` -/
abbrev osaEfail : ℤ := -1

/-- `OSA_NO_SUSPEND` -/
abbrev osaNoSuspend : BitVec 32 := 0

/-- `OSA_SUSPEND` -/
abbrev osaSuspend : BitVec 32 := 0xFFFFFFFF

/-- `OSA_EVENT_OPERATION` -/
inductive EventOperation
  | and
  | andConsume
  | or
  | orConsume
  deriving DecidableEq, Repr

/-- `OSA_EventSet`: the status, the flags, and whether the condition is signalled. -/
def osaEventSet (eFlags uEventFlags : BitVec 32) : EventOperation → ℤ × BitVec 32 × Bool
  | .and => (osaSok, eFlags &&& uEventFlags, true)
  | .or => (osaSok, eFlags ||| uEventFlags, true)
  | _ => (osaEfail, eFlags, false)

def andOperation (eOperation : EventOperation) : Bool :=
  eOperation = .and ∨ eOperation = .andConsume

/-- The `..._CONSUME` operations. -/
def consumes (eOperation : EventOperation) : Bool :=
  eOperation = .andConsume ∨ eOperation = .orConsume

/-- What `OSA_EventRetrieve` tests. -/
def isolatedFlags (eFlags uRequestedEvents : BitVec 32) (eOperation : EventOperation) : BitVec 32 :=
  let isolated := eFlags &&& uRequestedEvents
  if andOperation eOperation then (if isolated = uRequestedEvents then 1 else 0) else isolated

/-- The requested combination is there. -/
def Satisfied (eFlags uRequestedEvents : BitVec 32) (eOperation : EventOperation) : Prop :=
  isolatedFlags eFlags uRequestedEvents eOperation ≠ 0

instance (eFlags uRequestedEvents : BitVec 32) (eOperation : EventOperation) :
    Decidable (Satisfied eFlags uRequestedEvents eOperation) :=
  inferInstanceAs (Decidable (isolatedFlags eFlags uRequestedEvents eOperation ≠ 0))

/-- The flags that a call leaves behind once it has the requested combination. -/
def consume (eFlags : BitVec 32) (eOperation : EventOperation) : BitVec 32 :=
  if consumes eOperation then 0 else eFlags

/-! ## One call while others set flags -/

/-- A call of `OSA_EventSet`. -/
structure SetCall where
  uEventFlags : BitVec 32
  eOperation : EventOperation
  deriving DecidableEq, Repr

/-- The flags after some calls of `OSA_EventSet`. -/
def setAll (eFlags : BitVec 32) (sets : List SetCall) : BitVec 32 :=
  sets.foldl (fun eFlags c => (osaEventSet eFlags c.uEventFlags c.eOperation).2.1) eFlags

/-- What `OSA_EventRetrieve` leaves behind: its status, what it stored in `*pRetrievedEvents` if
anything, and the flags. -/
structure Retrieved where
  status : ℤ
  pRetrievedEvents : Option (BitVec 32)
  eFlags : BitVec 32
  deriving DecidableEq, Repr

section Retrieve
variable (uRequestedEvents : BitVec 32) (eOperation : EventOperation)

/-- The loop of `OSA_SUSPEND`, with the calls that set flags during each wait; `none` where it
still waits at the end of the schedule. -/
def suspended (eFlags : BitVec 32) : List (List SetCall) → Option Retrieved
  | [] => none
  | sets :: schedule =>
    let eFlags := setAll eFlags sets
    if Satisfied eFlags uRequestedEvents eOperation then
      some ⟨osaSok, some eFlags, consume eFlags eOperation⟩
    else suspended eFlags schedule

/-- The loop with a timeout, which ends the wait of number `deadline`, or the first one in which
nobody sets flags any more. Where the loop ends with the requested combination it does not store
it, and the status is still the one that the function began with. -/
def timed (eFlags : BitVec 32) : ℕ → List (List SetCall) → Retrieved
  | _, [] => ⟨osaSok, some 0, eFlags⟩
  | 0, sets :: _ => ⟨osaSok, some 0, setAll eFlags sets⟩
  | deadline + 1, sets :: schedule =>
    let eFlags := setAll eFlags sets
    if Satisfied eFlags uRequestedEvents eOperation then
      ⟨osaEfail, none, consume eFlags eOperation⟩
    else timed eFlags deadline schedule

/-- `OSA_EventRetrieve` -/
def osaEventRetrieve (eFlags uTimeOutMsec : BitVec 32) (deadline : ℕ)
    (schedule : List (List SetCall)) : Option Retrieved :=
  if Satisfied eFlags uRequestedEvents eOperation then
    some ⟨osaSok, some eFlags, consume eFlags eOperation⟩
  else if uTimeOutMsec = osaNoSuspend then some ⟨osaSok, some 0, eFlags⟩
  else if uTimeOutMsec = osaSuspend then suspended uRequestedEvents eOperation eFlags schedule
  else some (timed uRequestedEvents eOperation eFlags deadline schedule)

end Retrieve

/-! ## What the operations test -/

section Tests
variable {eFlags uRequestedEvents : BitVec 32} {eOperation : EventOperation}

/-- Without any flag only the empty mask is satisfied, with an AND, and that always is. -/
lemma satisfied_of_zero (h : Satisfied 0 uRequestedEvents eOperation) :
    Satisfied eFlags uRequestedEvents eOperation := by
  have hzero : (0 : BitVec 32) &&& uRequestedEvents = 0 := by simp
  simp only [Satisfied, isolatedFlags, hzero] at h ⊢
  by_cases hand : andOperation eOperation = true
  · rw [if_pos hand] at h ⊢
    have hmask : uRequestedEvents = 0 := by
      by_contra hne
      exact h (if_neg (Ne.symm hne))
    rw [if_pos (by rw [hmask]; simp)]
    decide
  · rw [if_neg hand] at h
    exact absurd rfl h

/-- A combination that has to be waited for is there only with some flag. -/
lemma ne_zero_of_satisfied (hnot : ¬ Satisfied 0 uRequestedEvents eOperation)
    (h : Satisfied eFlags uRequestedEvents eOperation) : eFlags ≠ 0 := by
  rintro rfl
  exact hnot h

end Tests

end IpncRdk.OsaEvent
