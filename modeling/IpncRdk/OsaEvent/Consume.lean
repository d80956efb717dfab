import IpncRdk.OsaEvent.Event

/-!
# What a consuming retrieve takes

`osa_event.h` has the `..._CONSUME` operations consume the events of the mask. The function clears
all flags.

* `obtained` — the flags that a call finds its combination in, at once or after some waits;
* `retrieve_obtained` — what it leaves behind then, on all three ways to wait;
* `LeavesOthers` — the events outside the mask stay as they are;
* `leavesOthers_iff` — exactly the calls that find no other event to take.
-/

namespace IpncRdk.OsaEvent

/-! ## The test that succeeds -/

/-- The flags at the tests that follow each wait. Whatever other tasks do to the flags in a wait,
by setting or retrieving them, some calls of `OSA_EventSet` do too. -/
def tested (eFlags : BitVec 32) : List (List SetCall) → List (BitVec 32)
  | [] => []
  | sets :: schedule => setAll eFlags sets :: tested (setAll eFlags sets) schedule

/-- The waits that a call may take. -/
def waits (uTimeOutMsec : BitVec 32) (deadline : ℕ) (schedule : List (List SetCall)) :
    List (List SetCall) :=
  if uTimeOutMsec = osaNoSuspend then []
  else if uTimeOutMsec = osaSuspend then schedule
  else schedule.take deadline

section Retrieve
variable (uRequestedEvents : BitVec 32) (eOperation : EventOperation)

/-- The flags at the first test that finds the requested combination. -/
def obtained (eFlags uTimeOutMsec : BitVec 32) (deadline : ℕ) (schedule : List (List SetCall)) :
    Option (BitVec 32) :=
  (eFlags :: tested eFlags (waits uTimeOutMsec deadline schedule)).find? fun flags =>
    Satisfied flags uRequestedEvents eOperation

/-- What the operation is to leave of the flags that it is satisfied by. -/
def remaining (flags : BitVec 32) : BitVec 32 :=
  if consumes eOperation then flags &&& ~~~uRequestedEvents else flags

/-- A call that obtains its combination leaves the flags without the events of the mask, or as they
are if it does not consume; and a request for other events finds what it would have found. -/
def LeavesOthers (eFlags uTimeOutMsec : BitVec 32) (deadline : ℕ)
    (schedule : List (List SetCall)) : Prop :=
  ∀ flags, obtained uRequestedEvents eOperation eFlags uTimeOutMsec deadline schedule = some flags →
    ∃ r, osaEventRetrieve uRequestedEvents eOperation eFlags uTimeOutMsec deadline schedule
        = some r ∧
      r.eFlags = remaining uRequestedEvents eOperation flags ∧
      ∀ uOtherEvents eOther, uRequestedEvents &&& uOtherEvents = 0 →
        (Satisfied r.eFlags uOtherEvents eOther ↔ Satisfied flags uOtherEvents eOther)

end Retrieve

/-! ## What a call leaves behind -/

section Leaves
variable {eFlags flags uRequestedEvents uTimeOutMsec : BitVec 32} {eOperation : EventOperation}
  {deadline : ℕ} {schedule : List (List SetCall)}

lemma find?_satisfied (tested : List (BitVec 32)) :
    (flags :: tested).find? (fun flags => Satisfied flags uRequestedEvents eOperation) =
      if Satisfied flags uRequestedEvents eOperation then some flags
      else tested.find? fun flags => Satisfied flags uRequestedEvents eOperation := by
  rw [List.find?_cons]
  by_cases hsat : Satisfied flags uRequestedEvents eOperation
  · rw [if_pos hsat, decide_eq_true hsat]
  · rw [if_neg hsat, decide_eq_false hsat]

/-- The first test that succeeds is the next one, or one of those after it. -/
lemma find?_tested_cases {sets : List SetCall} (h : (tested eFlags (sets :: schedule)).find?
      (fun flags => Satisfied flags uRequestedEvents eOperation) = some flags) :
    Satisfied (setAll eFlags sets) uRequestedEvents eOperation ∧ setAll eFlags sets = flags ∨
      ¬ Satisfied (setAll eFlags sets) uRequestedEvents eOperation ∧
        (tested (setAll eFlags sets) schedule).find?
          (fun flags => Satisfied flags uRequestedEvents eOperation) = some flags := by
  unfold tested at h
  rw [find?_satisfied] at h
  by_cases hsat : Satisfied (setAll eFlags sets) uRequestedEvents eOperation
  · rw [if_pos hsat, Option.some.injEq] at h
    exact .inl ⟨hsat, h⟩
  · rw [if_neg hsat] at h
    exact .inr ⟨hsat, h⟩

/-- A suspended call ends at the first test that succeeds. -/
lemma suspended_obtained (h : (tested eFlags schedule).find?
      (fun flags => Satisfied flags uRequestedEvents eOperation) = some flags) :
    suspended uRequestedEvents eOperation eFlags schedule =
      some ⟨osaSok, some flags, consume flags eOperation⟩ := by
  induction schedule generalizing eFlags with
  | nil => cases h
  | cons sets schedule ih =>
    unfold suspended
    dsimp only
    rcases find?_tested_cases h with ⟨hsat, rfl⟩ | ⟨hsat, hlater⟩
    · rw [if_pos hsat]
    · rw [if_neg hsat]
      exact ih hlater

/-- So does a call with a timeout, if that comes before its deadline. -/
lemma timed_obtained (h : (tested eFlags (schedule.take deadline)).find?
      (fun flags => Satisfied flags uRequestedEvents eOperation) = some flags) :
    timed uRequestedEvents eOperation eFlags deadline schedule =
      ⟨osaEfail, none, consume flags eOperation⟩ := by
  induction schedule generalizing eFlags deadline with
  | nil =>
    rw [List.take_nil] at h
    cases h
  | cons sets schedule ih =>
    cases deadline with
    | zero => cases h
    | succ deadline =>
      rw [List.take_succ_cons] at h
      unfold timed
      dsimp only
      rcases find?_tested_cases h with ⟨hsat, rfl⟩ | ⟨hsat, hlater⟩
      · rw [if_pos hsat]
      · rw [if_neg hsat]
        exact ih hlater

/-- A call that obtains its combination returns, and has consumed the flags that it was tested
on. -/
lemma retrieve_obtained
    (h : obtained uRequestedEvents eOperation eFlags uTimeOutMsec deadline schedule = some flags) :
    ∃ r, osaEventRetrieve uRequestedEvents eOperation eFlags uTimeOutMsec deadline schedule
        = some r ∧
      r.eFlags = consume flags eOperation := by
  unfold obtained at h
  rw [find?_satisfied] at h
  unfold osaEventRetrieve
  by_cases hsat : Satisfied eFlags uRequestedEvents eOperation
  · rw [if_pos hsat, Option.some.injEq] at h
    rw [if_pos hsat, h]
    exact ⟨_, rfl, rfl⟩
  · rw [if_neg hsat] at h
    unfold waits at h
    rw [if_neg hsat]
    split_ifs at h ⊢ with hno hsuspend
    · cases h
    · exact ⟨_, suspended_obtained h, rfl⟩
    · exact ⟨_, congrArg some (timed_obtained h), rfl⟩

/-- Clearing a mask does not touch the events of a disjoint one. -/
lemma and_not_and (uOtherEvents : BitVec 32) (hdisjoint : uRequestedEvents &&& uOtherEvents = 0) :
    flags &&& ~~~uRequestedEvents &&& uOtherEvents = flags &&& uOtherEvents := by
  apply BitVec.eq_of_getElem_eq
  intro i hi
  have hbit : (uRequestedEvents &&& uOtherEvents)[i] = false := by
    rw [hdisjoint]
    simp
  rw [BitVec.getElem_and, Bool.and_eq_false_iff] at hbit
  simp only [BitVec.getElem_and, BitVec.getElem_not]
  rcases hbit with hmask | hother
  · rw [hmask, Bool.not_false, Bool.and_true]
  · rw [hother, Bool.and_false, Bool.and_false]

/-- A request for other events is not affected by what `remaining` takes. -/
lemma satisfied_remaining_iff (uOtherEvents : BitVec 32) (eOther : EventOperation)
    (hdisjoint : uRequestedEvents &&& uOtherEvents = 0) :
    Satisfied (remaining uRequestedEvents eOperation flags) uOtherEvents eOther ↔
      Satisfied flags uOtherEvents eOther := by
  unfold remaining
  cases consumes eOperation with
  | true =>
    rw [if_pos rfl]
    unfold Satisfied isolatedFlags
    rw [and_not_and uOtherEvents hdisjoint]
  | false => exact Iff.rfl

/-- **Exactly when a retrieve leaves the other events alone.** For all flags, masks and operations,
with any timeout and any schedule of set calls: it does not consume, or no event outside the mask is
set where it finds its combination. -/
theorem leavesOthers_iff (uRequestedEvents : BitVec 32) (eOperation : EventOperation)
    (eFlags uTimeOutMsec : BitVec 32) (deadline : ℕ) (schedule : List (List SetCall)) :
    LeavesOthers uRequestedEvents eOperation eFlags uTimeOutMsec deadline schedule ↔
      (consumes eOperation = true → ∀ flags,
        obtained uRequestedEvents eOperation eFlags uTimeOutMsec deadline schedule = some flags →
          flags &&& ~~~uRequestedEvents = 0) := by
  constructor
  · intro h hconsumes flags hflags
    obtain ⟨r, hr, hleft, -⟩ := h flags hflags
    obtain ⟨r', hr', hconsumed⟩ := retrieve_obtained hflags
    obtain rfl := Option.some.inj (hr.symm.trans hr')
    rw [hconsumed] at hleft
    unfold consume remaining at hleft
    rw [if_pos hconsumes, if_pos hconsumes] at hleft
    exact hleft.symm
  · intro h flags hflags
    obtain ⟨r, hr, hconsumed⟩ := retrieve_obtained hflags
    have hleft : r.eFlags = remaining uRequestedEvents eOperation flags := by
      rw [hconsumed]
      unfold consume remaining
      cases hconsumes : consumes eOperation with
      | true => exact (h hconsumes flags hflags).symm
      | false => rfl
    refine ⟨r, hr, hleft, fun uOtherEvents eOther hdisjoint => ?_⟩
    rw [hleft]
    exact satisfied_remaining_iff uOtherEvents eOther hdisjoint

/-- One task takes its event, and the event of another is gone with it. -/
theorem other_event_taken : ¬ LeavesOthers 1 .orConsume 3 osaNoSuspend 0 [] := by
  intro h
  obtain ⟨r, hr, hleft, -⟩ := h 3 (by decide)
  have htaken : osaEventRetrieve 1 .orConsume 3 osaNoSuspend 0 [] = some ⟨osaSok, some 3, 0⟩ := by
    decide
  obtain rfl := Option.some.inj (htaken.symm.trans hr)
  exact absurd hleft (by decide)

end Leaves

end IpncRdk.OsaEvent
