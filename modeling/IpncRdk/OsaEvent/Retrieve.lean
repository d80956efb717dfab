import IpncRdk.OsaEvent.Event

/-!
# The three ways to wait

* `suspended_spec` — a suspended call ends with `OSA_SOK` and flags stored;
* `timed_spec` — a call with a timeout, once it has waited, ends with `OSA_EFAIL` or with nothing;
* `timed_agrees_iff` — the two agree exactly where there is nothing to wait for.
-/

namespace IpncRdk.OsaEvent

variable {eFlags uRequestedEvents : BitVec 32} {eOperation : EventOperation}

/-- A suspended call that returns stores flags that satisfy it. -/
lemma suspended_spec {schedule : List (List SetCall)} {r : Retrieved}
    (h : suspended uRequestedEvents eOperation eFlags schedule = some r) :
    r.status = osaSok ∧ ∃ flags, r.pRetrievedEvents = some flags ∧
      Satisfied flags uRequestedEvents eOperation := by
  induction schedule generalizing eFlags with
  | nil => simp [suspended] at h
  | cons sets schedule ih =>
    unfold suspended at h
    by_cases hsat : Satisfied (setAll eFlags sets) uRequestedEvents eOperation
    · rw [if_pos hsat, Option.some.injEq] at h
      rw [← h]
      exact ⟨rfl, _, rfl, hsat⟩
    · rw [if_neg hsat] at h
      exact ih h

/-- A call with a timeout that waits fails, or reports that no flag came. -/
lemma timed_spec (deadline : ℕ) (schedule : List (List SetCall)) :
    (timed uRequestedEvents eOperation eFlags deadline schedule).status = osaEfail ∨
      (timed uRequestedEvents eOperation eFlags deadline schedule).pRetrievedEvents = some 0 := by
  induction schedule generalizing eFlags deadline with
  | nil => exact .inr (by cases deadline <;> rfl)
  | cons sets schedule ih =>
    cases deadline with
    | zero => exact .inr rfl
    | succ deadline =>
      unfold timed
      by_cases hsat : Satisfied (setAll eFlags sets) uRequestedEvents eOperation
      · rw [if_pos hsat]
        exact .inl rfl
      · rw [if_neg hsat]
        exact ih deadline

section Agree
variable {uTimeOutMsec : BitVec 32}

lemma retrieve_at_once (h : Satisfied eFlags uRequestedEvents eOperation) (deadline : ℕ)
    (schedule : List (List SetCall)) :
    osaEventRetrieve uRequestedEvents eOperation eFlags uTimeOutMsec deadline schedule
      = some ⟨osaSok, some eFlags, consume eFlags eOperation⟩ := by
  unfold osaEventRetrieve
  rw [if_pos h]

/-- A call that may not suspend, or has a timeout, ends in one of the two ways of `timed_spec`. -/
lemma retrieve_finite (h : ¬ Satisfied eFlags uRequestedEvents eOperation)
    (hfinite : uTimeOutMsec ≠ osaSuspend) (deadline : ℕ) (schedule : List (List SetCall)) :
    ∃ r, osaEventRetrieve uRequestedEvents eOperation eFlags uTimeOutMsec deadline schedule
      = some r ∧ (r.status = osaEfail ∨ r.pRetrievedEvents = some 0) := by
  unfold osaEventRetrieve
  rw [if_neg h]
  by_cases hno : uTimeOutMsec = osaNoSuspend
  · rw [if_pos hno]
    exact ⟨_, rfl, .inr rfl⟩
  · rw [if_neg hno, if_neg hfinite]
    exact ⟨_, rfl, timed_spec deadline schedule⟩

lemma retrieve_suspend (h : ¬ Satisfied eFlags uRequestedEvents eOperation) (deadline : ℕ)
    (schedule : List (List SetCall)) :
    osaEventRetrieve uRequestedEvents eOperation eFlags osaSuspend deadline schedule
      = suspended uRequestedEvents eOperation eFlags schedule := by
  unfold osaEventRetrieve
  rw [if_neg h, if_neg (by decide), if_pos rfl]

/-- **Exactly when the timed and the untimed retrieve agree.** For all flags, masks and
operations, every finite timeout and every schedule of set calls: the call with the timeout has
the status, the stored value and the flags of the call with `OSA_SUSPEND` if and only if the
requested combination is there at the call. -/
theorem timed_agrees_iff (eFlags uRequestedEvents : BitVec 32) (eOperation : EventOperation)
    (hfinite : uTimeOutMsec ≠ osaSuspend) (deadline : ℕ) (schedule : List (List SetCall)) :
    osaEventRetrieve uRequestedEvents eOperation eFlags uTimeOutMsec deadline schedule
        = osaEventRetrieve uRequestedEvents eOperation eFlags osaSuspend deadline schedule ↔
      Satisfied eFlags uRequestedEvents eOperation := by
  constructor
  · intro hagree
    by_contra h
    obtain ⟨r, hr, hbad⟩ := retrieve_finite h hfinite deadline schedule
    rw [hr, retrieve_suspend h] at hagree
    obtain ⟨hstatus, flags, hstored, hsat⟩ := suspended_spec hagree.symm
    rcases hbad with hfail | hzero
    · rw [hstatus] at hfail
      exact absurd hfail (by decide)
    · have hflags : flags ≠ 0 := ne_zero_of_satisfied (fun h₀ => h (satisfied_of_zero h₀)) hsat
      rw [hstored, Option.some.injEq] at hzero
      exact hflags hzero
  · intro h
    rw [retrieve_at_once h, retrieve_at_once h]

/-- One wait for one flag. -/
theorem one_flag_agrees_iff :
    osaEventRetrieve 1 .orConsume 0 1000 5 [[⟨1, .or⟩]]
        = osaEventRetrieve 1 .orConsume 0 osaSuspend 5 [[⟨1, .or⟩]] ↔ Satisfied 0 1 .orConsume :=
  timed_agrees_iff 0 1 .orConsume (by decide) 5 [[⟨1, .or⟩]]

/-- A flag is set before the deadline: the suspended call reports it, the one with a timeout
fails, and both take it. -/
theorem flag_dropped :
    ¬ ∀ (eFlags uRequestedEvents : BitVec 32) (eOperation : EventOperation)
        (uTimeOutMsec : BitVec 32) (deadline : ℕ) (schedule : List (List SetCall)),
      uTimeOutMsec ≠ osaSuspend →
      (suspended uRequestedEvents eOperation eFlags (schedule.take deadline)).isSome →
      osaEventRetrieve uRequestedEvents eOperation eFlags uTimeOutMsec deadline schedule
        = osaEventRetrieve uRequestedEvents eOperation eFlags osaSuspend deadline schedule := by
  intro h
  have hagree := h 0 1 .orConsume 1000 5 [[⟨1, .or⟩]] (by decide) (by decide)
  have htimed : osaEventRetrieve 1 .orConsume 0 1000 5 [[⟨1, .or⟩]] = some ⟨osaEfail, none, 0⟩ := by
    decide
  have huntimed : osaEventRetrieve 1 .orConsume 0 osaSuspend 5 [[⟨1, .or⟩]]
      = some ⟨osaSok, some 1, 0⟩ := by decide
  rw [htimed, huntimed] at hagree
  exact absurd hagree (by decide)

end Agree

end IpncRdk.OsaEvent
