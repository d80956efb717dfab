import IpncRdk.KeyChkThr.Polls

/-!
# The device that turns itself off

`timeOut` is meant to count the passes without a key pressed, but every pass that finds a key
released clears it, so it counts those with both keys held.

* `IdleOff` — 1402 idle polls turn the device off, and `timeOut` turns off no device in use;
* `heldTogether` — what `timeOut` counts instead;
* `idleOff_iff` — exactly the sequences of polls for which the device behaves so.
-/

namespace IpncRdk.KeyChkThr

open Lib

/-- No key is pressed. -/
def Poll.idle (p : Poll) : Bool := !p.systemKeyHigh && !p.wpsKeyLow

/-- The action calls `power_Off`. -/
def Act.powersOff : Act → Bool
  | .long .power | .timedOut => true
  | _ => false

/-- `power_Off` is called in each window of 1402 idle polls that a poll completes. -/
def PowersOff (earlier : List Poll) (p : Poll) : Prop :=
  ∀ window before, p :: earlier = window ++ before → window.length = 1402 →
    (∀ q ∈ window, q.idle = true) →
    ∃ newer q older, window = newer ++ q :: older ∧
      ∃ a ∈ acts (older ++ before) q, a.powersOff = true

/-- `timeOut` calls `power_Off` when no key was pressed in the last 1400 polls. -/
def TimesOutIdle (earlier : List Poll) (p : Poll) : Prop :=
  .timedOut ∈ acts earlier p → ∀ q ∈ (p :: earlier).take 1400, q.idle = true

structure IdleOff (earlier : List Poll) (p : Poll) : Prop where
  powersOff : PowersOff earlier p
  timesOut : TimesOutIdle earlier p

/-- A window of 1402 idle polls comes right behind a long press of the power key. -/
def BehindLongPress (earlier : List Poll) (p : Poll) : Prop :=
  ∀ window before, p :: earlier = window ++ before → window.length = 1402 →
    (∀ q ∈ window, q.idle = true) → 30 ≤ wrap32 (held .power before)

/-- For how many polls both keys have been held, and one more if they have not always been. -/
def heldTogether (earlier : List Poll) : ℕ :=
  (earlier.takeWhile Poll.bothHeld).length + if earlier.all Poll.bothHeld then 0 else 1

structure SparesTimeOut (earlier : List Poll) (p : Poll) : Prop where
  behind : BehindLongPress earlier p
  together : p.bothHeld = true → heldTogether earlier ≤ 1400

/-! ## The actions that turn the device off -/

section PowerOff
variable {earlier before window : List Poll} {p q : Poll}

lemma not_pressed_of_idle (h : p.idle = true) (key : Key) : p.pressed key = false := by
  unfold Poll.idle at h
  rw [Bool.and_eq_true, Bool.not_eq_true', Bool.not_eq_true'] at h
  cases key with
  | power => exact h.1
  | wps => exact h.2

lemma not_bothHeld_of_idle (h : p.idle = true) : p.bothHeld = false := by
  have hhigh : p.systemKeyHigh = false := not_pressed_of_idle h .power
  unfold Poll.bothHeld
  rw [hhigh, Bool.false_and]

lemma timedOut_mem_iff : .timedOut ∈ acts earlier p ↔
    p.bothHeld = true ∧ 1400 < (counters earlier).timeOut := by
  have hnot : ∀ (key : Key) (n : ℤ), .timedOut ∉ if p.pressed key then [] else key.release n := by
    intro key n hmem
    split at hmem
    · cases hmem
    · rcases mem_release hmem with h | h <;> cases h
  rw [acts_eq, List.mem_append, List.mem_append, or_iff_right fun h => h.elim (hnot _ _) (hnot _ _)]
  generalize (counters earlier).timeOut = timeOut
  cases p.bothHeld with
  | true =>
    by_cases hlong : timeOut > 1400
    · simp [hlong]
    · simp [hlong]
  | false => simp

lemma long_power_mem_iff : .long .power ∈ acts earlier p ↔
    p.pressed .power = false ∧ 30 ≤ (counters earlier).count .power := by
  have hfilter := filter_acts .power earlier p
  have hmem : Act.long .power ∈ acts earlier p ↔
      .long .power ∈ (acts earlier p).filter (Act.isOf .power) := by
    rw [List.mem_filter]
    exact (and_iff_left rfl).symm
  rw [hmem, hfilter]
  generalize (counters earlier).count .power = cnt
  unfold Key.release
  cases p.pressed .power with
  | true => simp
  | false =>
    by_cases hshort : 5 < cnt ∧ cnt < 30
    · have hlow : ¬ 30 ≤ cnt := by omega
      simp [hshort, hlow]
    · by_cases hlong : 30 ≤ cnt
      · simp [hlong, hlong.not_gt]
      · simp [hshort, hlong]

/-- An idle poll turns the device off if it ends a long press. -/
lemma powersOff_idle_iff (h : q.idle = true) : (∃ a ∈ acts earlier q, a.powersOff = true) ↔
    30 ≤ wrap32 (held .power earlier) := by
  have hreleased := not_pressed_of_idle h .power
  rw [← count_eq]
  constructor
  · rintro ⟨a, ha, hoff⟩
    cases a with
    | short key => cases hoff
    | long key =>
      cases key with
      | power => exact (long_power_mem_iff.mp ha).2
      | wps => cases hoff
    | timedOut =>
      have hboth := (timedOut_mem_iff.mp ha).1
      rw [not_bothHeld_of_idle h] at hboth
      cases hboth
  · intro hlong
    exact ⟨.long .power, long_power_mem_iff.mpr ⟨hreleased, hlong⟩, rfl⟩

lemma held_idle_cons (h : q.idle = true) (key : Key) : held key (q :: before) = 0 := by
  rw [held_cons, not_pressed_of_idle h key, if_neg Bool.false_ne_true]

/-- Within a window only the first poll can end a press. -/
lemma powersOff_iff : PowersOff earlier p ↔ BehindLongPress earlier p := by
  refine forall₂_congr fun window before => imp_congr_right fun _ =>
    imp_congr_right fun hlen => imp_congr_right fun hidle => ?_
  constructor
  · rintro ⟨newer, q, older, rfl, hoff⟩
    have hq := hidle q (List.mem_append_right newer List.mem_cons_self)
    have hlong := (powersOff_idle_iff hq).mp hoff
    cases older with
    | nil => exact hlong
    | cons r older =>
      -- the poll before was idle too
      have hr := hidle r (List.mem_append_right newer
        (List.mem_cons_of_mem q List.mem_cons_self))
      rw [List.cons_append, held_idle_cons hr .power, Nat.cast_zero, wrap32_zero] at hlong
      exact absurd hlong (by decide)
  · intro hlong
    have hne : window ≠ [] := List.ne_nil_of_length_pos (by omega)
    have hlast := hidle _ (List.getLast_mem hne)
    exact ⟨window.dropLast, window.getLast hne, [], (List.dropLast_append_getLast hne).symm,
      (powersOff_idle_iff hlast).mpr hlong⟩

/-- A poll with both keys held is not idle, so `timeOut` has to stay below its limit. -/
lemma timesOutIdle_iff : TimesOutIdle earlier p ↔
    (p.bothHeld = true → (counters earlier).timeOut ≤ 1400) := by
  unfold TimesOutIdle
  rw [timedOut_mem_iff]
  constructor
  · intro h hboth
    by_contra hlong
    have hp : p ∈ (p :: earlier).take 1400 := by
      rw [List.take_succ_cons]
      exact List.mem_cons_self
    have hidle := h ⟨hboth, by omega⟩ p hp
    rw [not_bothHeld_of_idle hidle] at hboth
    cases hboth
  · rintro h ⟨hboth, hlong⟩
    have hle := h hboth
    omega

/-! ## What `timeOut` counts -/

lemma heldTogether_cons (p : Poll) (earlier : List Poll) : heldTogether (p :: earlier) =
    if p.bothHeld then heldTogether earlier + 1 else 1 := by
  unfold heldTogether
  rw [List.takeWhile_cons, List.all_cons]
  cases p.bothHeld with
  | true =>
    rw [if_pos rfl, if_pos rfl, Bool.true_and, List.length_cons]
    omega
  | false => rfl

/-- While it is spared, `timeOut` counts the polls with both keys held. -/
lemma timeOut_eq_cons (h : (counters earlier).timeOut = heldTogether earlier)
    (htogether : p.bothHeld = true → heldTogether earlier ≤ 1400) :
    (counters (p :: earlier)).timeOut = heldTogether (p :: earlier) := by
  rw [timeOut_cons, heldTogether_cons, h]
  cases hboth : p.bothHeld with
  | true =>
    have hle := htogether hboth
    rw [if_pos rfl, if_pos rfl, wrap32_of_bounds (by omega) (by omega), Nat.cast_succ]
  | false =>
    rw [if_neg Bool.false_ne_true, if_neg Bool.false_ne_true, zero_add, Nat.cast_one]
    exact wrap32_of_bounds (by decide) (by decide)

/-- **Exactly when idling turns the device off, and use does not.** For every sequence of polls:
every window of 1402 idle polls comes right behind a long press of the power key, and the two keys
are never held together for long enough to let `timeOut` reach its limit. -/
theorem idleOff_iff (polls : List Poll) :
    EveryStep poll IdleOff [] polls ↔ EveryStep poll SparesTimeOut [] polls := by
  apply everyStep_iff_of_invariant
    (I := fun earlier => (counters earlier).timeOut = heldTogether earlier)
  · intro earlier p hI
    have htimes : TimesOutIdle earlier p ↔ (p.bothHeld = true → heldTogether earlier ≤ 1400) := by
      rw [timesOutIdle_iff, hI]
      exact imp_congr_right fun _ => by omega
    constructor
    · rintro ⟨hoff, htime⟩
      exact ⟨powersOff_iff.mp hoff, htimes.mp htime⟩
    · rintro ⟨hbehind, htogether⟩
      exact ⟨powersOff_iff.mpr hbehind, htimes.mpr htogether⟩
  · intro earlier p earlier' hI hspares hstep
    obtain rfl := Option.some.inj hstep
    exact timeOut_eq_cons hI hspares.together
  · rfl

/-- Nobody touches the device after its start, and it stays on. -/
theorem idle_not_off : ¬ EveryStep poll IdleOff [] (List.replicate 1402 ⟨false, false⟩) := by
  intro h
  have hrun := run_poll [] (List.replicate 1401 ⟨false, false⟩)
  rw [List.reverse_replicate, List.append_nil] at hrun
  have hsplit : List.replicate 1402 (⟨false, false⟩ : Poll) =
      List.replicate 1401 ⟨false, false⟩ ++ ⟨false, false⟩ :: [] := List.replicate_succ'
  have hoff := (everyStep_iff_forall.mp h _ _ [] _ hsplit hrun).powersOff
  have hlong := powersOff_iff.mp hoff (List.replicate 1402 ⟨false, false⟩) []
    (List.append_nil _).symm List.length_replicate fun q hq => by
      rw [List.eq_of_mem_replicate hq]
      rfl
  rw [held_nil, Nat.cast_zero, wrap32_zero] at hlong
  exact absurd hlong (by decide)

end PowerOff

end IpncRdk.KeyChkThr
