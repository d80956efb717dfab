import IpncRdk.SysCtrl.StateMachine

/-!
# The length of a check

A check that nobody stops: `execTask` sets the state to 0 and leaves the counters and the outputs
as the last check left them. From there on every second brings an invocation.

* `Check` — the machine and its outputs, with an account of the invocations;
* `remaining` — how many invocations a check needs at most;
* `CheckInv` — what one invocation preserves;
* `check_bounded` — the bounds, after any number of invocations.
-/

namespace IpncRdk.SysCtrl

namespace Uninterrupted

/-- What an invocation finds: the server link and `report.isValid`. -/
structure Reading where
  link : Bool
  isValid : Bool

/-- A check under way, with an account of its invocations, which are counted from 1 on. -/
structure Check where
  machine : Machine
  heat : Bool
  light : Bool
  invocations : ℕ
  /-- the invocations that called `start_heat`, one entry a call -/
  starts : List ℕ
  /-- the invocations that called `stop_heat` -/
  stops : List ℕ
  pictures : ℕ
  /-- an invocation has read the server link as up -/
  linkSeen : Bool
  /-- an invocation has set `retryCount` -/
  retrySet : Bool

/-- `state = 0`, with whatever counters and outputs there are. -/
def execTask (m : Machine) (heat light : Bool) : Check where
  machine := { m with state := 0 }
  heat := heat
  light := light
  invocations := 0
  starts := []
  stops := []
  pictures := 0
  linkSeen := false
  retrySet := false

/-- An invocation calls `getSysState` at the end of the countdown and while it retries. -/
def readsLink (m : Machine) : Bool := (m.state == 1 && m.heatCount == 1) || m.state == 3

/-- The branch at the end of the countdown that sets `retryCount`. -/
def setsRetry (m : Machine) (link : Bool) : Bool := m.state == 1 && m.heatCount == 1 && !link

/-- The account after an invocation. -/
def account (c : Check) (link : Bool) (r : Machine × List Action) : Check where
  machine := r.1
  heat := (lastWrite gpioHeatEn r.2).getD c.heat
  light := (lastWrite gpioFlashLightEn r.2).getD c.light
  invocations := c.invocations + 1
  starts := List.replicate (r.2.count startHeat) (c.invocations + 1) ++ c.starts
  stops := List.replicate (r.2.count stopHeat) (c.invocations + 1) ++ c.stops
  pictures := c.pictures + r.2.count .saveJpeg
  linkSeen := c.linkSeen || (readsLink c.machine && link)
  retrySet := c.retrySet || setsRetry c.machine link

/-- One invocation. -/
def invoke (c : Check) (reading : Reading) : Check :=
  account c reading.link (execTaskStateMachine reading.link reading.isValid c.machine)

/-- A check after a sequence of invocations. -/
def checkRun (c : Check) (readings : List Reading) : Check := readings.foldl invoke c

/-! ## The invariant -/

/-- A check in this state ends after at most so many invocations. -/
def remaining (m : Machine) : ℤ :=
  if m.state = 0 then 84
  else if m.state = 1 then m.heatCount + 33
  else if m.state = 2 then 3
  else if m.state = 3 then m.retryCount + 3
  else if m.state = 4 then 2
  else if m.state = 5 then 1
  else 0

/-- The state, its counters, and the number of invocations. -/
structure Ranked (m : Machine) (n : ℕ) : Prop where
  state : 0 ≤ m.state ∧ m.state ≤ 6
  begins : m.state = 0 ↔ n = 0
  rank : m.state = 6 ∨ n + remaining m ≤ 84
  /-- the countdown and the invocations make up 51 -/
  counting : m.state = 1 → 1 ≤ m.heatCount ∧ m.heatCount + n = 51
  counted : 2 ≤ m.state → m.heatCount = 0 ∧ 51 ≤ n
  retrying : m.state = 3 → 1 ≤ m.retryCount

/-- What an invocation preserves. -/
structure CheckInv (c : Check) : Prop where
  ranked : Ranked c.machine c.invocations
  unset : c.machine.state ≤ 1 → c.retrySet = false
  retryCount : c.retrySet = true → 0 ≤ c.machine.retryCount ∧ c.machine.retryCount ≤ 30
  heat : 0 < c.invocations → c.heat = decide (c.machine.state = 1)
  starts : c.starts = if 0 < c.invocations then [1] else []
  stops : c.stops = if 50 < c.invocations then [51] else []
  pictures : c.pictures = 0 ∨ (c.pictures = 1 ∧ 5 ≤ c.machine.state)
  picture : 0 < c.pictures → c.linkSeen = true
  checking : c.machine.state = 2 ∨ c.machine.state = 4 → c.linkSeen = true

section Step
variable {link isValid : Bool} {m : Machine} {r : Machine × List Action} {n : ℕ}

lemma remaining_pos (h : Ranked m n) (hne : m.state ≠ 6) : 1 ≤ remaining m := by
  obtain ⟨hlow, hhigh⟩ := h.state
  have hcount := h.counting
  have hretry := h.retrying
  unfold remaining
  split_ifs <;> omega

/-- Until it rests, every invocation brings a check nearer to its end. -/
lemma remaining_step (hb : Branch link isValid m r) (h : Ranked m n) (hne : m.state ≠ 6) :
    remaining r.1 + 1 ≤ remaining m := by
  have hcount := h.counting
  have hretry := h.retrying
  cases hb with
  | finishes h5 => simp [finish, remaining, h5]
  | rests hout =>
    obtain ⟨hlow, hhigh⟩ := h.state
    omega
  | _ =>
    simp only [remaining]
    split_ifs <;> omega

/-- **One invocation**, on the state and the counters. -/
lemma ranked_step (hb : Branch link isValid m r) (h : Ranked m n) : Ranked r.1 (n + 1) := by
  obtain ⟨hlow, hhigh⟩ := h.state
  have hbegins := h.begins
  have hcounting := h.counting
  have hcounted := h.counted
  have hretrying := h.retrying
  have hrank : r.1.state = 6 ∨ (n + 1 : ℕ) + remaining r.1 ≤ 84 := by
    by_cases hne : m.state = 6
    · exact Or.inl ((state_eq_six_iff hb).mpr (Or.inr hne))
    · have hstep := remaining_step hb h hne
      have hrank := h.rank.resolve_left hne
      exact Or.inr (by push_cast; omega)
  cases hb with
  | finishes h5 =>
    refine ⟨⟨?_, ?_⟩, ?_, hrank, ?_, ?_, ?_⟩ <;> simp only [finish] <;> omega
  | _ =>
    refine ⟨⟨?_, ?_⟩, ?_, hrank, ?_, ?_, ?_⟩ <;> simp only [true_and] <;> omega

/-- `start_heat` is called in state 0. -/
lemma count_startHeat (hb : Branch link isValid m r) :
    r.2.count startHeat = if m.state = 0 then 1 else 0 := by
  cases hb with
  | begins h =>
    rw [if_pos h]
    rfl
  | finishes h =>
    rw [if_neg (by omega)]
    cases isValid <;> rfl
  | _ =>
    rw [if_neg (by omega)]
    rfl

/-- `stop_heat` is called at the end of the countdown. -/
lemma count_stopHeat (hb : Branch link isValid m r) :
    r.2.count stopHeat = if m.state = 1 ∧ m.heatCount = 1 then 1 else 0 := by
  cases hb with
  | endsUp h hcount | endsDown h hcount =>
    rw [if_pos ⟨h, hcount⟩]
    rfl
  | finishes h =>
    rw [if_neg (by omega)]
    cases isValid <;> rfl
  | _ =>
    rw [if_neg (by omega)]
    rfl

/-- The picture is taken in state 4. -/
lemma count_saveJpeg (hb : Branch link isValid m r) :
    r.2.count .saveJpeg = if m.state = 4 then 1 else 0 := by
  cases hb with
  | uploads h =>
    rw [if_pos h]
    rfl
  | finishes h =>
    rw [if_neg (by omega)]
    cases isValid <;> rfl
  | _ =>
    rw [if_neg (by omega)]
    rfl

end Step

section Account
variable {c : Check} {link isValid : Bool} {r : Machine × List Action}

/-- The first invocation calls `start_heat`, and no other. -/
lemma starts_step (hb : Branch link isValid c.machine r) (hI : CheckInv c) :
    (account c link r).starts = [1] := by
  have hbegins := hI.ranked.begins
  unfold account
  simp only [count_startHeat hb, hI.starts]
  by_cases h0 : c.machine.state = 0
  · rw [if_pos h0, hbegins.mp h0]
    rfl
  · rw [if_neg h0, if_pos (by omega)]
    rfl

/-- Invocation 51 calls `stop_heat`, and no other. -/
lemma stops_step (hb : Branch link isValid c.machine r) (hI : CheckInv c) :
    (account c link r).stops = if 50 < c.invocations + 1 then [51] else [] := by
  have hbegins := hI.ranked.begins
  have hstate := hI.ranked.state
  have hcounting := hI.ranked.counting
  have hcounted := hI.ranked.counted
  unfold account
  simp only [count_stopHeat hb, hI.stops]
  by_cases hend : c.machine.state = 1 ∧ c.machine.heatCount = 1
  · have hn : c.invocations = 50 := by omega
    rw [if_pos hend, hn]
    rfl
  · rw [if_neg hend, List.replicate_zero, List.nil_append]
    congr 1
    rw [eq_iff_iff]
    omega

/-- The heater is on during the countdown. -/
lemma heat_step (hb : Branch link isValid c.machine r) (hI : CheckInv c) :
    (account c link r).heat = decide (r.1.state = 1) := by
  have hbegins := hI.ranked.begins
  show (lastWrite gpioHeatEn r.2).getD c.heat = _
  simp only [lastWrite_heat hb, state_eq_one_iff hb]
  by_cases h0 : c.machine.state = 0
  · simp [h0]
  · rw [if_neg h0]
    by_cases h1 : c.machine.state = 1
    · by_cases hend : c.machine.heatCount = 1
      · simp [h1, hend]
      · simp [h1, hend, hI.heat (by omega)]
    · simp [h0, h1, hI.heat (by omega)]

/-- `retryCount` is set at the end of the countdown. -/
lemma retrySet_step (hb : Branch link isValid c.machine r) (hI : CheckInv c)
    (h : r.1.state ≤ 1) : (account c link r).retrySet = false := by
  have hstate := hI.ranked.state
  have hnone : c.machine.state ≤ 1 ∧ ¬ (c.machine.state = 1 ∧ c.machine.heatCount = 1) := by
    cases hb with
    | finishes h5 => simp [finish] at h
    | _ =>
      simp only at h
      omega
  have hsets : setsRetry c.machine link = false := by
    unfold setsRetry
    simp only [Bool.and_eq_false_iff, beq_eq_false_iff_ne]
    tauto
  show (c.retrySet || setsRetry c.machine link) = false
  rw [hI.unset hnone.1, hsets]
  rfl

/-- From then on it stays within its bounds. -/
lemma retryCount_step (hb : Branch link isValid c.machine r) (hI : CheckInv c)
    (h : (account c link r).retrySet = true) : 0 ≤ r.1.retryCount ∧ r.1.retryCount ≤ 30 := by
  have hretrying := hI.ranked.retrying
  have hset : c.retrySet = true ∨ setsRetry c.machine link = true := (Bool.or_eq_true _ _).mp h
  simp only [setsRetry, Bool.and_eq_true, beq_iff_eq, Bool.not_eq_true'] at hset
  cases hb with
  | endsDown =>
    show (0 : ℤ) ≤ 30 ∧ (30 : ℤ) ≤ 30
    decide
  | endsUp _ _ hlink =>
    have hold := hset.resolve_right fun hset => by simp [hlink] at hset
    exact hI.retryCount hold
  | finishes h5 =>
    have hold := hset.resolve_right (by omega)
    exact hI.retryCount hold
  | _ =>
    have hold := hI.retryCount (hset.resolve_right (by omega))
    simp only
    omega

/-- The picture is the last step before the result. -/
lemma pictures_step (hb : Branch link isValid c.machine r) (hI : CheckInv c) :
    (account c link r).pictures = 0 ∨ ((account c link r).pictures = 1 ∧ 5 ≤ r.1.state) := by
  have hold := hI.pictures
  show c.pictures + r.2.count .saveJpeg = 0 ∨ (c.pictures + r.2.count .saveJpeg = 1 ∧ _)
  rw [count_saveJpeg hb]
  cases hb with
  | finishes h5 =>
    simp only [finish]
    split_ifs <;> omega
  | _ =>
    simp only
    split_ifs <;> omega

/-- No picture without a reading that found the link up. -/
lemma picture_step (hb : Branch link isValid c.machine r) (hI : CheckInv c)
    (h : 0 < (account c link r).pictures) : (account c link r).linkSeen = true := by
  have hpictures : 0 < c.pictures + r.2.count .saveJpeg := h
  rw [count_saveJpeg hb] at hpictures
  have hseen : c.linkSeen = true := by
    by_cases h4 : c.machine.state = 4
    · exact hI.checking (Or.inr h4)
    · exact hI.picture (by rwa [if_neg h4] at hpictures)
  show (c.linkSeen || _) = true
  rw [hseen, Bool.true_or]

/-- A check that goes on to the picture has found the link up. -/
lemma checking_step (hb : Branch link isValid c.machine r) (hI : CheckInv c)
    (h : r.1.state = 2 ∨ r.1.state = 4) : (account c link r).linkSeen = true := by
  show (c.linkSeen || (readsLink c.machine && link)) = true
  cases hb with
  | endsUp h1 hcount hlink => simp [readsLink, h1, hcount, hlink]
  | linkUp h3 hlink => simp [readsLink, h3, hlink]
  | checks h2 => rw [hI.checking (Or.inl h2), Bool.true_or]
  | finishes h5 => simp [finish] at h
  | rests hout =>
    simp only at h
    omega
  | _ =>
    simp only at h
    omega

/-- **One invocation** preserves the invariant. -/
lemma checkInv_step (hb : Branch link isValid c.machine r) (hI : CheckInv c) :
    CheckInv (account c link r) where
  ranked := ranked_step hb hI.ranked
  unset := retrySet_step hb hI
  retryCount := retryCount_step hb hI
  heat _ := heat_step hb hI
  starts := by
    rw [starts_step hb hI]
    rfl
  stops := stops_step hb hI
  pictures := pictures_step hb hI
  picture := picture_step hb hI
  checking := checking_step hb hI

end Account

/-! ## Whole checks -/

/-- What holds of a check after any number of its invocations. -/
structure Bounded (c : Check) : Prop where
  state : 0 ≤ c.machine.state ∧ c.machine.state ≤ 6
  ends : 84 ≤ c.invocations → c.machine.state = 6
  /-- the first invocation sets `heatCount` -/
  heatCount : 0 < c.invocations → 0 ≤ c.machine.heatCount ∧ c.machine.heatCount ≤ 50
  retryCount : c.retrySet = true → 0 ≤ c.machine.retryCount ∧ c.machine.retryCount ≤ 30
  starts : c.starts = if 0 < c.invocations then [1] else []
  stops : c.stops = if 50 < c.invocations then [51] else []
  heat : 0 < c.invocations → c.heat = decide (c.invocations ≤ 50)
  pictures : c.pictures ≤ 1
  picture : 0 < c.pictures → c.linkSeen = true

lemma CheckInv.bounded {c : Check} (h : CheckInv c) : Bounded c where
  state := h.ranked.state
  ends hn := by
    by_contra hne
    have hpos := remaining_pos h.ranked hne
    have hrank := h.ranked.rank.resolve_left hne
    omega
  heatCount hn := by
    have hstate := h.ranked.state
    have hbegins := h.ranked.begins
    have hcounting := h.ranked.counting
    have hcounted := h.ranked.counted
    omega
  retryCount := h.retryCount
  starts := h.starts
  stops := h.stops
  heat hn := by
    have hstate := h.ranked.state
    have hbegins := h.ranked.begins
    have hcounting := h.ranked.counting
    have hcounted := h.ranked.counted
    rw [h.heat hn, decide_eq_decide]
    omega
  pictures := by
    have hpictures := h.pictures
    omega
  picture := h.picture

lemma checkInv_execTask (m : Machine) (heat light : Bool) : CheckInv (execTask m heat light) where
  ranked :=
    { state := show (0 : ℤ) ≤ 0 ∧ (0 : ℤ) ≤ 6 by decide
      begins := iff_of_true rfl rfl
      rank := Or.inr (show (0 : ℤ) + 84 ≤ 84 by decide)
      counting := nofun
      counted := nofun
      retrying := nofun }
  unset _ := rfl
  retryCount := nofun
  heat := nofun
  starts := rfl
  stops := rfl
  pictures := Or.inl rfl
  picture := nofun
  checking := nofun

lemma checkInv_run {c : Check} (h : CheckInv c) (readings : List Reading) :
    CheckInv (checkRun c readings) := by
  induction readings generalizing c with
  | nil => exact h
  | cons reading readings ih => exact ih (checkInv_step (execTaskStateMachine_branch _ _ _) h)

lemma invocations_run (c : Check) (readings : List Reading) :
    (checkRun c readings).invocations = c.invocations + readings.length := by
  induction readings generalizing c with
  | nil => rfl
  | cons reading readings ih =>
    show (checkRun (invoke c reading) readings).invocations = _
    rw [ih, List.length_cons]
    show c.invocations + 1 + _ = _
    omega

/-- State 6 is the last. -/
lemma state_six_run {c : Check} (h : c.machine.state = 6) (readings : List Reading) :
    (checkRun c readings).machine.state = 6 := by
  induction readings generalizing c with
  | nil => exact h
  | cons reading readings ih =>
    exact ih ((state_eq_six_iff (execTaskStateMachine_branch _ _ _)).mpr (Or.inr h))

/-- **The bounds of a check.** Whatever an earlier check has left in the counters and at the
outputs, and whatever the invocations read: the bounds hold after any number of them, and a check
in state 6 stays there. -/
theorem check_bounded (m : Machine) (heat light : Bool) (readings later : List Reading) :
    Bounded (checkRun (execTask m heat light) readings) ∧
      (checkRun (execTask m heat light) readings).invocations = readings.length ∧
      ((checkRun (execTask m heat light) readings).machine.state = 6 →
        (checkRun (execTask m heat light) (readings ++ later)).machine.state = 6) := by
  refine ⟨(checkInv_run (checkInv_execTask m heat light) readings).bounded, ?_, fun h6 => ?_⟩
  · rw [invocations_run]
    exact Nat.zero_add _
  · have hrun := state_six_run h6 later
    unfold checkRun at hrun ⊢
    rwa [List.foldl_append]

end Uninterrupted

end IpncRdk.SysCtrl
