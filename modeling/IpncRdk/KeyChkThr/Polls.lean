import IpncRdk.KeyChkThr.Keys
import IpncRdk.Lib.Run

/-!
# `keyChkThr.c`: the polls of the keys

Every pass of the loop reads both keys once. It counts how long each is held, and what it does is
decided when a key is released. A history is the list of the polls so far, the latest first.

* `pass` — one pass of the loop, with the actions it leads to;
* `follows_passes` — the steps of the key thread count as these passes do;
* `acts_eq` — the actions of a pass, by its counters;
* `held` — for how many polls a key has been held;
* `Decodes` — a release leads to the action of the number of polls held, and nothing else does;
* `decodes_iff` — exactly the histories whose presses the counters can count.
-/

namespace IpncRdk.KeyChkThr

open Lib

/-! ## The loop -/

/-- What a pass reads: `GPIO_SYSTEM_KEY` is high, `GPIO_SYS_KEY_WPS` is low. -/
structure Poll where
  systemKeyHigh : Bool
  wpsKeyLow : Bool
  deriving DecidableEq, Repr

/-- One pass of the loop. -/
def pass (p : Poll) (c : Counters) : Counters × List Act :=
  let power := handlePower (readPower p.systemKeyHigh c)
  let wps := readWps p.wpsKeyLow power.1
  let time := countTimeOut wps.1
  (time.1, power.2 ++ wps.2 ++ time.2)

/-- The counters after a history. -/
def counters : List Poll → Counters
  | [] => .start
  | p :: earlier => (pass p (counters earlier)).1

/-- The actions of a pass. -/
def acts (earlier : List Poll) (p : Poll) : List Act := (pass p (counters earlier)).2

def poll (earlier : List Poll) (p : Poll) : Option (List Poll) := some (p :: earlier)

/-! ## A pass by its counters -/

/-- What a release leads to, by the count of the key. -/
def Key.release : Key → ℤ → List Act
  | .power, cnt => if 5 < cnt ∧ cnt < 30 then [.short .power]
      else if 30 ≤ cnt then [.long .power] else []
  | .wps, cnt2 => if 5 < cnt2 ∧ cnt2 ≤ 30 then [.short .wps]
      else if 50 < cnt2 then [.long .wps] else []

def Poll.pressed (p : Poll) : Key → Bool
  | .power => p.systemKeyHigh
  | .wps => p.wpsKeyLow

def Counters.count (c : Counters) : Key → ℤ
  | .power => c.cnt
  | .wps => c.cnt2

/-- `timeOut` is kept while both keys are held. -/
def Poll.bothHeld (p : Poll) : Bool := p.systemKeyHigh && p.wpsKeyLow

section Pass
variable {earlier : List Poll} {p : Poll} {key : Key}

/-- What a pass leaves in the counters. -/
lemma pass_fst (p : Poll) (c : Counters) : (pass p c).1 =
      { cnt := if p.systemKeyHigh then wrap32 (c.cnt + 1) else 0
        cnt2 := if p.wpsKeyLow then wrap32 (c.cnt2 + 1) else 0
        timeOut := wrap32 ((if p.bothHeld then c.timeOut else 0) + 1)
        isShortPress := false
        isLongPress := false } := by
  obtain ⟨high, low⟩ := p
  cases high <;> cases low <;> rfl

/-- The actions of a pass. -/
lemma pass_snd {c : Counters} (hshort : c.isShortPress = false) (hlong : c.isLongPress = false) :
    (pass p c).2 =
      (if p.systemKeyHigh then [] else Key.power.release c.cnt) ++
        (if p.wpsKeyLow then [] else Key.wps.release c.cnt2) ++
        if (if p.bothHeld then c.timeOut else 0) > 1400 then [.timedOut] else [] := by
  have hpower : (handlePower (readPower p.systemKeyHigh c)).2 =
      if p.systemKeyHigh then [] else Key.power.release c.cnt := by
    cases p.systemKeyHigh with
    | true => simp [handlePower, readPower, hshort, hlong]
    | false =>
      simp only [handlePower, readPower, hshort, hlong, Key.release, Bool.false_or,
        Bool.false_eq_true, if_false, decide_eq_true_eq]
      by_cases hcnt : 5 < c.cnt ∧ c.cnt < 30
      · simp [hcnt]
      · simp [hcnt]
  have hwps : (readWps p.wpsKeyLow (handlePower (readPower p.systemKeyHigh c)).1).2 =
      if p.wpsKeyLow then [] else Key.wps.release c.cnt2 := by
    obtain ⟨high, low⟩ := p
    cases high <;> cases low <;> rfl
  have htime : (readWps p.wpsKeyLow (handlePower (readPower p.systemKeyHigh c)).1).1.timeOut =
      if p.bothHeld then c.timeOut else 0 := by
    obtain ⟨high, low⟩ := p
    cases high <;> cases low <;> rfl
  unfold pass countTimeOut
  dsimp only
  rw [hpower, hwps, htime]

/-- Between two passes no flag is set. -/
lemma flags_counters (earlier : List Poll) :
    (counters earlier).isShortPress = false ∧ (counters earlier).isLongPress = false := by
  cases earlier with
  | nil => exact ⟨rfl, rfl⟩
  | cons p earlier =>
    rw [counters, pass_fst]
    exact ⟨rfl, rfl⟩

lemma count_cons (key : Key) (p : Poll) (earlier : List Poll) :
    (counters (p :: earlier)).count key =
      if p.pressed key then wrap32 ((counters earlier).count key + 1) else 0 := by
  rw [counters, pass_fst]
  cases key <;> rfl

lemma timeOut_cons (p : Poll) (earlier : List Poll) : (counters (p :: earlier)).timeOut =
    wrap32 ((if p.bothHeld then (counters earlier).timeOut else 0) + 1) := by
  rw [counters, pass_fst]

lemma acts_eq (earlier : List Poll) (p : Poll) : acts earlier p =
    (if p.pressed .power then [] else Key.power.release ((counters earlier).count .power)) ++
      (if p.pressed .wps then [] else Key.wps.release ((counters earlier).count .wps)) ++
      if (if p.bothHeld then (counters earlier).timeOut else 0) > 1400 then [.timedOut]
      else [] := by
  obtain ⟨hshort, hlong⟩ := flags_counters earlier
  exact pass_snd hshort hlong

/-- An action of a key comes with its release. -/
lemma mem_release {key : Key} {n : ℤ} {a : Act} (h : a ∈ key.release n) :
    a = .short key ∨ a = .long key := by
  unfold Key.release at h
  cases key with
  | power =>
    dsimp only at h
    split_ifs at h
    · exact Or.inl (List.mem_singleton.mp h)
    · exact Or.inr (List.mem_singleton.mp h)
    · cases h
  | wps =>
    dsimp only at h
    split_ifs at h
    · exact Or.inl (List.mem_singleton.mp h)
    · exact Or.inr (List.mem_singleton.mp h)
    · cases h

end Pass

/-! ## What a release should lead to -/

/-- For how many polls a key has been held. -/
def held (key : Key) (earlier : List Poll) : ℕ := (earlier.takeWhile (·.pressed key)).length

/-- The action for a press of `n` polls. -/
def Key.action : Key → ℕ → List Act
  | .power, n => if n ≤ 5 then [] else if n ≤ 29 then [.short .power] else [.long .power]
  | .wps, n => if n ≤ 5 then [] else if n ≤ 30 then [.short .wps]
      else if n ≤ 50 then [] else [.long .wps]

/-- From how many polls on a press is long. -/
def Key.longPress : Key → ℕ
  | .power => 30
  | .wps => 51

def Act.isOf (key : Key) : Act → Bool
  | .short k | .long k => k == key
  | .timedOut => false

/-- A pass leads to the action of each key that is released, and to none of a key that is held. -/
def Decodes (earlier : List Poll) (p : Poll) : Prop :=
  ∀ key, (acts earlier p).filter (Act.isOf key) =
    if p.pressed key then [] else key.action (held key earlier)

/-- The count of a long press that ends is that of a long press. -/
def Counted (earlier : List Poll) (p : Poll) : Prop :=
  ∀ key, p.pressed key = false →
    held key earlier < key.longPress ∨ (key.longPress : ℤ) ≤ wrap32 (held key earlier)

section Decoding
variable {earlier : List Poll} {p : Poll} {key : Key}

@[simp] lemma held_nil (key : Key) : held key [] = 0 := rfl

lemma held_cons (key : Key) (p : Poll) (earlier : List Poll) :
    held key (p :: earlier) = if p.pressed key then held key earlier + 1 else 0 := by
  unfold held
  rw [List.takeWhile_cons]
  cases p.pressed key <;> rfl

/-- The counter of a key counts the polls that it has been held for, as an int. -/
lemma count_eq (key : Key) (earlier : List Poll) :
    (counters earlier).count key = wrap32 (held key earlier) := by
  induction earlier with
  | nil =>
    rw [held_nil, Nat.cast_zero, wrap32_zero]
    cases key <;> rfl
  | cons p earlier ih =>
    cases hpressed : p.pressed key with
    | true =>
      have hheld : held key (p :: earlier) = held key earlier + 1 := by
        rw [held_cons, hpressed, if_pos rfl]
      have hcast : ((held key earlier + 1 : ℕ) : ℤ) = held key earlier + 1 := Nat.cast_succ _
      rw [count_cons, hpressed, if_pos rfl, ih, wrap32_wrap32_add, hheld, hcast]
    | false =>
      have hheld : held key (p :: earlier) = 0 := by
        rw [held_cons, hpressed, if_neg Bool.false_ne_true]
      rw [count_cons, hpressed, if_neg Bool.false_ne_true, hheld, Nat.cast_zero, wrap32_zero]

/-- The actions of one key. -/
lemma filter_acts (key : Key) (earlier : List Poll) (p : Poll) :
    (acts earlier p).filter (Act.isOf key) =
      if p.pressed key then [] else key.release ((counters earlier).count key) := by
  have hown : ∀ (k : Key) (n : ℤ), (k.release n).filter (Act.isOf k) = k.release n := by
    intro k n
    rw [List.filter_eq_self]
    intro a ha
    rcases mem_release ha with rfl | rfl <;> exact beq_self_eq_true k
  have hother : ∀ (k : Key) (n : ℤ), k ≠ key → (k.release n).filter (Act.isOf key) = [] := by
    intro k n hne
    rw [List.filter_eq_nil_iff]
    intro a ha
    rcases mem_release ha with rfl | rfl <;> simpa [Act.isOf] using hne
  have htime : ∀ (q : Prop) [Decidable q],
      (if q then [Act.timedOut] else []).filter (Act.isOf key) = [] := by
    intro q _
    split <;> rfl
  rw [acts_eq, List.filter_append, List.filter_append, htime, List.append_nil]
  cases key with
  | power =>
    generalize (counters earlier).count .power = cnt, (counters earlier).count .wps = cnt2
    have hwps := hother .wps cnt2 (by decide)
    cases p.pressed .power <;> cases p.pressed .wps <;> simp [hown, hwps]
  | wps =>
    generalize (counters earlier).count .power = cnt, (counters earlier).count .wps = cnt2
    have hpower := hother .power cnt (by decide)
    cases p.pressed .power <;> cases p.pressed .wps <;> simp [hown, hpower]

/-- A press is decoded if it is short, or counted as a long one. -/
lemma release_eq_action_iff (key : Key) (n : ℕ) : key.release (wrap32 n) = key.action n ↔
    n < key.longPress ∨ (key.longPress : ℤ) ≤ wrap32 n := by
  have hsmall : n < 2 ^ 31 → wrap32 n = n := fun h =>
    wrap32_of_bounds (by omega) (by exact_mod_cast h)
  cases key with
  | power =>
    show _ ↔ n < 30 ∨ 30 ≤ wrap32 n
    unfold Key.release Key.action
    dsimp only
    by_cases hlong : n < 30
    · rw [hsmall (by omega)]
      refine iff_of_true ?_ (Or.inl hlong)
      split_ifs <;> first | rfl | omega
    · rw [or_iff_right hlong, if_neg (by omega : ¬ n ≤ 5), if_neg (by omega : ¬ n ≤ 29)]
      split_ifs with hshort hcount
      · refine iff_of_false (by simp) (by omega)
      · exact iff_of_true rfl hcount
      · refine iff_of_false (by simp) hcount
  | wps =>
    show _ ↔ n < 51 ∨ 51 ≤ wrap32 n
    unfold Key.release Key.action
    dsimp only
    by_cases hlong : n < 51
    · rw [hsmall (by omega)]
      refine iff_of_true ?_ (Or.inl hlong)
      split_ifs <;> first | rfl | omega
    · rw [or_iff_right hlong, if_neg (by omega : ¬ n ≤ 5), if_neg (by omega : ¬ n ≤ 30),
        if_neg (by omega : ¬ n ≤ 50)]
      split_ifs with hshort hcount
      · refine iff_of_false (by simp) (by omega)
      · exact iff_of_true rfl (by omega)
      · refine iff_of_false (by simp) (by omega)

lemma decodes_iff_step (earlier : List Poll) (p : Poll) :
    Decodes earlier p ↔ Counted earlier p := by
  refine forall_congr' fun key => ?_
  rw [filter_acts, count_eq]
  cases p.pressed key with
  | true =>
    rw [if_pos rfl, if_pos rfl]
    exact iff_of_true rfl (fun h => by cases h)
  | false =>
    rw [if_neg Bool.false_ne_true, if_neg Bool.false_ne_true, forall_prop_of_true rfl]
    exact release_eq_action_iff key _

/-- **Exactly when the keys are decoded.** For every sequence of polls of the two keys: every pass
leads to the right actions if and only if every press that ends was short, or is long by the
counter's count too, which wraps around at `2 ^ 31`. -/
theorem decodes_iff (polls : List Poll) :
    EveryStep poll Decodes [] polls ↔ EveryStep poll Counted [] polls :=
  everyStep_iff_of_invariant (I := fun _ => True) (fun earlier p _ => decodes_iff_step earlier p)
    (fun _ _ _ _ _ _ => trivial) polls trivial

lemma run_poll (earlier polls : List Poll) :
    run poll earlier polls = some (polls.reverse ++ earlier) := by
  induction polls generalizing earlier with
  | nil => rfl
  | cons p polls ih =>
    rw [List.reverse_cons, List.append_assoc]
    exact ih (p :: earlier)

lemma held_replicate (n : ℕ) (hpressed : p.pressed key = true) :
    held key (List.replicate n p) = n := by
  induction n with
  | zero => rfl
  | succ n ih => rw [List.replicate_succ, held_cons, hpressed, if_pos rfl, ih]

/-- A long press of the power key that is not counted as one. -/
lemma not_decodes_replicate {n : ℕ} (hlong : 30 ≤ n) (hcount : wrap32 n < 30) :
    ¬ EveryStep poll Decodes [] (List.replicate n ⟨true, false⟩ ++ [⟨false, false⟩]) := by
  intro h
  have hrun := run_poll [] (List.replicate n ⟨true, false⟩)
  rw [List.reverse_replicate, List.append_nil] at hrun
  have hcounted := (decodes_iff_step _ _).mp (everyStep_iff_forall.mp h _ _ [] _ rfl hrun)
  have hpower := hcounted .power rfl
  rw [held_replicate n rfl] at hpower
  rcases hpower with hshort | hcounted
  · exact absurd hlong (Nat.not_le.mpr hshort)
  · exact absurd hcounted (Int.not_le.mpr hcount)

/-- A press of `2 ^ 31` polls, well over a year. -/
theorem overflow_not_decodes :
    ¬ EveryStep poll Decodes [] (List.replicate (2 ^ 31) ⟨true, false⟩ ++ [⟨false, false⟩]) :=
  not_decodes_replicate (by norm_num)
    ((wrap32_of_overflow (by norm_num) (by norm_num)).trans (by norm_num))

end Decoding

/-! ## The key thread's steps -/

/-- The power key has been read in this iteration, the WPS key has not. -/
def Pc.beforeWps : Pc → Bool
  | .power | .link | .register | .setExeTask | .unregister | .setIdle | .wps => true
  | .warn key | .endWarn key => key = .power
  | _ => false

/-- The counters are those of the passes so far, and of the power key in the pass that is on. -/
def FollowsPasses (s : State) : Prop :=
  ∃ earlier : List Poll,
    if s.pc.beforeWps then ∃ high, s.counters = readPower high (counters earlier)
    else s.counters = counters earlier

section Thread
variable {s s' : State}

lemma FollowsPasses.of_eq (h : FollowsPasses s) (hpc : s'.pc.beforeWps = s.pc.beforeWps)
    (hcounters : s'.counters = s.counters) : FollowsPasses s' := by
  unfold FollowsPasses
  rw [hpc, hcounters]
  exact h

/-- The step that reads the power key. -/
lemma FollowsPasses.top (h : FollowsPasses s) (hpc : s.pc = .top) (i : Inputs)
    (hstep : keyStep s i = some s') : FollowsPasses s' := by
  obtain ⟨earlier, hcounters⟩ := h
  rw [hpc] at hcounters
  simp only [keyStep, hpc, Option.some.injEq] at hstep
  subst hstep
  refine ⟨earlier, ?_⟩
  have hbefore : (if (readPower i.systemKeyHigh s.counters).isShortPress then Pc.power
      else .wps).beforeWps = true := by
    split <;> rfl
  rw [if_pos hbefore]
  exact ⟨i.systemKeyHigh, congrArg (readPower i.systemKeyHigh) hcounters⟩

/-- The step that reads the WPS key ends the pass. -/
lemma FollowsPasses.wps (h : FollowsPasses s) (hpc : s.pc = .wps) (i : Inputs)
    (hstep : keyStep s i = some s') : FollowsPasses s' := by
  obtain ⟨earlier, hcounters⟩ := h
  rw [hpc] at hcounters
  obtain ⟨high, hhigh⟩ := hcounters
  simp only [keyStep, hpc, Option.some.injEq] at hstep
  subst hstep
  refine ⟨⟨high, i.wpsKeyLow⟩ :: earlier, ?_⟩
  rw [if_neg (by split_ifs <;> simp [Pc.beforeWps]), hhigh]
  rfl

/-- The other steps leave the counters alone. -/
lemma keyStep_elsewhere {i : Inputs} (htop : s.pc ≠ .top) (hwps : s.pc ≠ .wps)
    (hstep : keyStep s i = some s') :
    s'.pc.beforeWps = s.pc.beforeWps ∧ s'.counters = s.counters := by
  cases hpc : s.pc with
  | top => exact absurd hpc htop
  | wps => exact absurd hpc hwps
  | register =>
    simp only [keyStep, hpc, registerTask] at hstep
    cases hmemory : i.memory with
    | none =>
      simp only [hmemory, Option.some.injEq] at hstep
      subst hstep
      exact ⟨rfl, rfl⟩
    | some addr =>
      simp only [hmemory, registerProc] at hstep
      split_ifs at hstep
      · obtain rfl := Option.some.inj hstep
        refine ⟨?_, rfl⟩
        show (if _ then Pc.setExeTask else .wps).beforeWps = true
        split <;> rfl
      · cases hstep
  | warn key | endWarn key =>
    simp only [keyStep, hpc, Option.some.injEq] at hstep
    subst hstep
    exact ⟨by cases key <;> rfl, rfl⟩
  | join =>
    simp only [keyStep, hpc] at hstep
    split at hstep
    · obtain rfl := Option.some.inj hstep
      exact ⟨rfl, rfl⟩
    · cases hstep
  | power | link | wpsShort | wpsLong | enter =>
    simp only [keyStep, hpc, Option.some.injEq] at hstep
    subst hstep
    exact ⟨by split_ifs <;> rfl, rfl⟩
  | _ =>
    simp only [keyStep, hpc, Option.some.injEq] at hstep
    subst hstep
    exact ⟨rfl, rfl⟩

theorem followsPasses_step (s : State) (e : Event) (s' : State) (h : FollowsPasses s)
    (hstep : step s e = some s') : FollowsPasses s' := by
  cases e with
  | key i =>
    by_cases htop : s.pc = .top
    · exact h.top htop i hstep
    by_cases hwps : s.pc = .wps
    · exact h.wps hwps i hstep
    · obtain ⟨hpc, hcounters⟩ := keyStep_elsewhere htop hwps hstep
      exact h.of_eq hpc hcounters
  | airkiss thread e =>
    obtain ⟨t, -, hstep⟩ := Option.bind_eq_some_iff.mp hstep
    obtain ⟨v, -, rfl⟩ := Option.map_eq_some_iff.mp hstep
    exact h.of_eq rfl rfl
  | register r =>
    simp only [step, registerProc] at hstep
    split_ifs at hstep
    obtain rfl := Option.some.inj hstep
    exact h.of_eq rfl rfl

/-- **The key thread counts as the passes of the loop do**, whatever the other threads do. -/
theorem follows_passes (events : List Event) : Always step FollowsPasses start events :=
  always_of_invariant (fun _ h => h) followsPasses_step events ⟨[], rfl⟩

end Thread

end IpncRdk.KeyChkThr
