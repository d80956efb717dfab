import IpncRdk.OsaQue.Que

/-!
# The queues as bounded lists

* `listPut`, `listGet` — what a bounded list does with a call;
* `Refines` — before a step the ring represents a list, and the pass does what that list does;
* `refines_of_inv` — a ring with memory for all its cells refines the list, whatever the threads
  do;
* `bounded_queue_iff` — the queue of `OSA_queCreate` does exactly where its memory does not
  overflow 32 bits, the message queue always.
-/

namespace IpncRdk.OsaQue

open Lib

variable {α : Type}

/-! ## The bounded list -/

/-- A put into a list of at most `len` values: the status, `none` where the call waits, and the
list afterwards. -/
def listPut (len : ℕ) (values : List α) (value : α) (timeout : ℕ) : Option ℤ × List α :=
  if values.length < len then (some osaSok, values ++ [value])
  else (if timeout = osaTimeoutNone then some osaEfail else none, values)

/-- A get: the status, the value taken, and the list afterwards. -/
def listGet (values : List α) (timeout : ℕ) : Option ℤ × Option α × List α :=
  match values with
  | value :: rest => (some osaSok, some value, rest)
  | [] => (if timeout = osaTimeoutNone then some osaEfail else none, none, [])

/-- The ring holds the values put and not yet taken, in their order. -/
structure Represents (s : State α) : Prop where
  count_le : s.hndl.count ≤ s.hndl.len
  wr_eq : s.hndl.curWr = (s.hndl.curRd + s.hndl.count) % s.hndl.len
  values : s.puts = s.gets ++ s.hndl.contents

/-- One pass of a call does what the list does, and a pass that leaves the list as it is leaves
the ring as it is. -/
def PassRefines (hndl : Handle α) : Call α → Prop
  | .put value timeout =>
    let r := listPut hndl.len hndl.contents value timeout
    ∃ hndl', putPass hndl value timeout = .ok (r.1, hndl') ∧ hndl'.contents = r.2 ∧
      (r.1 ≠ some osaSok → hndl' = hndl)
  | .get timeout =>
    let r := listGet hndl.contents timeout
    ∃ hndl', getPass hndl timeout = .ok (r.1, r.2.1, hndl') ∧ hndl'.contents = r.2.2 ∧
      (r.1 ≠ some osaSok → hndl' = hndl)

/-- The ring represents a list, and the pass of an event refines it. -/
def Refines (s : State α) (e : Event α) : Prop :=
  Represents s ∧ ∀ thread c, enabled s e = some (thread, c) → PassRefines s.hndl c

/-! ## A ring with enough memory -/

/-- The cursors are in place, and there is memory behind every cell. -/
structure Handle.Valid (hndl : Handle α) : Prop where
  ring : hndl.toCellRing.WellFormed
  memory : hndl.len ≤ hndl.cells

section Valid
variable {hndl hndl' : Handle α}

lemma putPass_room (h : hndl.Valid) (hroom : hndl.count < hndl.len) (value : α) (timeout : ℕ) :
    putPass hndl value timeout
      = .ok (some osaSok, { hndl with toCellRing := hndl.toCellRing.put value }) := by
  unfold putPass
  rw [if_pos hroom, if_pos (h.ring.wr_lt.trans_le h.memory)]

lemma putPass_full (hfull : ¬ hndl.count < hndl.len) (value : α) (timeout : ℕ) :
    putPass hndl value timeout
      = .ok (if timeout = osaTimeoutNone then some osaEfail else none, hndl) := by
  unfold putPass
  rw [if_neg hfull]
  split <;> rfl

lemma getPass_nonempty (h : hndl.Valid) (hne : 0 < hndl.count) (timeout : ℕ) :
    getPass hndl timeout
      = .ok (some osaSok, some hndl.head, { hndl with toCellRing := hndl.toCellRing.get }) := by
  unfold getPass
  rw [if_pos hne, if_pos (h.ring.rd_lt.trans_le h.memory)]

lemma getPass_empty (hempty : ¬ 0 < hndl.count) (timeout : ℕ) :
    getPass hndl timeout
      = .ok (if timeout = osaTimeoutNone then some osaEfail else none, none, hndl) := by
  unfold getPass
  rw [if_neg hempty]
  split <;> rfl

/-- A pass of a put leaves a valid ring. -/
lemma Handle.Valid.putPass (h : hndl.Valid) {value : α} {timeout : ℕ} {status : Option ℤ}
    (hpass : OsaQue.putPass hndl value timeout = .ok (status, hndl')) :
    hndl'.Valid ∧ hndl'.len = hndl.len ∧
      hndl'.contents
        = if status = some osaSok then hndl.contents ++ [value] else hndl.contents := by
  by_cases hroom : hndl.count < hndl.len
  · rw [putPass_room h hroom, Except.ok.injEq, Prod.mk.injEq] at hpass
    obtain ⟨rfl, rfl⟩ := hpass
    refine ⟨⟨h.ring.put hroom value, h.memory⟩, rfl, ?_⟩
    rw [if_pos rfl]
    exact CellRing.contents_put h.ring hroom value
  · rw [putPass_full hroom, Except.ok.injEq, Prod.mk.injEq] at hpass
    obtain ⟨hstatus, rfl⟩ := hpass
    refine ⟨h, rfl, ?_⟩
    rw [if_neg]
    rw [← hstatus]
    split <;> simp

/-- A pass of a get leaves a valid ring, without the value it takes. -/
lemma Handle.Valid.getPass (h : hndl.Valid) {timeout : ℕ} {status : Option ℤ} {value : Option α}
    (hpass : OsaQue.getPass hndl timeout = .ok (status, value, hndl')) :
    hndl'.Valid ∧ hndl'.len = hndl.len ∧
      hndl.contents = value.toList ++ hndl'.contents := by
  by_cases hne : 0 < hndl.count
  · rw [getPass_nonempty h hne, Except.ok.injEq, Prod.mk.injEq, Prod.mk.injEq] at hpass
    obtain ⟨-, rfl, rfl⟩ := hpass
    exact ⟨⟨h.ring.get hne, h.memory⟩, rfl, CellRing.contents_get h.ring hne⟩
  · rw [getPass_empty hne, Except.ok.injEq, Prod.mk.injEq, Prod.mk.injEq] at hpass
    obtain ⟨-, rfl, rfl⟩ := hpass
    exact ⟨h, rfl, rfl⟩

/-- A pass on a valid ring does what the list of its contents does. -/
lemma passRefines_of_valid (h : hndl.Valid) (c : Call α) : PassRefines hndl c := by
  cases c with
  | put value timeout =>
    simp only [PassRefines, listPut, CellRing.length_contents]
    by_cases hroom : hndl.count < hndl.len
    · rw [if_pos hroom]
      exact ⟨_, putPass_room h hroom value timeout, CellRing.contents_put h.ring hroom value,
        fun hne => absurd rfl hne⟩
    · rw [if_neg hroom]
      exact ⟨hndl, putPass_full hroom value timeout, rfl, fun _ => rfl⟩
  | get timeout =>
    simp only [PassRefines, listGet]
    by_cases hne : 0 < hndl.count
    · have hcontents : hndl.contents = hndl.head :: hndl.toCellRing.get.contents :=
        CellRing.contents_get h.ring hne
      rw [hcontents]
      exact ⟨_, getPass_nonempty h hne timeout, rfl, fun hne => absurd rfl hne⟩
    · have hempty : hndl.contents = [] :=
        List.length_eq_zero_iff.mp (by rw [CellRing.length_contents]; omega)
      rw [hempty]
      exact ⟨hndl, getPass_empty hne timeout, hempty, fun _ => rfl⟩

/-- A get of a queue with a value takes the first. -/
lemma Handle.Valid.getPass_cons (h : hndl.Valid) {value : α} {rest : List α}
    (hcontents : hndl.contents = value :: rest) (timeout : ℕ) :
    ∃ hndl', OsaQue.getPass hndl timeout = .ok (some osaSok, some value, hndl') ∧
      hndl'.Valid ∧ hndl'.len = hndl.len ∧ hndl'.contents = rest := by
  obtain ⟨hndl', hget, hrest, -⟩ := passRefines_of_valid h (.get timeout)
  rw [hcontents] at hget hrest
  obtain ⟨hvalid, hlen, -⟩ := h.getPass hget
  exact ⟨hndl', hget, hvalid, hlen, hrest⟩

/-- A get of an empty queue fails or waits. -/
lemma getPass_nil (hcontents : hndl.contents = []) (timeout : ℕ) :
    OsaQue.getPass hndl timeout
      = .ok (if timeout = osaTimeoutNone then some osaEfail else none, none, hndl) := by
  have hcount : hndl.count = 0 := by
    rw [← CellRing.length_contents]
    exact List.length_eq_zero_iff.mpr hcontents
  exact getPass_empty (by omega) timeout

/-- A put into a queue with room appends. -/
lemma Handle.Valid.putPass_room (h : hndl.Valid) (hroom : hndl.contents.length < hndl.len)
    (value : α) (timeout : ℕ) :
    ∃ hndl', OsaQue.putPass hndl value timeout = .ok (some osaSok, hndl') ∧
      hndl'.Valid ∧ hndl'.len = hndl.len ∧ hndl'.contents = hndl.contents ++ [value] := by
  rw [CellRing.length_contents] at hroom
  obtain ⟨hvalid, hlen, hcontents⟩ := h.putPass (OsaQue.putPass_room h hroom value timeout)
  exact ⟨_, OsaQue.putPass_room h hroom value timeout, hvalid, hlen, hcontents⟩

/-- A put that waits for room either appends or leaves the queue as it is. -/
lemma Handle.Valid.putPass_forever (h : hndl.Valid) (value : α) :
    OsaQue.putPass hndl value osaTimeoutForever = .ok (none, hndl) ∨
      ∃ hndl', OsaQue.putPass hndl value osaTimeoutForever = .ok (some osaSok, hndl') ∧
        hndl'.Valid ∧ hndl'.contents = hndl.contents ++ [value] := by
  by_cases hroom : hndl.contents.length < hndl.len
  · obtain ⟨hndl', hput, hvalid, -, hcontents⟩ := h.putPass_room hroom value osaTimeoutForever
    exact .inr ⟨hndl', hput, hvalid, hcontents⟩
  · rw [CellRing.length_contents] at hroom
    exact .inl (putPass_full hroom value osaTimeoutForever)

end Valid

/-! ## Runs of the threads -/

/-- The ring is valid and holds what has been put and not yet taken. -/
structure Inv (s : State α) : Prop where
  valid : s.hndl.Valid
  values : s.puts = s.gets ++ s.hndl.contents

section Runs
variable {s s' : State α}

lemma inv_fresh {hndl : Handle α} (h : hndl.Valid) (hempty : hndl.contents = []) :
    Inv (fresh hndl) :=
  ⟨h, hempty.symm⟩

lemma Inv.represents (h : Inv s) : Represents s :=
  ⟨h.valid.ring.count_le, h.valid.ring.wr_eq, h.values⟩

/-- A pass keeps the invariant. -/
lemma inv_pass (h : Inv s) {thread : ℕ} {c : Call α} (hpass : pass s thread c = some s') :
    Inv s' := by
  cases c with
  | put value timeout =>
    cases hput : putPass s.hndl value timeout with
    | error fault => simp [pass, hput] at hpass
    | ok r =>
      simp only [pass, hput, Option.some.injEq] at hpass
      subst hpass
      obtain ⟨hvalid, -, hcontents⟩ := h.valid.putPass hput
      refine ⟨hvalid, ?_⟩
      simp only [hcontents]
      split
      · rw [h.values, List.append_assoc]
      · exact h.values
  | get timeout =>
    cases hget : getPass s.hndl timeout with
    | error fault => simp [pass, hget] at hpass
    | ok r =>
      simp only [pass, hget, Option.some.injEq] at hpass
      subst hpass
      obtain ⟨hvalid, -, hcontents⟩ := h.valid.getPass hget
      refine ⟨hvalid, ?_⟩
      simp only
      rw [h.values, hcontents, List.append_assoc]

theorem inv_step (s : State α) (e : Event α) (s' : State α) (h : Inv s)
    (hstep : step s e = some s') : Inv s' := by
  obtain ⟨tc, -, hpass⟩ := Option.bind_eq_some_iff.mp hstep
  exact inv_pass h hpass

/-- With memory behind every cell all runs refine the list. -/
theorem refines_of_inv (events : List (Event α)) (h : Inv s) :
    EveryStep step Refines s events :=
  everyStep_of_invariant
    (fun _ _ hI => ⟨hI.represents, fun _ c _ => passRefines_of_valid hI.valid c⟩) inv_step events h

end Runs

/-! ## Memory that does not reach -/

/-- A queue filled up to `n` values, by one thread. -/
lemma put_beyond (value : α) {s : State α} {n : ℕ} (hring : s.hndl.toCellRing.WellFormed)
    (hrd : s.hndl.curRd = 0) (hthread : s.blocked 0 = none)
    (hn : s.hndl.count + n = s.hndl.cells) (hcells : s.hndl.cells < s.hndl.len) :
    ¬ EveryStep step Refines s (List.replicate (n + 1) (.call 0 (.put value osaTimeoutNone))) := by
  induction n generalizing s with
  | zero =>
    rintro ⟨⟨-, hrefines⟩, -⟩
    have henabled : enabled s (.call 0 (.put value osaTimeoutNone))
        = some (0, .put value osaTimeoutNone) := if_pos hthread
    obtain ⟨hndl', hput, -⟩ := hrefines _ _ henabled
    have hwr : ¬ s.hndl.curWr < s.hndl.cells := by
      rw [hring.wr_eq, hrd, Nat.zero_add, Nat.mod_eq_of_lt (by omega)]
      omega
    unfold putPass at hput
    rw [if_pos (by omega), if_neg hwr] at hput
    nomatch hput
  | succ n ih =>
    rintro ⟨-, hrest⟩
    have hroom : s.hndl.count < s.hndl.len := by omega
    have hwr : s.hndl.curWr < s.hndl.cells := by
      rw [hring.wr_eq, hrd, Nat.zero_add, Nat.mod_eq_of_lt hroom]
      omega
    have hput : putPass s.hndl value osaTimeoutNone
        = .ok (some osaSok, { s.hndl with toCellRing := s.hndl.toCellRing.put value }) := by
      unfold putPass
      rw [if_pos hroom, if_pos hwr]
    have hstep : step s (.call 0 (.put value osaTimeoutNone)) = some
        { s with
          hndl := { s.hndl with toCellRing := s.hndl.toCellRing.put value }
          blocked := Function.update s.blocked 0 none
          puts := s.puts ++ [value] } := by
      simp [step, enabled, pass, hthread, hput]
    refine ih ?_ ?_ ?_ ?_ ?_ (hrest _ hstep)
    · exact hring.put hroom value
    · exact hrd
    · simp only [Function.update_self]
    · show s.hndl.count + 1 + n = s.hndl.cells
      omega
    · exact hcells

lemma valid_osaMsgqCreate (queue : ℕ → α) : (osaMsgqCreate queue).Valid :=
  ⟨.empty (by decide) queue, le_refl _⟩

/-- **Exactly when a queue is a bounded list.** For every length that `OSA_queCreate` is asked
for, all runs of all threads refine the bounded list if and only if the size of the memory fits
32 bits. The message queue refines the list of `OSA_MSGQ_LEN_MAX` messages in all runs. -/
theorem bounded_queue_iff {maxLen : ℕ} (hpos : 1 ≤ maxLen) (queue : ℕ → ℤ) {M : Type}
    (messages : ℕ → M) :
    ((∀ hndl, osaQueCreate maxLen (some queue) = some hndl →
        ∀ events, EveryStep step Refines (fresh hndl) events) ↔ 4 * maxLen < 2 ^ 32) ∧
      ∀ events, EveryStep step Refines (fresh (osaMsgqCreate messages)) events := by
  refine ⟨⟨fun h => ?_, fun hsize hndl hcreate events => ?_⟩, fun events => ?_⟩
  · by_contra hsize
    -- fill the memory that there is, and put one more
    refine put_beyond (n := 4 * maxLen % 2 ^ 32 / 4) 0 (.empty hpos queue) rfl rfl ?_ ?_
      (h _ rfl _)
    · exact Nat.zero_add _
    · show 4 * maxLen % 2 ^ 32 / 4 < maxLen
      have := Nat.mod_lt (4 * maxLen) (by decide : 0 < 2 ^ 32)
      omega
  · obtain rfl := Option.some.inj hcreate
    refine refines_of_inv events (inv_fresh ⟨.empty hpos queue, ?_⟩ rfl)
    show maxLen ≤ 4 * maxLen % 2 ^ 32 / 4
    rw [Nat.mod_eq_of_lt hsize]
    omega
  · exact refines_of_inv events (inv_fresh (valid_osaMsgqCreate messages) rfl)

/-- A queue of four values is a bounded list. -/
theorem bounded_queue_four :
    ((∀ hndl, osaQueCreate 4 (some fun _ => 0) = some hndl →
        ∀ events, EveryStep step Refines (fresh hndl) events) ↔ 4 * 4 < 2 ^ 32) ∧
      ∀ events, EveryStep step Refines (fresh (osaMsgqCreate fun _ => 0)) events :=
  bounded_queue_iff (M := ℕ) (by decide) (fun _ => 0) fun _ => 0

/-- A queue of `2 ^ 30 + 1` values gets four bytes, and its second value does not fit. -/
theorem bounded_queue_overflows :
    ¬ ∀ hndl, osaQueCreate (2 ^ 30 + 1) (some fun _ => 0) = some hndl →
      ∀ events, EveryStep step Refines (fresh hndl) events := by
  intro h
  exact put_beyond (n := 1) 0 (.empty (by decide) fun _ => 0) rfl rfl rfl (by decide) (h _ rfl _)

end IpncRdk.OsaQue
