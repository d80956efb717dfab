import IpncRdk.OsaMbx.Sending

/-!
# The life cycle of a message

* `inv_act` — a call that goes on keeps the invariant;
* `lifeCycle_of_fits` — all runs of all tasks;
* `lifeCycle_fails` — runs with a step of each other kind.
-/

namespace IpncRdk.OsaMbx

open Lib OsaQue

section Steps
variable {s : State} {task : ℕ}

lemma Inv.beginBroadcast (h : Inv s) (hp : s.pc task = .idle) {pMbxToList : List ℕ} {a : Args}
    (hallowed : SendAllowed s a.hasFrom a.pPrm a.flags)
    (hlength : pMbxToList.length < osaMbxBroadcastMax) (hbroadcast : a.broadcast = true)
    (hfits : hasFreePrm a.flags = true →
      pMbxToList ≠ [] ∧ (hasWaitAck a.flags = true ∨ pMbxToList.length = 1)) :
    Inv (s.beginBroadcast task pMbxToList a) := by
  have hfrom : ¬ (hasWaitAck a.flags && !a.hasFrom) = true := by
    intro hnone
    rw [Bool.and_eq_true, Bool.not_eq_true'] at hnone
    exact absurd (hnone.2.symm.trans (hallowed.1 hnone.1)) (by decide)
  unfold State.beginBroadcast
  simp only [if_neg hfrom, if_neg (Nat.not_le.mpr hlength)]
  cases pMbxToList with
  | nil =>
    have hfree : ¬ hasFreePrm a.flags = true := fun hfree => (hfits hfree).1 rfl
    have hpass : s.pass a.pPrm a.flags = s := by
      unfold State.pass
      rw [if_neg hfree]
    rw [hpass]
    exact h.ret_quiet (by rw [hp]; trivial) osaSok
  | cons pMbxTo todo =>
    have hsingle : hasFreePrm a.flags = true → hasWaitAck a.flags = false → todo = [] := by
      intro hfree hwait
      rcases (hfits hfree).2 with hack | hone
      · exact absurd (hwait.symm.trans hack) (by decide)
      · exact List.length_eq_zero_iff.mp (Nat.succ.inj hone)
    have hassert : ¬ (hasFreePrm a.flags && !hasWaitAck a.flags && !todo.isEmpty) = true := by
      intro hfails
      rw [Bool.and_eq_true, Bool.and_eq_true, Bool.not_eq_true', Bool.not_eq_true'] at hfails
      rw [hsingle hfails.1.1 hfails.1.2] at hfails
      exact absurd hfails.2 (by decide)
    simp only [if_neg hassert]
    refine h.callSend hp hallowed ?_
    rintro (hb | ⟨hwaits, hprm⟩)
    · exact absurd (hbroadcast.symm.trans hb) (by decide)
    · have hfree : hasFreePrm a.flags = true := by
        by_contra hfree
        exact hprm (if_neg hfree)
      refine hsingle hfree ?_
      by_contra hwait
      have hwait' : hasWaitAck a.flags = true := by simpa using hwait
      unfold Args.waits at hwaits
      rw [hwait', hallowed.1 hwait'] at hwaits
      exact absurd hwaits (by decide)

lemma Inv.begin (h : Inv s) (hp : s.pc task = .idle) {c : Call} (hallowed : CallAllowed s task c)
    (hfits : Fits s (.call task c)) : Inv (s.begin task c) := by
  have hquiet : (s.pc task).Quiet := by
    rw [hp]
    trivial
  cases c with
  | sendMsg pMbxTo hasFrom cmd pPrm flags =>
    have hallowed' : SendAllowed s hasFrom pPrm flags := hallowed
    have hfrom : ¬ (hasWaitAck flags && !hasFrom) = true := by
      intro hnone
      rw [Bool.and_eq_true, Bool.not_eq_true'] at hnone
      exact absurd (hnone.2.symm.trans (hallowed'.1 hnone.1)) (by decide)
    show Inv (s.beginSend task pMbxTo ⟨false, hasFrom, cmd, pPrm, flags⟩)
    unfold State.beginSend
    rw [if_neg hfrom]
    exact h.callSend hp hallowed' fun _ => rfl
  | broadcastMsg pMbxToList hasFrom cmd pPrm flags =>
    exact h.beginBroadcast hp hallowed.1 hallowed.2 rfl hfits
  | waitMsg mbx => exact h.goto_quiet hquiet trivial
  | checkMsg mbx => exact h.goto_quiet hquiet trivial
  | waitCmd mbx hasMsg waitCmd => exact h.goto_quiet hquiet trivial
  | ackOrFreeMsg pMsg ackRetVal => exact h.callAckOrFree hp hallowed ackRetVal
  | flush mbx => exact h.goto_quiet hquiet trivial

/-- A call that goes on, in a step that fits, keeps the invariant. -/
lemma inv_act (h : Inv s) {e : Event} (hallowed : Allowed s e) (hfits : Fits s e) :
    ∃ s', act s e = some s' ∧ Inv s' := by
  cases e with
  | call task c => exact ⟨_, rfl, h.begin hallowed.1 hallowed.2 hfits⟩
  | resume task hasMemory =>
    show ∃ s', s.resume task hasMemory = some s' ∧ Inv s'
    have hfits' : ResumeFits s hasMemory (s.pc task) := hfits
    unfold State.resume
    cases hp : s.pc task with
    | idle => exact absurd hp hallowed.1
    | stopped => exact absurd hp hallowed.2
    | alloc a pMbxTo todo sent =>
      rw [hp] at hfits'
      obtain rfl : hasMemory = true := hfits'
      exact ⟨_, rfl, h.allocMsgHndl hp⟩
    | put a msg pMbxTo todo sent => exact h.sendMsg hp
    | waitAck a sent ackRetVal => exact h.recvAck hp
    | acked a sent ackRetVal pRcvMsg =>
      by_cases hbroadcast : a.broadcast = true
      · simp only [if_pos hbroadcast]
        exact ⟨_, rfl, h.broadcastAcked hp hbroadcast⟩
      · simp only [if_neg hbroadcast]
        exact ⟨_, rfl, h.sendAcked hp (by simpa using hbroadcast)⟩
    | recv mbx mode => exact h.recvMsg hp
    | compare mbx hasMsg waitCmd pRcvMsg => exact ⟨_, rfl, h.compareCmd hp⟩
    | ackOrFree pMsg ackRetVal next => exact h.ackOrFreeMsg hp
    | sendAck pMsg queue next => exact h.sendAck hp
    | flushAck mbx =>
      rw [hp] at hfits'
      exact h.flushAck hp hfits'
    | flushFree mbx pMsg =>
      -- no acknowledgement is ever flushed
      have hphase : PhaseOk s pMsg .never := h.phase_pc hp rfl
      exact hphase.elim

theorem inv_step (s : State) (e : Event) (s' : State) (h : Inv s) (hfits : Fits s e)
    (hstep : step s e = some s') : Inv s' := by
  by_cases hallowed : Allowed s e
  · obtain ⟨t, hact, ht⟩ := inv_act h hallowed hfits
    rw [step, if_pos hallowed, hact, Option.some.injEq] at hstep
    exact hstep ▸ ht
  · rw [step, if_neg hallowed] at hstep
    exact absurd hstep nofun

end Steps

/-! ## Runs -/

lemma placed_nil {ι α : Type} {places : ι → List α} {S : α → Prop} (hplaces : ∀ p, places p = [])
    (hS : ∀ a, ¬ S a) : Placed places S where
  nodup p := by
    rw [hplaces]
    exact List.nodup_nil
  unique p q a hp _ := by
    rw [hplaces] at hp
    exact absurd hp List.not_mem_nil
  mem_iff a := by
    refine iff_of_false (hS a) ?_
    rintro ⟨p, hp⟩
    rw [hplaces] at hp
    exact List.not_mem_nil hp

lemma inv_start (memory : Queue → ℕ → ℕ) : Inv (start memory) := by
  have hids (r : Place) : ids (start memory) r = [] := by
    cases r <;> rfl
  have hprm (r : PrmPlace) : prmIds (start memory) r = [] := by
    cases r with
    | msg m =>
      have hlt : ¬ (m < (start memory).next ∧ m ∉ (start memory).freed) := fun hlt =>
        Nat.not_lt_zero m hlt.1
      unfold prmIds
      exact if_neg hlt
    | _ => rfl
  exact
    { valid := fun queue => ⟨.empty (by decide) (memory queue), le_rfl⟩
      placed := placed_nil hids Nat.not_lt_zero
      prmPlaced := placed_nil hprm fun _ => List.not_mem_nil
      msgOk := fun m hlt => absurd hlt (Nat.not_lt_zero m)
      unused := fun _ _ => rfl
      phase := fun r m hm => by
        rw [hids] at hm
        exact absurd hm List.not_mem_nil
      due := fun i m =>
        iff_of_false List.not_mem_nil fun hdue => Nat.not_lt_zero m hdue.lt
      args := fun i m hm => absurd hm List.not_mem_nil
      pcOk := fun _ => trivial
      unmisused := rfl
      results := fun r hr => absurd hr List.not_mem_nil }

/-- A step that is allowed has an outcome. -/
def Defined (s : State) (e : Event) : Prop := Allowed s e → ∃ s', step s e = some s'

/-- **The life cycle of messages and parameters.** For any number of tasks and all runs whose
steps fit: every handle is at one place and is freed once, every parameter is freed once and after
its messages, nothing is used after it is freed or left over in the end, and a call that waits
returns the status that it was given. -/
theorem lifeCycle_of_fits (memory : Queue → ℕ → ℕ) (events : List Event)
    (h : EveryStep step Fits (start memory) events) :
    Always step LifeCycle (start memory) events ∧
      EveryStep step Defined (start memory) events := by
  refine ⟨always_of_everyStep (fun _ hs => hs.lifeCycle) inv_step events (inv_start memory) h, ?_⟩
  refine everyStep_imp_of_invariant (fun s e hs hfits hallowed => ?_) inv_step events
    (inv_start memory) h
  obtain ⟨s', hact, -⟩ := inv_act hs hallowed hfits
  exact ⟨s', by rw [step, if_pos hallowed, hact]⟩

/-- A broadcast to two tasks that waits and frees its parameter: one task acknowledges the
message, the other flushes it. -/
theorem broadcast_lifeCycle :
    let events : List Event :=
      [.call 0 (.broadcastMsg [1, 2] true 7 (some 9) 6), .resume 0 true, .resume 0 true,
        .resume 0 true, .resume 0 true, .call 1 (.waitMsg 1), .resume 1 true,
        .call 1 (.ackOrFreeMsg 0 5), .resume 1 true, .resume 1 true, .resume 0 true,
        .resume 0 true, .call 2 (.flush 2), .resume 2 true, .resume 2 true, .resume 2 true,
        .resume 2 true, .resume 2 true, .resume 0 true, .resume 0 true]
    Always step LifeCycle (start fun _ _ => 0) events ∧
      EveryStep step Defined (start fun _ _ => 0) events :=
  lifeCycle_of_fits (fun _ _ => 0) _ (by decide)

/-! ## Other steps -/

/-- A parameter that is never freed. -/
lemma not_lifeCycle_of_leak {s : State} (hsettled : Settled s) {p : ℕ} (hpassed : p ∈ s.passed)
    (hfreed : p ∉ s.prmFreed) : ¬ LifeCycle s :=
  fun h => hfreed ((h.settled hsettled).2 p hpassed)

/-- A task that has returned, or stopped, before it sent anything. -/
lemma settled_of_start {s : State} (task : ℕ) (hother : ∀ other, other ≠ task → s.pc other = .idle)
    (hend : s.pc task = .idle ∨ s.pc task = .stopped) (hheld : ∀ other, s.held other = [])
    (hque : ∀ queue, (s.que queue).contents = []) : Settled s where
  pc other := by
    by_cases heq : other = task
    · rw [heq]
      exact hend
    · exact .inl (hother other heq)
  held := hheld
  que := hque

/-- Each kind of step that does not fit breaks the life cycle: a parameter to be freed that is
broadcast to nobody, and one that is broadcast to two tasks without a wait, or sent without memory
for its message, is not freed; and where a flush takes an acknowledgement that a broadcast waits
for the parameter is freed before the other task has acknowledged. -/
theorem lifeCycle_fails :
    let fails (events : List Event) := ¬ Always step LifeCycle (start fun _ _ => 0) events
    fails [.call 0 (.broadcastMsg [] false 7 (some 9) 4)] ∧
      fails [.call 0 (.broadcastMsg [1, 2] false 7 (some 9) 4)] ∧
      fails [.call 0 (.sendMsg 1 false 7 (some 9) 4), .resume 0 false] ∧
      fails [.call 0 (.broadcastMsg [1, 2] true 7 (some 9) 6), .resume 0 true, .resume 0 true,
        .resume 0 true, .resume 0 true, .call 1 (.waitMsg 1), .resume 1 true,
        .call 1 (.ackOrFreeMsg 0 5), .resume 1 true, .resume 1 true, .call 3 (.flush 0),
        .resume 3 true, .resume 3 true, .resume 3 true] := by
  refine ⟨fun h => ?_, fun h => ?_, fun h => ?_, fun h => ?_⟩
  · have hlast := of_always h rfl
    refine not_lifeCycle_of_leak (p := 9) ?_ (by decide) (by decide) hlast
    exact settled_of_start 0 (fun _ hne => Function.update_of_ne hne ..) (.inl rfl) (fun _ => rfl)
      fun _ => rfl
  · have hlast := of_always h rfl
    refine not_lifeCycle_of_leak (p := 9) ?_ (by decide) (by decide) hlast
    exact settled_of_start 0 (fun _ hne => Function.update_of_ne hne ..) (.inr rfl) (fun _ => rfl)
      fun _ => rfl
  · have hlast := of_always h rfl
    refine not_lifeCycle_of_leak (p := 9) ?_ (by decide) (by decide) hlast
    exact settled_of_start 0
      (fun _ hne => (Function.update_of_ne hne ..).trans (Function.update_of_ne hne ..)) (.inr rfl)
      (fun _ => rfl) fun _ => rfl
  · have hlast := of_always h rfl
    exact hlast.prm_after 9 (by decide) 1 (by decide) ⟨by decide, by decide⟩ (by decide)

end IpncRdk.OsaMbx
