import IpncRdk.OsaMbx.Calls

/-!
# Messages that are freed

A message is freed by its receiver, or by the call that waited for its acknowledgement. With it
goes its parameter, where the message owns that; a broadcast that waits frees the parameter after
the last of its messages.
-/

namespace IpncRdk.OsaMbx

open Lib OsaQue

/-! ## The list of acknowledgements -/

section Lists
variable {sent : List (ℕ × Bool)} {m x : ℕ}

lemma mem_missing : x ∈ missing sent ↔ (x, false) ∈ sent := by
  simp [missing]

lemma mem_answered : x ∈ answered sent ↔ (x, true) ∈ sent := by
  simp [answered]

/-- Marking an acknowledgement that is missing. -/
lemma markAck_missing (hnodup : (sent.map Prod.fst).Nodup) (hm : m ∈ missing sent) :
    ∃ sent', markAck m sent = some sent' ∧ sent'.map Prod.fst = sent.map Prod.fst ∧
      (∀ x, x ∈ missing sent' ↔ x ∈ missing sent ∧ x ≠ m) ∧
      ∀ x, x ∈ answered sent' ↔ x = m ∨ x ∈ answered sent := by
  simp only [mem_missing, mem_answered] at hm ⊢
  induction sent with
  | nil => exact absurd hm List.not_mem_nil
  | cons entry rest ih =>
    obtain ⟨k, ack⟩ := entry
    rw [List.map_cons, List.nodup_cons] at hnodup
    have hrest (b : Bool) : (k, b) ∉ rest := fun hmem =>
      hnodup.1 (List.mem_map.mpr ⟨(k, b), hmem, rfl⟩)
    unfold markAck
    by_cases heq : m = k
    · subst heq
      rw [if_pos rfl]
      obtain rfl : ack = false := by
        rcases List.mem_cons.mp hm with hhead | htail
        · exact (Prod.mk.inj hhead).2.symm
        · exact absurd htail (hrest false)
      refine ⟨_, rfl, rfl, fun x => ?_, fun x => ?_⟩
      · rw [List.mem_cons, List.mem_cons, Prod.mk.injEq, Prod.mk.injEq]
        constructor
        · rintro (⟨-, hfalse⟩ | hmem)
          · exact absurd hfalse (by decide)
          · exact ⟨.inr hmem, fun hx => hrest false (hx ▸ hmem)⟩
        · rintro ⟨⟨hx, -⟩ | hmem, hne⟩
          · exact absurd hx hne
          · exact .inr hmem
      · rw [List.mem_cons, List.mem_cons, Prod.mk.injEq, Prod.mk.injEq]
        simp
    · rw [if_neg heq]
      have hm' : (m, false) ∈ rest := by
        rcases List.mem_cons.mp hm with hhead | htail
        · exact absurd (Prod.mk.inj hhead).1 heq
        · exact htail
      obtain ⟨rest', hmark, hkeys, hmissing, hanswered⟩ := ih hnodup.2 hm'
      refine ⟨(k, ack) :: rest', by rw [hmark]; rfl, ?_, fun x => ?_, fun x => ?_⟩
      · rw [List.map_cons, List.map_cons, hkeys]
      · rw [List.mem_cons, List.mem_cons, hmissing, Prod.mk.injEq]
        constructor
        · rintro (hhead | ⟨hmem, hne⟩)
          · exact ⟨.inl hhead, fun hx => heq (hx ▸ hhead.1)⟩
          · exact ⟨.inr hmem, hne⟩
        · rintro ⟨hhead | hmem, hne⟩
          · exact .inl hhead
          · exact .inr ⟨hmem, hne⟩
      · rw [List.mem_cons, List.mem_cons, hanswered]
        tauto

lemma any_iff_missing : (sent.any fun msg => !msg.2) = true ↔ missing sent ≠ [] := by
  rw [List.any_eq_true]
  constructor
  · rintro ⟨⟨k, ack⟩, hmem, hack⟩
    obtain rfl : ack = false := by simpa using hack
    exact List.ne_nil_of_mem (mem_missing.mpr hmem)
  · intro hne
    obtain ⟨k, hmem⟩ := List.exists_mem_of_ne_nil _ hne
    exact ⟨(k, false), mem_missing.mp hmem, rfl⟩

/-- Where none is missing all are answered. -/
lemma mem_answered_of_missing (h : missing sent = []) :
    x ∈ sent.map Prod.fst ↔ x ∈ answered sent := by
  rw [mem_answered, List.mem_map]
  constructor
  · rintro ⟨⟨k, ack⟩, hmem, rfl⟩
    cases ack with
    | true => exact hmem
    | false =>
      have hmissing : k ∈ missing sent := mem_missing.mpr hmem
      rw [h] at hmissing
      exact absurd hmissing List.not_mem_nil
  · intro hmem
    exact ⟨(x, true), hmem, rfl⟩

end Lists

section Verdict
variable {s : State} {msgs msgs' : List ℕ} {status : ℤ}

lemma Verdict.of_mem_iff (h : Verdict s msgs status) (hmem : ∀ x, x ∈ msgs' ↔ x ∈ msgs) :
    Verdict s msgs' status := by
  unfold Verdict
  simp only [hmem]
  exact h

/-- The verdict with one more acknowledgement. -/
lemma Verdict.insert (h : Verdict s msgs status) {m : ℕ} {given : ℤ} (hgiven : s.given m = [given])
    (hmem : ∀ x, x ∈ msgs' ↔ x = m ∨ x ∈ msgs) :
    Verdict s msgs' (if status = osaSok then given else status) := by
  obtain ⟨hone, hall⟩ := h
  refine ⟨fun x hx => ?_, ?_⟩
  · rcases (hmem x).mp hx with rfl | hx
    · exact ⟨given, hgiven⟩
    · exact hone x hx
  · have hm : s.given m = [osaSok] ↔ given = osaSok := by
      rw [hgiven, List.cons.injEq, and_iff_left rfl]
    simp only [hmem, forall_eq_or_imp, hm, ← hall]
    split_ifs with hstatus
    · exact (and_iff_left hstatus).symm
    · exact iff_of_false hstatus fun h => hstatus h.2

end Verdict

/-! ## The release of a handle -/

section Release
variable {s s' : State} {task msg : ℕ}

/-- `OSA_mbxFreeMsg` frees the handle, and the parameter that its call wanted freed. -/
lemma mbxFreeMsg_eq (hok : MsgOk s msg) (hunfreed : msg ∉ s.freed) :
    s.mbxFreeMsg msg = (s.freePrm (s.caller msg).2.prm).freeMsgHndl msg := by
  have hprm : (s.caller msg).2.prm
      = if hasFreePrm (s.msgs msg).flags then (s.msgs msg).pPrm else none := by
    rw [hok.flags, hasFreePrm_mod, hok.pPrm]
    rfl
  have haccess : s.access msg = s := by
    unfold State.access
    rw [decide_eq_false hunfreed, Bool.or_false]
  unfold State.mbxFreeMsg
  rw [hprm]
  simp only [haccess]
  split_ifs <;> rfl

/-- The message that a task works on is freed, and what it waits for loses that message. -/
lemma Inv.release (h : Inv s) (w : Work s s' task msg) (hfreed : s'.freed = msg :: s.freed)
    (hque : s'.que = s.que) (hheld : s'.held = s.held) (hholds : (s.pc task).holds = some msg)
    (hnone : (s'.pc task).holds = none) (hgiven : s'.given msg ≠ [])
    (hcaller : (s.caller msg).2.waits = true → (s.caller msg).1 = task)
    (hprm : Placed (prmIds s') (· ∈ s'.passed))
    (hdue : ∀ m, m ∈ (s'.pc task).due ↔ m ∈ (s.pc task).due ∧ m ≠ msg)
    (hargs : (s'.pc task).due ≠ [] → (s'.pc task).args = (s.pc task).args)
    (hpcOk : PcOk s' (s'.pc task)) (hmisused : s'.misused = s.misused)
    (hresults : ∀ r ∈ s'.results, r ∈ s.results ∨ r.Ok s') : Inv s' := by
  have hmem : msg ∈ ids s (.pc task) := mem_ids_pc hholds
  have hloc : Located s s' msg .freed := by
    refine located_move (p := .pc task) h.placed w.next (by simp) ?_ ?_ (ids_of_ne ?_ ?_ ?_ ?_)
    · show (s.pc task).holds.toList.Perm (msg :: (s'.pc task).holds.toList)
      rw [hholds, hnone]
      exact List.Perm.refl _
    · show s'.freed.Perm (msg :: s.freed)
      rw [hfreed]
    · intro queue _ _
      rw [hque]
    · intro i _ _
      rw [hheld]
    · intro i hne _
      rw [w.pc i fun heq => hne (congrArg Place.pc heq)]
    · intro _ hne
      exact absurd rfl hne
  have hphase := h.phase_work w hloc
    (fun other hsome => by rw [hnone] at hsome; exact absurd hsome nofun) hgiven
  -- what other tasks wait for is not this message
  have hiff (i m : ℕ) : DueTo s' i m ↔ DueTo s i m ∧ m ≠ msg := by
    constructor
    · rintro ⟨hlt, hunfreed, hi, hwaits⟩
      rw [hfreed] at hunfreed
      rw [w.caller] at hi hwaits
      exact ⟨⟨w.next ▸ hlt, fun hm => hunfreed (List.mem_cons_of_mem msg hm), hi, hwaits⟩,
        fun heq => hunfreed (heq ▸ List.mem_cons_self)⟩
    · rintro ⟨⟨hlt, hunfreed, hi, hwaits⟩, hne⟩
      refine ⟨w.next.symm ▸ hlt, ?_, by rw [w.caller]; exact hi, by rw [w.caller]; exact hwaits⟩
      rw [hfreed]
      exact fun hm => (List.mem_cons.mp hm).elim hne hunfreed
  refine h.work w (fun queue => ?_) hloc.placed hphase ?_ hprm ?_ ?_ ?_ hpcOk hmisused hresults
  · rw [hque]
    exact h.valid queue
  · intro m hle
    have hlt := h.lt_next hmem
    rw [w.given m (by omega)]
    exact h.unused m hle
  · intro m
    rw [hdue, h.due, hiff]
  · intro i hi m
    rw [hiff]
    refine ⟨And.left, fun hdueTo => ⟨hdueTo, ?_⟩⟩
    rintro rfl
    exact hi (hdueTo.caller.symm.trans (hcaller hdueTo.waits))
  · intro m hm
    rw [hargs (List.ne_nil_of_mem hm), w.caller]
    exact h.args task m ((hdue m).mp hm).1

/-- The parameter of a freed message that owns it is freed with it. -/
lemma Inv.prm_of_msg (h : Inv s) (w : Work s s' task msg) (hfreed : s'.freed = msg :: s.freed)
    (hprmFreed : s'.prmFreed = (s.caller msg).2.msgPrm.toList ++ s.prmFreed)
    (hlt : msg < s.next) (hunfreed : msg ∉ s.freed)
    (hcall : (s'.pc task).prm = (s.pc task).prm) : Placed (prmIds s') (· ∈ s'.passed) := by
  rw [w.passed]
  refine h.prmPlaced.move_toList (o := (s.caller msg).2.msgPrm) (p := .msg msg) (q := .freed)
    (by simp) ?_ ?_ fun r hrp hrq => ?_
  · unfold prmIds
    simp only [hfreed, w.next, w.caller, List.mem_cons_self, not_true, and_false, if_false,
      List.append_nil]
    rw [if_pos ⟨hlt, hunfreed⟩]
  · show s'.prmFreed.Perm _
    rw [hprmFreed]
    exact List.Perm.refl _
  · cases r with
    | call i =>
      show (s'.pc i).prm.toList = (s.pc i).prm.toList
      by_cases hi : i = task
      · rw [hi, hcall]
      · rw [w.pc i hi]
    | msg m =>
      have hne : m ≠ msg := fun heq => hrp (congrArg PrmPlace.msg heq)
      unfold prmIds
      simp only [w.next, w.caller, w.freed m hne]
    | freed => exact absurd rfl hrq

/-- The parameter of a call that owns it is freed by the call, or not yet. -/
lemma Inv.prm_of_call (h : Inv s) (w : Work s s' task msg) {o : Option ℕ}
    (hprmFreed : s'.prmFreed = o.toList ++ s.prmFreed)
    (hmsg : (s.caller msg).2.msgPrm = none)
    (hcall : (s.pc task).prm.toList = o.toList ++ (s'.pc task).prm.toList) :
    Placed (prmIds s') (· ∈ s'.passed) := by
  rw [w.passed]
  refine h.prmPlaced.move_toList (o := o) (p := .call task) (q := .freed) (by simp) ?_ ?_
    fun r hrp hrq => ?_
  · exact List.Perm.of_eq hcall
  · show s'.prmFreed.Perm _
    rw [hprmFreed]
    exact List.Perm.refl _
  · cases r with
    | call i =>
      show (s'.pc i).prm.toList = (s.pc i).prm.toList
      rw [w.pc i fun heq => hrp (congrArg PrmPlace.call heq)]
    | msg m =>
      unfold prmIds
      simp only [w.next, w.caller]
      by_cases heq : m = msg
      · rw [heq, hmsg, Option.toList_none, ite_self, ite_self]
      · simp only [w.freed m heq]
    | freed => exact absurd rfl hrq

/-! ## `OSA_mbxAckOrFreeMsg` -/

/-- A message that the receiver acknowledges gets the status, and goes to the sender. -/
lemma Inv.ack (h : Inv s) {ackRetVal : ℤ} {next : Then}
    (hp : s.pc task = .ackOrFree msg ackRetVal next) (hwaits : (s.caller msg).2.waits = true)
    (hfresh : s.given msg = []) :
    Inv (((s.give msg ackRetVal).setStatus msg ackRetVal).goto task
      (.sendAck msg (.ackMbx (s.caller msg).1) next)) := by
  set s' := ((s.give msg ackRetVal).setStatus msg ackRetVal).goto task
    (.sendAck msg (.ackMbx (s.caller msg).1) next)
  have hpc : s'.pc task = .sendAck msg (.ackMbx (s.caller msg).1) next := State.pc_goto_self _
  have hholds : (s.pc task).holds = some msg := by rw [hp]; rfl
  have hmsgs : s'.msgs msg = { s.msgs msg with status := ackRetVal } := Function.update_self ..
  have hgiven : s'.given msg = [ackRetVal] := by
    show Function.update s.given msg (s.given msg ++ [ackRetVal]) msg = [ackRetVal]
    rw [Function.update_self, hfresh]
    rfl
  have w : Work s s' task msg :=
    { pc := fun other hne => State.pc_goto_of_ne hne _
      next := rfl
      caller := rfl
      passed := rfl
      msgs := fun other hne => Function.update_of_ne hne ..
      fields := by rw [hmsgs]; exact ⟨rfl, rfl, rfl⟩
      given := fun other hne => Function.update_of_ne hne ..
      grows := fun hne => absurd hfresh hne
      freed := fun _ _ => Iff.rfl }
  have hids : ∀ r, ids s' r = ids s r :=
    ids_of_holds rfl rfl rfl w.pc (by rw [hpc, hholds]; rfl)
  have hloc : Located s s' msg (.pc task) :=
    located_stay h.placed rfl hids (mem_ids_pc hholds)
  have hnow : PhaseOk s' msg (phaseAt s' (.pc task)) := by
    show PhaseOk s' msg ((s'.pc task).phase task)
    rw [hpc]
    exact ⟨by rw [hgiven, hmsgs], hwaits, rfl⟩
  refine h.carry w h.valid hloc.placed (h.phase_work w hloc (fun other hsome => ?_) hnow)
    (fun m hle => ?_) rfl rfl rfl rfl ?_ ?_ (fun hne => ?_) ?_
  · rw [hpc] at hsome
    exact (Option.some.inj hsome).symm
  · have hlt := h.lt_next (mem_ids_pc hholds)
    rw [w.given m (by omega)]
    exact h.unused m hle
  · rw [hpc, hp]
    rfl
  · rw [hpc, hp]
    rfl
  · rw [hp] at hne
    exact absurd rfl hne
  · rw [hpc]
    trivial

/-- A message that the receiver does not acknowledge is freed, with its parameter. -/
lemma Inv.free (h : Inv s) {ackRetVal : ℤ} {next : Then}
    (hp : s.pc task = .ackOrFree msg ackRetVal next) (hwaits : ¬ (s.caller msg).2.waits = true)
    (hfresh : s.given msg = []) :
    Inv (((s.give msg ackRetVal).mbxFreeMsg msg).leave task next) := by
  have hholds : (s.pc task).holds = some msg := by rw [hp]; rfl
  have hmem : msg ∈ ids s (.pc task) := mem_ids_pc hholds
  have hunfreed : msg ∉ s.freed := h.notMem_freed hmem (by simp)
  have hok : MsgOk s msg := h.msgOk msg (h.lt_next hmem)
  have hok' : MsgOk (s.give msg ackRetVal) msg := ⟨hok.flags, hok.pPrm, hok.pFrom, hok.hasFrom⟩
  rw [mbxFreeMsg_eq hok' hunfreed]
  set t := ((s.give msg ackRetVal).freePrm ((s.give msg ackRetVal).caller msg).2.prm).freeMsgHndl
    msg
  obtain ⟨hheap, hque, hheld, hother⟩ := leave_frame t task next
  obtain ⟨hnone, hdue, hprm⟩ := (pc_leave t task next).facts
  have hkeeps : ¬ (s.caller msg).2.keepsPrm = true := fun hkeeps =>
    hwaits (Args.keepsPrm_waits hkeeps)
  have hgiven : (t.leave task next).given msg = [ackRetVal] := by
    rw [hheap.given]
    show Function.update s.given msg (s.given msg ++ [ackRetVal]) msg = [ackRetVal]
    rw [Function.update_self, hfresh]
    rfl
  have w : Work s (t.leave task next) task msg :=
    { pc := hother
      next := hheap.next
      caller := hheap.caller
      passed := hheap.passed
      msgs := fun other _ => congrFun hheap.msgs other
      fields := by rw [hheap.msgs]; exact ⟨rfl, rfl, rfl⟩
      given := fun other hne => by rw [hheap.given]; exact Function.update_of_ne hne ..
      grows := fun hne => absurd hfresh hne
      freed := fun other hne => by
        rw [hheap.freed]
        exact ⟨fun hm => (List.mem_cons.mp hm).resolve_left hne, List.mem_cons_of_mem msg⟩ }
  have hplaced := h.prm_of_msg w hheap.freed (hheap.prmFreed.trans ?_) (h.lt_next hmem) hunfreed ?_
  · refine h.release w hheap.freed hque hheld hholds hnone (by rw [hgiven]; simp)
      (fun hw => absurd hw hwaits) hplaced (fun m => ?_) (fun hne => absurd hdue hne)
      (pc_leave t task next).pcOk hheap.misused fun r hr => .inl (hheap.results ▸ hr)
    rw [hdue, hp]
    exact ⟨fun hm => absurd hm List.not_mem_nil, fun hm => absurd hm.1 List.not_mem_nil⟩
  · show (s.caller msg).2.prm.toList ++ s.prmFreed = (s.caller msg).2.msgPrm.toList ++ s.prmFreed
    rw [Args.msgPrm, if_neg hkeeps]
  · rw [hprm, hp]
    rfl

lemma Inv.ackOrFreeMsg (h : Inv s) {ackRetVal : ℤ} {next : Then}
    (hp : s.pc task = .ackOrFree msg ackRetVal next) :
    ∃ s', s.ackOrFreeMsg task msg ackRetVal next = some s' ∧ Inv s' := by
  have hholds : (s.pc task).holds = some msg := by rw [hp]; rfl
  have hmem : msg ∈ ids s (.pc task) := mem_ids_pc hholds
  have hok : MsgOk s msg := h.msgOk msg (h.lt_next hmem)
  have hfresh : s.given msg = [] := h.phase_pc hp rfl
  unfold State.ackOrFreeMsg
  simp only [h.access_eq hmem (by simp)]
  by_cases hwaits : (s.caller msg).2.waits = true
  · have hflag : hasWaitAck (s.msgs msg).flags = true := hok.waits_iff.mpr hwaits
    have hfrom : (s.msgs msg).pFrom = some (.ackMbx (s.caller msg).1) := by
      rw [hok.pFrom, if_pos]
      unfold Args.waits at hwaits
      rw [Bool.and_eq_true] at hwaits
      exact hwaits.2
    have hflag' : hasWaitAck ((s.give msg ackRetVal).msgs msg).flags = true := hflag
    have hfrom' : ((s.give msg ackRetVal).msgs msg).pFrom = some (.ackMbx (s.caller msg).1) := hfrom
    rw [if_pos hflag', hfrom']
    exact ⟨_, rfl, h.ack hp hwaits hfresh⟩
  · have hflag : ¬ hasWaitAck ((s.give msg ackRetVal).msgs msg).flags = true := fun hflag =>
      hwaits (hok.waits_iff.mp hflag)
    rw [if_neg hflag]
    exact ⟨_, rfl, h.free hp hwaits hfresh⟩

end Release

end IpncRdk.OsaMbx
