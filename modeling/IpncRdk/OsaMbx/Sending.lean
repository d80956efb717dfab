import IpncRdk.OsaMbx.Acknowledge

/-!
# The steps of a sending call

`OSA_mbxSendMsg` and `OSA_mbxBroadcastMsg` allocate and send their messages one after the other
and then, if they wait, take the acknowledgements until none is missing.
-/

namespace IpncRdk.OsaMbx

open Lib OsaQue

section Sending
variable {s s' : State} {task msg : ℕ} {a : Args}

/-! ## The beginning -/

/-- The state with a parameter in the hands of its call. -/
def State.taken (s : State) (task : ℕ) (a : Args) (pMbxTo : ℕ) (todo : List ℕ) : State :=
  (s.pass a.pPrm a.flags).goto task (.alloc a pMbxTo todo [])

section Taken
variable {pMbxTo : ℕ} {todo : List ℕ}

lemma pc_taken : (s.taken task a pMbxTo todo).pc task = .alloc a pMbxTo todo [] :=
  State.pc_goto_self _

lemma pc_taken_of_ne {other : ℕ} (hne : other ≠ task) :
    (s.taken task a pMbxTo todo).pc other = s.pc other :=
  State.pc_goto_of_ne hne _

lemma passed_taken : (s.taken task a pMbxTo todo).passed = a.prm.toList ++ s.passed := by
  show (if hasFreePrm a.flags then a.pPrm.toList ++ s.passed else s.passed) = _
  unfold Args.prm
  split <;> rfl

/-- No message changes hands. -/
lemma ids_taken (hp : s.pc task = .idle) (r : Place) :
    ids (s.taken task a pMbxTo todo) r = ids s r := by
  cases r with
  | pc i =>
    show ((s.taken task a pMbxTo todo).pc i).holds.toList = (s.pc i).holds.toList
    by_cases hi : i = task
    · rw [hi, pc_taken, hp]
      rfl
    · rw [pc_taken_of_ne hi]
  | _ => rfl

lemma dueTo_taken (i m : ℕ) : DueTo (s.taken task a pMbxTo todo) i m ↔ DueTo s i m :=
  ⟨fun hd => ⟨hd.lt, hd.unfreed, hd.caller, hd.waits⟩,
    fun hd => ⟨hd.lt, hd.unfreed, hd.caller, hd.waits⟩⟩

lemma due_taken : ((s.taken task a pMbxTo todo).pc task).due = [] := by
  rw [pc_taken]
  exact ite_self []

/-- The parameter is new, and it is now with the call. -/
lemma Inv.prmPlaced_taken (h : Inv s) (hp : s.pc task = .idle)
    (hnew : hasFreePrm a.flags = true → ∀ p ∈ a.pPrm.toList, p ∉ s.passed) :
    Placed (prmIds (s.taken task a pMbxTo todo))
      (· ∈ (s.taken task a pMbxTo todo).passed) := by
  rw [passed_taken]
  refine (h.prmPlaced.insert_toList (o := a.prm) (q := .call task) ?_ ?_
    fun r hr => ?_).congr fun p => List.mem_append.symm
  · intro p hpm
    unfold Args.prm at hpm
    split at hpm
    · exact hnew ‹_› p hpm
    · exact absurd hpm List.not_mem_nil
  · show ((s.taken task a pMbxTo todo).pc task).prm.toList.Perm
      (a.prm.toList ++ (s.pc task).prm.toList)
    rw [pc_taken, hp]
    exact List.Perm.of_eq (List.append_nil _).symm
  · cases r with
    | call i =>
      show ((s.taken task a pMbxTo todo).pc i).prm.toList = (s.pc i).prm.toList
      rw [pc_taken_of_ne fun heq => hr (congrArg PrmPlace.call heq)]
    | _ => rfl

/-- Every message is in the phase it was in. -/
lemma Inv.phase_taken (h : Inv s) (hp : s.pc task = .idle) (r : Place) :
    ∀ m ∈ ids (s.taken task a pMbxTo todo) r,
      PhaseOk (s.taken task a pMbxTo todo) m (phaseAt (s.taken task a pMbxTo todo) r) := by
  intro m hm
  have hr : r ≠ .pc task := by
    rintro rfl
    have hm' : m ∈ ((s.taken task a pMbxTo todo).pc task).holds.toList := hm
    rw [pc_taken] at hm'
    exact List.not_mem_nil hm'
  rw [phaseAt_eq (fun _ => pc_taken_of_ne) hr]
  rw [ids_taken hp] at hm
  exact (h.phase r m hm).of_eq rfl rfl rfl

end Taken

/-- A parameter comes into the hands of its call. -/
lemma Inv.callSend (h : Inv s) (hp : s.pc task = .idle)
    (hallowed : SendAllowed s a.hasFrom a.pPrm a.flags) {pMbxTo : ℕ} {todo : List ℕ}
    (hsingle : a.Single → todo = []) :
    Inv ((s.pass a.pPrm a.flags).goto task (.alloc a pMbxTo todo [])) := by
  obtain ⟨hfrom, hnew⟩ := hallowed
  show Inv (s.taken task a pMbxTo todo)
  exact
    { valid := h.valid
      placed := h.placed.of_perm fun r => List.Perm.of_eq (ids_taken hp r)
      prmPlaced := h.prmPlaced_taken hp hnew
      msgOk := fun m hlt =>
        have hok := h.msgOk m hlt
        ⟨hok.flags, hok.pPrm, hok.pFrom, hok.hasFrom⟩
      unused := h.unused
      phase := h.phase_taken hp
      due := fun i m => by
        rw [dueTo_taken, ← h.due]
        by_cases hi : i = task
        · rw [hi, due_taken, hp]
          rfl
        · rw [pc_taken_of_ne hi]
      args := fun i m hm => by
        by_cases hi : i = task
        · rw [hi, due_taken] at hm
          exact absurd hm List.not_mem_nil
        · rw [pc_taken_of_ne hi] at hm ⊢
          exact h.args i m hm
      pcOk := fun i => by
        by_cases hi : i = task
        · rw [hi, pc_taken]
          exact ⟨hfrom, fun _ => List.nodup_nil, fun hone => ⟨hsingle hone, rfl⟩⟩
        · rw [pc_taken_of_ne hi]
          exact (h.pcOk i).mono fun _ _ => rfl
      unmisused := h.unmisused
      results := fun r hr => (h.results r hr).mono fun _ _ => rfl }

/-! ## Allocation -/

/-- The parameter of a call with a first message is that of the message, or stays with the
call. -/
lemma prm_split (a : Args) : a.prm.toList = a.msgPrm.toList ++ a.callPrm.toList := by
  unfold Args.msgPrm Args.callPrm
  split_ifs
  · rfl
  · exact (List.append_nil _).symm

/-- A call with several messages has none that owns the parameter. -/
lemma msgPrm_of_not_single (h : ¬ a.Single) : a.msgPrm = none := by
  unfold Args.Single at h
  push Not at h
  obtain ⟨hbroadcast, hprm⟩ := h
  unfold Args.msgPrm Args.keepsPrm
  by_cases hwaits : a.waits = true
  · rw [if_pos (by simp [hbroadcast, hwaits])]
  · rw [hprm (by simpa using hwaits), ite_self]

/-- The state with a new message, in the hands of its call. -/
def State.allocated (s : State) (task : ℕ) (a : Args) (pMbxTo : ℕ) (todo sent : List ℕ) : State :=
  s.allocMsgHndl task a pMbxTo todo sent true

section Allocated
variable {pMbxTo : ℕ} {todo sent : List ℕ}

lemma pc_allocated :
    (s.allocated task a pMbxTo todo sent).pc task = .put a s.next pMbxTo todo sent :=
  Function.update_self ..

lemma pc_allocated_of_ne {other : ℕ} (hne : other ≠ task) :
    (s.allocated task a pMbxTo todo sent).pc other = s.pc other :=
  Function.update_of_ne hne ..

lemma caller_allocated : (s.allocated task a pMbxTo todo sent).caller s.next = (task, a) :=
  Function.update_self ..

lemma caller_allocated_of_ne {m : ℕ} (hne : m ≠ s.next) :
    (s.allocated task a pMbxTo todo sent).caller m = s.caller m :=
  Function.update_of_ne hne ..

lemma msgs_allocated_of_ne {m : ℕ} (hne : m ≠ s.next) :
    (s.allocated task a pMbxTo todo sent).msgs m = s.msgs m :=
  Function.update_of_ne hne ..

lemma next_allocated : (s.allocated task a pMbxTo todo sent).next = s.next + 1 := rfl

lemma ids_allocated : ids (s.allocated task a pMbxTo todo sent) (.pc task) = [s.next] := by
  show ((s.allocated task a pMbxTo todo sent).pc task).holds.toList = [s.next]
  rw [pc_allocated]
  rfl

lemma ids_allocated_of_ne {r : Place} (hr : r ≠ .pc task) :
    ids (s.allocated task a pMbxTo todo sent) r = ids s r := by
  cases r with
  | pc i =>
    show ((s.allocated task a pMbxTo todo sent).pc i).holds.toList = (s.pc i).holds.toList
    rw [pc_allocated_of_ne fun heq => hr (congrArg Place.pc heq)]
  | _ => rfl

/-- The next handle is nowhere yet. -/
lemma Inv.next_notMem (h : Inv s) (r : Place) : s.next ∉ ids s r := fun hm =>
  Nat.lt_irrefl _ (h.lt_next hm)

lemma due_alloc (hp : s.pc task = .alloc a pMbxTo todo sent) :
    (s.pc task).due = if a.waits then sent else [] := by
  rw [hp]
  rfl

lemma due_allocated : ((s.allocated task a pMbxTo todo sent).pc task).due
    = if a.waits then sent ++ [s.next] else [] := by
  rw [pc_allocated]
  rfl

/-- The messages sent so far are older. -/
lemma Inv.sent_lt (h : Inv s) (hp : s.pc task = .alloc a pMbxTo todo sent)
    (hwaits : a.waits = true) {m : ℕ} (hm : m ∈ sent) : m < s.next := by
  refine ((h.due task m).mp ?_).lt
  rw [due_alloc hp, if_pos hwaits]
  exact hm

/-- What a task waits for, with the new message. -/
lemma Inv.dueTo_allocated (h : Inv s) (i m : ℕ) :
    DueTo (s.allocated task a pMbxTo todo sent) i m ↔
      DueTo s i m ∨ (m = s.next ∧ i = task ∧ a.waits = true) := by
  constructor
  · rintro ⟨hlt, hunfreed, hi, hwaits⟩
    rw [next_allocated] at hlt
    by_cases hm : m = s.next
    · rw [hm, caller_allocated] at hi hwaits
      exact .inr ⟨hm, hi.symm, hwaits⟩
    · rw [caller_allocated_of_ne hm] at hi hwaits
      exact .inl ⟨by omega, hunfreed, hi, hwaits⟩
  · rintro (⟨hlt, hunfreed, hi, hwaits⟩ | ⟨rfl, rfl, hwaits⟩)
    · have hm : m ≠ s.next := Nat.ne_of_lt hlt
      exact ⟨Nat.lt_succ_of_lt hlt, hunfreed, by rw [caller_allocated_of_ne hm, hi],
        by rw [caller_allocated_of_ne hm, hwaits]⟩
    · exact ⟨Nat.lt_succ_self _, h.next_notMem .freed, by rw [caller_allocated],
        by rw [caller_allocated]; exact hwaits⟩

/-- A parameter goes over to the first message of its call, if that owns it. -/
lemma Inv.prmPlaced_allocated (h : Inv s) (hp : s.pc task = .alloc a pMbxTo todo sent)
    (hsingle : a.Single → todo = [] ∧ sent = []) :
    Placed (prmIds (s.allocated task a pMbxTo todo sent)) (· ∈ s.passed) := by
  set s' := s.allocated task a pMbxTo todo sent
  refine h.prmPlaced.move_toList (o := if sent = [] then a.msgPrm else none) (p := .call task)
    (q := .msg s.next) (by simp) ?_ ?_ fun r hrp hrq => ?_
  · show (s.pc task).prm.toList.Perm (_ ++ (s'.pc task).prm.toList)
    rw [hp, pc_allocated]
    show (if sent = [] then a.prm else a.callPrm).toList.Perm (_ ++ a.callPrm.toList)
    split
    · exact List.Perm.of_eq (prm_split a)
    · exact List.Perm.refl _
  · have hold : prmIds s (.msg s.next) = [] := if_neg fun hlt => Nat.lt_irrefl _ hlt.1
    have hlive : prmIds s' (.msg s.next) = a.msgPrm.toList := by
      show (if s.next < s'.next ∧ s.next ∉ s'.freed then (s'.caller s.next).2.msgPrm.toList
        else []) = a.msgPrm.toList
      rw [if_pos ⟨Nat.lt_succ_self _, h.next_notMem .freed⟩, caller_allocated]
    rw [hold, hlive, List.append_nil]
    by_cases hempty : sent = []
    · rw [if_pos hempty]
    · rw [if_neg hempty, msgPrm_of_not_single fun hone => hempty (hsingle hone).2]
  · cases r with
    | call i =>
      show (s'.pc i).prm.toList = (s.pc i).prm.toList
      rw [pc_allocated_of_ne fun heq => hrp (congrArg PrmPlace.call heq)]
    | msg m =>
      have hm : m ≠ s.next := fun heq => hrq (congrArg PrmPlace.msg heq)
      show (if m < s'.next ∧ m ∉ s.freed then (s'.caller m).2.msgPrm.toList else [])
        = if m < s.next ∧ m ∉ s.freed then (s.caller m).2.msgPrm.toList else []
      have hlt : m < s'.next ↔ m < s.next := by
        rw [next_allocated]
        omega
      rw [caller_allocated_of_ne hm]
      simp only [hlt]
    | freed => rfl

/-- The new message is for its call, and no other is touched. -/
lemma Inv.msgOk_allocated (h : Inv s) (hfrom : hasWaitAck a.flags = true → a.hasFrom = true)
    {m : ℕ} (hlt : m < s.next + 1) : MsgOk (s.allocated task a pMbxTo todo sent) m := by
  by_cases hm : m = s.next
  · have hmsg : (s.allocated task a pMbxTo todo sent).msgs s.next
        = ⟨.rcvMbx pMbxTo, if a.hasFrom then some (.ackMbx task) else none, a.pPrm, osaSok,
          a.cmd % 2 ^ 16, a.flags % 2 ^ 16⟩ := Function.update_self ..
    rw [hm]
    refine ⟨?_, ?_, ?_, ?_⟩ <;> simp only [hmsg, caller_allocated]
    exact hfrom
  · have hok := h.msgOk m (by omega)
    exact ⟨by rw [msgs_allocated_of_ne hm, caller_allocated_of_ne hm, hok.flags],
      by rw [msgs_allocated_of_ne hm, caller_allocated_of_ne hm, hok.pPrm],
      by rw [msgs_allocated_of_ne hm, caller_allocated_of_ne hm, hok.pFrom],
      by rw [caller_allocated_of_ne hm]; exact hok.hasFrom⟩

/-- A task waits for messages of the call it is in. -/
lemma Inv.args_allocated (h : Inv s) (hp : s.pc task = .alloc a pMbxTo todo sent) {i m : ℕ}
    (hm : m ∈ ((s.allocated task a pMbxTo todo sent).pc i).due) :
    ((s.allocated task a pMbxTo todo sent).pc i).args
      = some ((s.allocated task a pMbxTo todo sent).caller m).2 := by
  by_cases hi : i = task
  · subst hi
    rw [due_allocated] at hm
    split at hm
    · rename_i hwaits
      rcases List.mem_append.mp hm with hold | hnew
      · have hmem : m ∈ (s.pc i).due := by
          rw [due_alloc hp, if_pos hwaits]
          exact hold
        have hargs := h.args i m hmem
        rw [pc_allocated, caller_allocated_of_ne (Nat.ne_of_lt (h.sent_lt hp hwaits hold))]
        rw [hp] at hargs
        exact hargs
      · rw [List.mem_singleton.mp hnew, pc_allocated, caller_allocated]
        rfl
    · exact absurd hm List.not_mem_nil
  · rw [pc_allocated_of_ne hi] at hm ⊢
    rw [caller_allocated_of_ne (Nat.ne_of_lt ((h.due i m).mp hm).lt)]
    exact h.args i m hm

end Allocated

lemma Inv.allocMsgHndl (h : Inv s) {pMbxTo : ℕ} {todo sent : List ℕ}
    (hp : s.pc task = .alloc a pMbxTo todo sent) :
    Inv (s.allocMsgHndl task a pMbxTo todo sent true) := by
  show Inv (s.allocated task a pMbxTo todo sent)
  have hpcOk : PcOk s (.alloc a pMbxTo todo sent) := h.pcOk_of_eq hp
  obtain ⟨hfrom, hnodup, hsingle⟩ := hpcOk
  exact
    { valid := h.valid
      placed := by
        refine (h.placed.insert (a := s.next) (q := .pc task) (Nat.lt_irrefl _) ?_
          fun r hr => ids_allocated_of_ne hr).congr fun m => by rw [next_allocated]; omega
        rw [ids_allocated]
        show [s.next].Perm (s.next :: (s.pc task).holds.toList)
        rw [hp]
        exact List.Perm.refl _
      prmPlaced := h.prmPlaced_allocated hp hsingle
      msgOk := fun m hlt => h.msgOk_allocated hfrom hlt
      unused := fun m hle => h.unused m (Nat.le_of_succ_le hle)
      phase := fun r m hm => by
        by_cases hr : r = .pc task
        · subst hr
          rw [ids_allocated, List.mem_singleton] at hm
          show PhaseOk _ m (((s.allocated task a pMbxTo todo sent).pc task).phase task)
          rw [pc_allocated, hm]
          exact h.unused s.next le_rfl
        · rw [ids_allocated_of_ne hr] at hm
          rw [phaseAt_eq (fun other hne => pc_allocated_of_ne hne) hr]
          have hne : m ≠ s.next := fun heq => h.next_notMem r (heq ▸ hm)
          exact (h.phase r m hm).of_eq rfl (msgs_allocated_of_ne hne) (caller_allocated_of_ne hne)
      due := fun i m => by
        rw [h.dueTo_allocated, ← h.due]
        by_cases hi : i = task
        · subst hi
          rw [due_allocated, due_alloc hp]
          by_cases hwaits : a.waits = true
          · rw [if_pos hwaits, if_pos hwaits, List.mem_append, List.mem_singleton]
            simp [hwaits]
          · rw [if_neg hwaits, if_neg hwaits]
            simp [hwaits]
        · rw [pc_allocated_of_ne hi]
          exact (or_iff_left fun hm => hi hm.2.1).symm
      args := fun i m hm => h.args_allocated hp hm
      pcOk := fun i => by
        by_cases hi : i = task
        · rw [hi, pc_allocated]
          refine ⟨hfrom, fun hwaits => ?_, hsingle⟩
          refine List.nodup_append.mpr ⟨hnodup hwaits, List.nodup_singleton _, ?_⟩
          intro m hm x hx
          have hlt := h.sent_lt hp hwaits hm
          have hx := List.mem_singleton.mp hx
          omega
        · rw [pc_allocated_of_ne hi]
          exact (h.pcOk i).mono fun _ _ => rfl
      unmisused := h.unmisused
      results := fun r hr => (h.results r hr).mono fun _ _ => rfl }

/-! ## Sending -/

/-- Nothing is answered when the wait begins. -/
lemma waitOk_start {sent : List ℕ} (hwaits : a.waits = true) (hnodup : sent.Nodup)
    (hne : sent ≠ []) (hone : a.broadcast = false → ∃ m, sent = [m]) :
    WaitOk s a (sent.map fun m => (m, false)) osaSok := by
  have hanswered : answered (sent.map fun m => (m, false)) = [] := by
    refine List.eq_nil_iff_forall_not_mem.mpr fun m hm => ?_
    obtain ⟨k, -, hk⟩ := List.mem_map.mp (mem_answered.mp hm)
    exact absurd (Prod.mk.inj hk).2 (by decide)
  refine ⟨hwaits, ?_, ?_, fun hb => ?_, ?_⟩
  · rw [List.map_map]
    show (sent.map id).Nodup
    rwa [List.map_id]
  · obtain ⟨m, hm⟩ := List.exists_mem_of_ne_nil sent hne
    exact List.ne_nil_of_mem (mem_missing.mpr (List.mem_map.mpr ⟨m, hm, rfl⟩))
  · obtain ⟨m, rfl⟩ := hone hb
    exact ⟨m, rfl⟩
  · rw [hanswered]
    exact ⟨fun m hm => absurd hm List.not_mem_nil,
      iff_of_true rfl fun m hm => absurd hm List.not_mem_nil⟩

lemma missing_start (sent : List ℕ) : missing (sent.map fun m => (m, false)) = sent := by
  unfold missing
  rw [List.filter_map, List.map_map]
  show ((sent.filter fun _ => true).map id) = sent
  rw [List.map_id, List.filter_true]

/-- The next place of a call that has sent a message, and what of it is as before. -/
lemma sendNext_frame (t : State) (task : ℕ) {msg pMbxTo : ℕ} {todo sent : List ℕ}
    (hok : PcOk s (.put a msg pMbxTo todo sent)) :
    let s' := t.sendNext task a todo (sent ++ [msg])
    SameHeap t s' ∧ s'.que = t.que ∧ s'.held = t.held ∧
      (∀ other, other ≠ task → s'.pc other = t.pc other) ∧ (s'.pc task).holds = none ∧
      (s'.pc task).prm = a.callPrm ∧
      (s'.pc task).due = (if a.waits then sent ++ [msg] else []) ∧
      (a.waits = true → (s'.pc task).args = some a) ∧ PcOk s (s'.pc task) := by
  obtain ⟨hfrom, hnodup, hsingle⟩ := hok
  have hheap (pc : Pc) : SameHeap t (t.goto task pc) := sameHeap_of_eq rfl
  cases todo with
  | cons next todo =>
    have hpc : (t.goto task (.alloc a next todo (sent ++ [msg]))).pc task
        = .alloc a next todo (sent ++ [msg]) := State.pc_goto_self _
    simp only [State.sendNext]
    refine ⟨hheap _, rfl, rfl, fun other hne => State.pc_goto_of_ne hne _, ?_⟩
    rw [hpc]
    refine ⟨rfl, if_neg (by simp), rfl, fun _ => rfl, hfrom, hnodup, fun hone => ?_⟩
    exact absurd (hsingle hone).1 (by simp)
  | nil =>
    unfold State.sendNext
    by_cases hwaits : a.waits = true
    · simp only [if_pos hwaits]
      refine ⟨hheap _, rfl, rfl, fun other hne => State.pc_goto_of_ne hne _, ?_⟩
      rw [State.pc_goto_self]
      refine ⟨rfl, rfl, missing_start _, fun _ => rfl, ?_⟩
      refine waitOk_start hwaits (hnodup hwaits) (by simp) fun hb => ⟨msg, ?_⟩
      rw [(hsingle (.inl hb)).2]
      rfl
    · simp only [if_neg hwaits]
      refine ⟨sameHeap_of_eq rfl, rfl, rfl,
        fun other hne => State.pc_ret_of_ne hne osaSok, ?_⟩
      rw [State.pc_ret_self]
      refine ⟨rfl, ?_, rfl, fun hw => absurd hw hwaits, trivial⟩
      exact (if_neg fun hkeeps => hwaits (Args.keepsPrm_waits hkeeps)).symm

lemma Inv.sendMsg (h : Inv s) {pMbxTo : ℕ} {todo sent : List ℕ}
    (hp : s.pc task = .put a msg pMbxTo todo sent) :
    ∃ s', s.sendMsg task a msg pMbxTo todo sent = some s' ∧ Inv s' := by
  have hpcOk : PcOk s (.put a msg pMbxTo todo sent) := h.pcOk_of_eq hp
  have hholds : (s.pc task).holds = some msg := by rw [hp]; rfl
  have hfresh : s.given msg = [] := h.phase_pc hp rfl
  unfold State.sendMsg osaMsgqSend
  rcases (h.valid (.rcvMbx pMbxTo)).putPass_forever msg with hput | ⟨hndl, hput, hvalid, hcontents⟩
  · rw [hput]
    exact ⟨s, rfl, h⟩
  · rw [hput]
    refine ⟨_, rfl, ?_⟩
    obtain ⟨hheap, hque, hheld, hother, hnone, hprm, hdue, hargs, hok⟩ :=
      sendNext_frame (s.setQue (.rcvMbx pMbxTo) hndl) task hpcOk
    have hdueOld : (s.pc task).due = if a.waits then sent ++ [msg] else [] := by rw [hp]; rfl
    refine h.enqueue hvalid hcontents hholds hheap.of_setQue hother hque hheld hnone hfresh ?_ ?_
      ?_ hok
    · rw [hprm, hp]
      rfl
    · rw [hdue, hdueOld]
    · intro hne
      rw [hdueOld] at hne
      have hwaits : a.waits = true := by
        by_contra hwaits
        exact hne (if_neg hwaits)
      rw [hargs hwaits, hp]
      rfl

/-! ## Acknowledgements -/

lemma Inv.recvAck (h : Inv s) {sent : List (ℕ × Bool)} {ackRetVal : ℤ}
    (hp : s.pc task = .waitAck a sent ackRetVal) :
    ∃ s', s.recvAck task a sent ackRetVal = some s' ∧ Inv s' := by
  have hpcOk : PcOk s (.waitAck a sent ackRetVal) := h.pcOk_of_eq hp
  have hnone : (s.pc task).holds = none := by rw [hp]; rfl
  unfold State.recvAck osaMsgqRecvMsg
  cases hcontents : (s.que (.ackMbx task)).contents with
  | nil =>
    rw [OsaQue.getPass_nil hcontents]
    exact ⟨s, rfl, h⟩
  | cons msg rest =>
    obtain ⟨hndl, hget, hvalid, -, hrest⟩ :=
      (h.valid _).getPass_cons hcontents osaTimeoutForever
    rw [hget]
    rw [← hrest] at hcontents
    have hmem : msg ∈ ids s (.que (.ackMbx task)) := by
      show msg ∈ (s.que (.ackMbx task)).contents
      rw [hcontents]
      exact List.mem_cons_self
    refine ⟨_, rfl, h.dequeue hvalid hcontents hnone rfl (h.phase _ msg hmem) ?_ ?_ ?_ hpcOk⟩
    · rw [hp]
      rfl
    · rw [hp]
      rfl
    · intro _
      rw [hp]
      rfl

/-- An acknowledgement that a call has taken is one that is missing. -/
lemma Inv.acked_facts (h : Inv s) {sent : List (ℕ × Bool)} {ackRetVal : ℤ}
    (hp : s.pc task = .acked a sent ackRetVal msg) :
    msg ∈ missing sent ∧ s.given msg = [(s.msgs msg).status] ∧ s.caller msg = (task, a) := by
  have hholds : (s.pc task).holds = some msg := by rw [hp]; rfl
  have hmem : msg ∈ ids s (.pc task) := mem_ids_pc hholds
  have hacked : Acked s msg (.ackMbx task) := h.phase_pc hp rfl
  obtain ⟨hgiven, hwaits, hqueue⟩ := hacked
  have htask : (s.caller msg).1 = task := (Queue.ackMbx.inj hqueue).symm
  have hdue : msg ∈ (s.pc task).due :=
    (h.due task msg).mpr ⟨h.lt_next hmem, h.notMem_freed hmem (by simp), htask, hwaits⟩
  have hargs := h.args task msg hdue
  rw [hp] at hdue hargs
  exact ⟨hdue, hgiven, Prod.ext htask (Option.some.inj hargs).symm⟩

/-- What a task leaves alone that frees the message it has been acknowledged, and perhaps a
parameter. -/
lemma work_free {o : Option ℕ} (t : State)
    (hheap : SameHeap ((s.freePrm o).freeMsgHndl msg) { t with results := s.results })
    (hother : ∀ other, other ≠ task → t.pc other = s.pc other) : Work s t task msg where
  pc := hother
  next := hheap.next
  caller := hheap.caller
  passed := hheap.passed
  msgs other _ := congrFun hheap.msgs other
  fields := by
    have hmsgs : t.msgs = s.msgs := hheap.msgs
    rw [hmsgs]
    exact ⟨rfl, rfl, rfl⟩
  given other _ := congrFun hheap.given other
  grows _ := congrFun hheap.given msg
  freed other hne := by
    have hfreed : t.freed = msg :: s.freed := hheap.freed
    rw [hfreed]
    exact ⟨fun hm => (List.mem_cons.mp hm).resolve_left hne, List.mem_cons_of_mem msg⟩

/-- `OSA_mbxSendMsg` returns with the acknowledgement of its message. -/
lemma Inv.sendAcked (h : Inv s) {sent : List (ℕ × Bool)} {ackRetVal : ℤ}
    (hp : s.pc task = .acked a sent ackRetVal msg) (hbroadcast : a.broadcast = false) :
    Inv (s.sendAcked task a sent ackRetVal msg) := by
  have hok : WaitOk s a sent ackRetVal := h.pcOk_of_eq hp
  obtain ⟨hmissing, hgiven, hcaller⟩ := h.acked_facts hp
  obtain ⟨m, rfl⟩ := hok.one hbroadcast
  obtain rfl : msg = m := by
    have := (List.mem_singleton.mp (mem_missing.mp hmissing))
    exact (Prod.mk.inj this).1
  have hholds : (s.pc task).holds = some msg := by rw [hp]; rfl
  have hmem : msg ∈ ids s (.pc task) := mem_ids_pc hholds
  have hunfreed : msg ∉ s.freed := h.notMem_freed hmem (by simp)
  have hkeeps : ¬ a.keepsPrm = true := by
    unfold Args.keepsPrm
    simp [hbroadcast]
  have hmark : markAck msg [(msg, false)] = some [(msg, true)] := if_pos rfl
  unfold State.sendAcked
  rw [hmark, mbxFreeMsg_eq (h.msgOk msg (h.lt_next hmem)) hunfreed, hcaller]
  set s' := ((s.freePrm a.prm).freeMsgHndl msg).finish task a [(msg, true)] (s.msgs msg).status
  have hpc : s'.pc task = .idle := State.pc_ret_self (s.msgs msg).status
  have hother : ∀ other, other ≠ task → s'.pc other = s.pc other := fun other hne =>
    State.pc_ret_of_ne hne (s.msgs msg).status
  have w : Work s s' task msg :=
    work_free (o := a.prm) s' (sameHeap_of_eq rfl) hother
  have hplaced := h.prm_of_msg w rfl ?_ (h.lt_next hmem) hunfreed ?_
  · refine h.release w rfl rfl rfl hholds (by rw [hpc]; rfl) ?_ (fun _ => by rw [hcaller]) hplaced
      (fun x => ?_) (fun hne => ?_) (by rw [hpc]; trivial) rfl fun r hr => ?_
    · show s.given msg ≠ []
      rw [hgiven]
      simp
    · rw [hpc, hp]
      show x ∈ [] ↔ x ∈ missing [(msg, false)] ∧ x ≠ msg
      rw [mem_missing, List.mem_singleton, Prod.mk.injEq]
      simp
    · rw [hpc] at hne
      exact absurd rfl hne
    · rcases List.mem_cons.mp hr with hnew | hold
      · refine .inr ?_
        rw [hnew]
        unfold Result.Ok
        rw [if_neg (by simp [hbroadcast])]
        exact ⟨msg, rfl, hgiven⟩
      · exact .inl hold
  · show a.prm.toList ++ s.prmFreed = _
    rw [hcaller, Args.msgPrm, if_neg hkeeps]
  · rw [hpc, hp]
    exact (if_neg hkeeps).symm

/-- `OSA_mbxBroadcastMsg` takes an acknowledgement, and returns with the last. -/
lemma Inv.broadcastAcked (h : Inv s) {sent : List (ℕ × Bool)} {ackRetVal : ℤ}
    (hp : s.pc task = .acked a sent ackRetVal msg) (hbroadcast : a.broadcast = true) :
    Inv (s.broadcastAcked task a sent ackRetVal msg) := by
  have hok : WaitOk s a sent ackRetVal := h.pcOk_of_eq hp
  obtain ⟨hmissing, hgiven, hcaller⟩ := h.acked_facts hp
  obtain ⟨sent', hmark, hkeys, hmissing', hanswered'⟩ := markAck_missing hok.nodup hmissing
  have hholds : (s.pc task).holds = some msg := by rw [hp]; rfl
  have hmem : msg ∈ ids s (.pc task) := mem_ids_pc hholds
  have hunfreed : msg ∉ s.freed := h.notMem_freed hmem (by simp)
  have hkeeps : a.keepsPrm = true := by
    unfold Args.keepsPrm
    rw [hbroadcast, hok.waits]
    rfl
  have hmsgPrm : (s.caller msg).2.msgPrm = none := by
    rw [hcaller]
    exact if_pos hkeeps
  have hgiven' : s.given msg ≠ [] := by
    rw [hgiven]
    simp
  unfold State.broadcastAcked
  rw [hmark, h.access_eq hmem (by simp)]
  simp only
  set status := if ackRetVal = osaSok then (s.msgs msg).status else ackRetVal
  have hverdict : Verdict s (answered sent') status := hok.verdict.insert hgiven hanswered'
  have hdueOld : (s.pc task).due = missing sent := by rw [hp]; rfl
  have hprmOld : (s.pc task).prm = a.prm := by
    rw [hp]
    exact if_pos hkeeps
  unfold State.waitMore
  by_cases hmore : missing sent' = []
  · -- the last one: the parameter is freed, and the call returns
    have hlast : ¬ (sent'.any fun msg => !msg.2) = true := fun hany =>
      any_iff_missing.mp hany hmore
    have hfree : (if hasFreePrm a.flags then (s.freeMsgHndl msg).freePrm a.pPrm
        else s.freeMsgHndl msg) = (s.freePrm a.prm).freeMsgHndl msg := by
      unfold Args.prm
      split_ifs <;> rfl
    rw [if_neg hlast, hfree]
    simp only
    set s' := ((s.freePrm a.prm).freeMsgHndl msg).finish task a sent' status
    have hpc : s'.pc task = .idle := State.pc_ret_self status
    have w : Work s s' task msg :=
      work_free (o := a.prm) s' (sameHeap_of_eq rfl)
        fun other hne => State.pc_ret_of_ne hne status
    have hplaced := h.prm_of_call w (o := a.prm) rfl hmsgPrm
      (by rw [hprmOld, hpc]; exact (List.append_nil _).symm)
    refine h.release w rfl rfl rfl hholds (by rw [hpc]; rfl) hgiven' (fun _ => by rw [hcaller])
      hplaced (fun x => ?_) (fun hne => ?_) (by rw [hpc]; trivial) rfl fun r hr => ?_
    · rw [hpc, hdueOld, ← hmissing', hmore]
      rfl
    · rw [hpc] at hne
      exact absurd rfl hne
    · rcases List.mem_cons.mp hr with hnew | hold
      · refine .inr ?_
        rw [hnew]
        unfold Result.Ok
        rw [if_pos hbroadcast]
        exact (hverdict.of_mem_iff fun x => mem_answered_of_missing hmore).mono fun _ _ => rfl
      · exact .inl hold
  · rw [if_pos (any_iff_missing.mpr hmore)]
    set s' := (s.freeMsgHndl msg).goto task (.waitAck a sent' status)
    have hpc : s'.pc task = .waitAck a sent' status := State.pc_goto_self _
    have w : Work s s' task msg :=
      work_free (o := none) s' (sameHeap_of_eq rfl)
        fun other hne => State.pc_goto_of_ne hne _
    have hplaced := h.prm_of_call w (o := none) rfl hmsgPrm
      (by rw [hprmOld, hpc]; exact congrArg Option.toList (if_pos hkeeps).symm)
    refine h.release w rfl rfl rfl hholds (by rw [hpc]; rfl) hgiven' (fun _ => by rw [hcaller])
      hplaced (fun x => ?_) (fun _ => by rw [hpc, hp]; rfl) ?_ rfl fun r hr => .inl hr
    · rw [hpc, hdueOld]
      exact hmissing' x
    · rw [hpc]
      refine ⟨hok.waits, hkeys ▸ hok.nodup, hmore, fun hb => ?_, hverdict.mono fun _ _ => rfl⟩
      exact absurd (hbroadcast.symm.trans hb) (by decide)

end Sending

end IpncRdk.OsaMbx
