import IpncRdk.OsaMbx.Steps

/-!
# The steps of the calls

One lemma for each step of `OSA_mbxSendMsg`, `OSA_mbxBroadcastMsg` and the receiving calls: from
the invariant before it, that it is defined and keeps the invariant.
-/

namespace IpncRdk.OsaMbx

open Lib OsaQue

section Calls
variable {s s' : State} {task msg : ℕ}

/-! ## Steps without a handle -/

/-- A place without a handle, an acknowledgement that is due, or a parameter. -/
def Pc.Quiet : Pc → Prop
  | .idle | .recv .. | .flushAck .. => True
  | _ => False

lemma Pc.Quiet.facts {pc : Pc} (h : pc.Quiet) : pc.holds = none ∧ pc.due = [] ∧ pc.prm = none := by
  cases pc with
  | idle | recv | flushAck => exact ⟨rfl, rfl, rfl⟩
  | _ => exact h.elim

lemma Pc.Quiet.pcOk {pc : Pc} (h : pc.Quiet) : PcOk s pc := by
  cases pc with
  | idle | recv | flushAck => trivial
  | _ => exact h.elim

/-- A task goes from one such place to another. -/
lemma Inv.quiet (h : Inv s) (hheap : SameHeap s s')
    (hpc : ∀ other, other ≠ task → s'.pc other = s.pc other) (hque : s'.que = s.que)
    (hheld : s'.held = s.held) (hold : (s.pc task).Quiet) (hnew : (s'.pc task).Quiet) :
    Inv s' := by
  obtain ⟨hholds, hdue, hprm⟩ := hold.facts
  obtain ⟨hholds', hdue', hprm'⟩ := hnew.facts
  have hids : ∀ r, ids s' r = ids s r :=
    ids_of_holds hque hheld hheap.freed hpc (hholds'.trans hholds.symm)
  refine h.carry (hheap.work hpc 0) (fun queue => ?_) ?_ ?_ ?_ hheap.freed hheap.prmFreed
    hheap.misused hheap.results (hprm'.trans hprm.symm) (hdue'.trans hdue.symm)
    (fun hne => absurd hdue hne) hnew.pcOk
  · rw [hque]
    exact h.valid queue
  · exact hheap.next ▸ h.placed.of_perm fun r => List.Perm.of_eq (hids r)
  · intro r m hm
    have hr : r ≠ .pc task := by
      rintro rfl
      have hm' : m ∈ (s'.pc task).holds.toList := hm
      rw [hholds'] at hm'
      exact List.not_mem_nil hm'
    rw [phaseAt_eq hpc hr]
    rw [hids] at hm
    exact (h.phase r m hm).of_eq (congrFun hheap.given m) (congrFun hheap.msgs m)
      (congrFun hheap.caller m)
  · intro m hle
    rw [hheap.given]
    exact h.unused m hle

lemma Inv.goto_quiet (h : Inv s) {pc : Pc} (hold : (s.pc task).Quiet) (hnew : pc.Quiet) :
    Inv (s.goto task pc) := by
  refine h.quiet (sameHeap_of_eq rfl)
    (fun other hne => State.pc_goto_of_ne hne pc) rfl rfl hold ?_
  rw [State.pc_goto_self]
  exact hnew

lemma Inv.ret_quiet (h : Inv s) (hold : (s.pc task).Quiet) (status : ℤ) :
    Inv (s.ret task status) := by
  refine h.quiet (sameHeap_of_eq rfl)
    (fun other hne => State.pc_ret_of_ne hne status) rfl rfl hold ?_
  rw [State.pc_ret_self]
  trivial

/-! ## Steps that move a handle -/

lemma mem_ids_pc (hholds : (s.pc task).holds = some msg) : msg ∈ ids s (.pc task) := by
  show msg ∈ (s.pc task).holds.toList
  rw [hholds]
  exact List.mem_cons_self

/-- What is known of the handle that a task works on. -/
lemma Inv.phase_pc (h : Inv s) {pc : Pc} (hp : s.pc task = pc) (hholds : pc.holds = some msg) :
    PhaseOk s msg (pc.phase task) := by
  subst hp
  exact h.phase (.pc task) msg (mem_ids_pc hholds)

/-- What is known of the place of a task. -/
lemma Inv.pcOk_of_eq (h : Inv s) {pc : Pc} (hp : s.pc task = pc) : PcOk s pc := hp ▸ h.pcOk task

lemma Inv.valid_setQue (h : Inv s) {queue : Queue} {hndl : MsgqHndl ℕ} (hvalid : hndl.Valid)
    (other : Queue) : ((s.setQue queue hndl).que other).Valid := by
  by_cases hne : other = queue
  · rw [hne, State.que_setQue_self]
    exact hvalid
  · rw [State.que_setQue_of_ne hne]
    exact h.valid other

/-- A handle that is anywhere has been allocated. -/
lemma Inv.lt_next (h : Inv s) {place : Place} (hm : msg ∈ ids s place) : msg < s.next :=
  (h.placed.mem_iff msg).mpr ⟨place, hm⟩

/-- A handle at another place is not freed. -/
lemma Inv.notMem_freed (h : Inv s) {place : Place} (hm : msg ∈ ids s place)
    (hne : place ≠ .freed) : msg ∉ s.freed := h.placed.notMem hm hne

/-- A step that moves a handle, or leaves it, with nothing changed in memory but the mailboxes. -/
lemma Inv.moved (h : Inv s) (hheap : SameHeap s s')
    (hpc : ∀ other, other ≠ task → s'.pc other = s.pc other)
    (hvalid : ∀ queue, (s'.que queue).Valid) {place : Place} (hloc : Located s s' msg place)
    (hholds : ∀ other, (s'.pc task).holds = some other → other = msg)
    (hnow : PhaseOk s msg (phaseAt s' place)) (hprm : (s'.pc task).prm = (s.pc task).prm)
    (hdue : (s'.pc task).due = (s.pc task).due)
    (hargs : (s.pc task).due ≠ [] → (s'.pc task).args = (s.pc task).args)
    (hpcOk : PcOk s (s'.pc task)) : Inv s' := by
  have w := hheap.work hpc msg
  have hnow' : PhaseOk s' msg (phaseAt s' place) :=
    hnow.of_eq (congrFun hheap.given msg) (congrFun hheap.msgs msg) (congrFun hheap.caller msg)
  refine h.carry w hvalid hloc.placed (h.phase_work w hloc hholds hnow') ?_ hheap.freed
    hheap.prmFreed hheap.misused hheap.results hprm hdue hargs (hpcOk.mono fun other => w.given_eq)
  intro m hle
  rw [hheap.given]
  exact h.unused m hle

/-- A task puts the handle that it works on into a queue. -/
lemma Inv.enqueue (h : Inv s) {queue : Queue} {hndl : MsgqHndl ℕ} (hvalid : hndl.Valid)
    (hcontents : hndl.contents = (s.que queue).contents ++ [msg])
    (hholds : (s.pc task).holds = some msg) (hheap : SameHeap s s')
    (hpc : ∀ other, other ≠ task → s'.pc other = s.pc other)
    (hque : s'.que = (s.setQue queue hndl).que) (hheld : s'.held = s.held)
    (hnone : (s'.pc task).holds = none) (hnow : PhaseOk s msg (phaseAt s' (.que queue)))
    (hprm : (s'.pc task).prm = (s.pc task).prm) (hdue : (s'.pc task).due = (s.pc task).due)
    (hargs : (s.pc task).due ≠ [] → (s'.pc task).args = (s.pc task).args)
    (hpcOk : PcOk s (s'.pc task)) : Inv s' := by
  have hloc : Located s s' msg (.que queue) := by
    refine located_move (p := .pc task) h.placed hheap.next (by simp) ?_ ?_ (ids_of_ne ?_ ?_ ?_ ?_)
    · show (s.pc task).holds.toList.Perm (msg :: (s'.pc task).holds.toList)
      rw [hholds, hnone]
      exact List.Perm.refl _
    · show (s'.que queue).contents.Perm (msg :: (s.que queue).contents)
      rw [hque, State.que_setQue_self, hcontents]
      exact List.perm_append_singleton msg _
    · intro other _ hne
      rw [hque, State.que_setQue_of_ne fun heq => hne (congrArg Place.que heq)]
    · intro i _ _
      rw [hheld]
    · intro i hne _
      rw [hpc i fun heq => hne (congrArg Place.pc heq)]
    · intro _ _
      exact hheap.freed
  refine h.moved hheap hpc ?_ hloc (fun other hsome => ?_) hnow hprm hdue hargs hpcOk
  · rw [hque]
    exact h.valid_setQue hvalid
  · rw [hnone] at hsome
    exact absurd hsome nofun

/-- A task takes a handle from a queue, to work on it. -/
lemma Inv.dequeue (h : Inv s) {queue : Queue} {hndl : MsgqHndl ℕ} (hvalid : hndl.Valid)
    (hcontents : (s.que queue).contents = msg :: hndl.contents)
    (hnone : (s.pc task).holds = none) {pc : Pc} (hholds : pc.holds = some msg)
    (hnow : PhaseOk s msg (pc.phase task)) (hprm : pc.prm = (s.pc task).prm)
    (hdue : pc.due = (s.pc task).due) (hargs : (s.pc task).due ≠ [] → pc.args = (s.pc task).args)
    (hpcOk : PcOk s pc) : Inv ((s.setQue queue hndl).goto task pc) := by
  set s' := (s.setQue queue hndl).goto task pc
  have hpc : s'.pc task = pc := State.pc_goto_self pc
  have hother : ∀ other, other ≠ task → s'.pc other = s.pc other := fun other hne =>
    State.pc_goto_of_ne hne pc
  have hloc : Located s s' msg (.pc task) := by
    refine located_move (p := .que queue) h.placed rfl (by simp) ?_ ?_ (ids_of_ne ?_ ?_ ?_ ?_)
    · show (s.que queue).contents.Perm (msg :: ((s.setQue queue hndl).que queue).contents)
      rw [State.que_setQue_self, hcontents]
    · show (s'.pc task).holds.toList.Perm (msg :: (s.pc task).holds.toList)
      rw [hpc, hholds, hnone]
      exact List.Perm.refl _
    · intro other hne _
      exact State.que_setQue_of_ne (fun heq => hne (congrArg Place.que heq)) hndl
    · intro i _ _
      rfl
    · intro i _ hne
      rw [hother i fun heq => hne (congrArg Place.pc heq)]
    · intro _ _
      rfl
  rw [← hpc] at hholds hnow hprm hdue hargs hpcOk
  refine h.moved (sameHeap_of_eq rfl) hother (h.valid_setQue hvalid) hloc
    (fun other hsome => ?_) hnow hprm hdue hargs hpcOk
  rw [hholds] at hsome
  exact (Option.some.inj hsome).symm

/-- A receiving call returns the first message of a queue. -/
lemma Inv.receive (h : Inv s) {mbx : ℕ} {hndl : MsgqHndl ℕ} (hvalid : hndl.Valid)
    (hcontents : (s.que (.rcvMbx mbx)).contents = msg :: hndl.contents)
    (hquiet : (s.pc task).Quiet) : Inv ((s.setQue (.rcvMbx mbx) hndl).receive task msg) := by
  set s' := (s.setQue (.rcvMbx mbx) hndl).receive task msg
  obtain ⟨hholds, hdue, hprm⟩ := hquiet.facts
  have hpc : s'.pc task = .idle := State.pc_ret_self osaSok
  have hother : ∀ other, other ≠ task → s'.pc other = s.pc other := fun other hne =>
    State.pc_ret_of_ne hne osaSok
  have hmem : msg ∈ ids s (.que (.rcvMbx mbx)) := by
    show msg ∈ (s.que (.rcvMbx mbx)).contents
    rw [hcontents]
    exact List.mem_cons_self
  have hloc : Located s s' msg (.held task) := by
    refine located_move (p := .que (.rcvMbx mbx)) h.placed rfl (by simp) ?_ ?_
      (ids_of_ne ?_ ?_ ?_ ?_)
    · show (s.que (.rcvMbx mbx)).contents.Perm
        (msg :: ((s.setQue (.rcvMbx mbx) hndl).que (.rcvMbx mbx)).contents)
      rw [State.que_setQue_self, hcontents]
    · show (Function.update s.held task (msg :: s.held task) task).Perm (msg :: s.held task)
      rw [Function.update_self]
    · intro other hne _
      exact State.que_setQue_of_ne (fun heq => hne (congrArg Place.que heq)) hndl
    · intro i _ hne
      exact Function.update_of_ne (fun heq => hne (congrArg Place.held heq)) ..
    · intro i _ _
      by_cases hi : i = task
      · rw [hi, hpc, hholds]
        rfl
      · rw [hother i hi]
    · intro _ _
      rfl
  refine h.moved (sameHeap_of_eq rfl) hother (h.valid_setQue hvalid) hloc
    (fun other hsome => ?_) (h.phase _ msg hmem) ?_ ?_ (fun hne => absurd hdue hne) ?_
  · rw [hpc] at hsome
    exact absurd hsome nofun
  · rw [hpc, hprm]
    rfl
  · rw [hpc, hdue]
    rfl
  · rw [hpc]
    trivial

/-- `OSA_mbxWaitCmd` returns the message that it has compared. -/
lemma Inv.receive_compared (h : Inv s) {mbx waitCmd : ℕ} {hasMsg : Bool}
    (hp : s.pc task = .compare mbx hasMsg waitCmd msg) : Inv (s.receive task msg) := by
  set s' := s.receive task msg
  have hpc : s'.pc task = .idle := State.pc_ret_self osaSok
  have hother : ∀ other, other ≠ task → s'.pc other = s.pc other := fun other hne =>
    State.pc_ret_of_ne hne osaSok
  have hfresh : s.given msg = [] := h.phase_pc hp rfl
  have hloc : Located s s' msg (.held task) := by
    refine located_move (p := .pc task) h.placed rfl (by simp) ?_ ?_ (ids_of_ne ?_ ?_ ?_ ?_)
    · show (s.pc task).holds.toList.Perm (msg :: (s'.pc task).holds.toList)
      rw [hp, hpc]
      exact List.Perm.refl _
    · show (Function.update s.held task (msg :: s.held task) task).Perm (msg :: s.held task)
      rw [Function.update_self]
    · intro _ _ _
      rfl
    · intro i _ hne
      exact Function.update_of_ne (fun heq => hne (congrArg Place.held heq)) ..
    · intro i hne _
      rw [hother i fun heq => hne (congrArg Place.pc heq)]
    · intro _ _
      rfl
  refine h.moved (sameHeap_of_eq rfl) hother h.valid hloc
    (fun other hsome => ?_) hfresh ?_ ?_ (fun hne => ?_) ?_
  · rw [hpc] at hsome
    exact absurd hsome nofun
  · rw [hpc, hp]
    rfl
  · rw [hpc, hp]
    rfl
  · rw [hp] at hne
    exact absurd rfl hne
  · rw [hpc]
    trivial

/-- A task goes on with the handle that it works on, as before. -/
lemma Inv.goto_holding (h : Inv s) {pc : Pc} (hold : (s.pc task).holds = some msg)
    (hholds : pc.holds = some msg) (hphase : pc.phase task = (s.pc task).phase task)
    (hprm : pc.prm = (s.pc task).prm) (hdue : pc.due = (s.pc task).due)
    (hnone : (s.pc task).due = []) (hpcOk : PcOk s pc) : Inv (s.goto task pc) := by
  have hpc : (s.goto task pc).pc task = pc := State.pc_goto_self pc
  have hother : ∀ other, other ≠ task → (s.goto task pc).pc other = s.pc other :=
    fun other hne => State.pc_goto_of_ne hne pc
  have hmem : msg ∈ ids s (.pc task) := mem_ids_pc hold
  rw [← hpc] at hholds hphase hprm hdue hpcOk
  have hids : ∀ r, ids (s.goto task pc) r = ids s r :=
    ids_of_holds rfl rfl rfl hother (hholds.trans hold.symm)
  refine h.moved (sameHeap_of_eq rfl) hother h.valid
    (located_stay h.placed rfl hids hmem) (fun other hsome => ?_) ?_ hprm hdue
    (fun hne => absurd hnone hne) hpcOk
  · rw [hholds] at hsome
    exact (Option.some.inj hsome).symm
  · show PhaseOk s msg (((s.goto task pc).pc task).phase task)
    rw [hphase]
    exact h.phase _ msg hmem

/-! ## Receiving -/

/-- A message of a `rcvMbx` has not been acknowledged or freed. -/
lemma Inv.fresh_of_rcvMbx (h : Inv s) {mbx : ℕ} (hm : msg ∈ (s.que (.rcvMbx mbx)).contents) :
    s.given msg = [] := h.phase (.que (.rcvMbx mbx)) msg hm

lemma Inv.recvMsg (h : Inv s) {mbx : ℕ} {mode : Mode} (hp : s.pc task = .recv mbx mode) :
    ∃ s', s.recvMsg task mbx mode = some s' ∧ Inv s' := by
  have hquiet : (s.pc task).Quiet := by
    rw [hp]
    trivial
  obtain ⟨hnone, hdue, hprm⟩ := hquiet.facts
  unfold State.recvMsg osaMsgqRecvMsg
  cases hcontents : (s.que (.rcvMbx mbx)).contents with
  | nil =>
    rw [OsaQue.getPass_nil hcontents]
    by_cases ht : mode.timeout = osaTimeoutNone
    · rw [if_pos ht]
      cases mode with
      | flush => exact ⟨_, rfl, h.goto_quiet hquiet trivial⟩
      | check => exact ⟨_, rfl, h.ret_quiet hquiet osaEfail⟩
      | wait | cmd => exact absurd ht (show osaTimeoutForever ≠ osaTimeoutNone by decide)
    · rw [if_neg ht]
      exact ⟨s, rfl, h⟩
  | cons msg rest =>
    obtain ⟨hndl, hget, hvalid, -, hrest⟩ := (h.valid _).getPass_cons hcontents mode.timeout
    rw [hget]
    rw [← hrest] at hcontents
    have hfresh : s.given msg = [] :=
      h.fresh_of_rcvMbx (by rw [hcontents]; exact List.mem_cons_self)
    have hgoto {pc : Pc} (hholds : pc.holds = some msg) (hphase : pc.phase task = .fresh)
        (hprm' : pc.prm = none) (hdue' : pc.due = []) (hpcOk : PcOk s pc) :
        Inv ((s.setQue (.rcvMbx mbx) hndl).goto task pc) :=
      h.dequeue hvalid hcontents hnone hholds (hphase ▸ hfresh) (hprm'.trans hprm.symm)
        (hdue'.trans hdue.symm) (fun hne => absurd hdue hne) hpcOk
    cases mode with
    | wait | check => exact ⟨_, rfl, h.receive hvalid hcontents hquiet⟩
    | cmd hasMsg waitCmd => exact ⟨_, rfl, hgoto rfl rfl rfl rfl trivial⟩
    | flush => exact ⟨_, rfl, hgoto rfl rfl rfl rfl trivial⟩

/-- An access to a handle in memory is no misuse. -/
lemma Inv.access_eq (h : Inv s) {place : Place} (hm : msg ∈ ids s place) (hne : place ≠ .freed) :
    s.access msg = s := by
  unfold State.access
  rw [decide_eq_false (h.notMem_freed hm hne), Bool.or_false]

lemma Inv.compareCmd (h : Inv s) {mbx waitCmd : ℕ} {hasMsg : Bool}
    (hp : s.pc task = .compare mbx hasMsg waitCmd msg) :
    Inv (s.compareCmd task mbx hasMsg waitCmd msg) := by
  have hholds : (s.pc task).holds = some msg := by rw [hp]; rfl
  have hgoto (next : Then) : Inv (s.goto task (.ackOrFree msg osaSok next)) := by
    refine h.goto_holding hholds rfl ?_ ?_ ?_ ?_ trivial <;> rw [hp] <;> rfl
  unfold State.compareCmd
  simp only [h.access_eq (mem_ids_pc hholds) (by simp)]
  split_ifs
  · exact h.receive_compared hp
  · exact hgoto .ret
  · exact hgoto _

/-- A message in an `ackMbx` is due to the task of that mailbox. -/
lemma Inv.due_of_ackMbx (h : Inv s) {mbx : ℕ} (hm : msg ∈ (s.que (.ackMbx mbx)).contents) :
    msg ∈ (s.pc mbx).due := by
  have hmem : msg ∈ ids s (.que (.ackMbx mbx)) := hm
  obtain ⟨-, hwaits, hqueue⟩ : Acked s msg (.ackMbx mbx) := h.phase _ msg hmem
  exact (h.due mbx msg).mpr ⟨h.lt_next hmem, h.notMem_freed hmem (by simp),
    (Queue.ackMbx.inj hqueue).symm, hwaits⟩

/-- A flush finds no acknowledgement where none is due. -/
lemma Inv.flushAck (h : Inv s) {mbx : ℕ} (hp : s.pc task = .flushAck mbx)
    (hdue : (s.pc mbx).due = []) : ∃ s', s.flushAck task mbx = some s' ∧ Inv s' := by
  have hcontents : (s.que (.ackMbx mbx)).contents = [] := by
    refine List.eq_nil_iff_forall_not_mem.mpr fun msg hm => ?_
    have hmem := h.due_of_ackMbx hm
    rw [hdue] at hmem
    exact List.not_mem_nil hmem
  unfold State.flushAck osaMsgqRecvMsg
  rw [OsaQue.getPass_nil hcontents, if_pos rfl]
  exact ⟨_, rfl, h.ret_quiet (by rw [hp]; trivial) osaEfail⟩

/-- The receiver of a message begins to acknowledge or free it. -/
lemma Inv.callAckOrFree (h : Inv s) (hp : s.pc task = .idle) (hheld : msg ∈ s.held task)
    (ackRetVal : ℤ) : Inv (s.begin task (.ackOrFreeMsg msg ackRetVal)) := by
  set s' := s.begin task (.ackOrFreeMsg msg ackRetVal)
  have hpc : s'.pc task = .ackOrFree msg ackRetVal .ret := Function.update_self ..
  have hother : ∀ other, other ≠ task → s'.pc other = s.pc other := fun other hne =>
    Function.update_of_ne hne ..
  have hloc : Located s s' msg (.pc task) := by
    refine located_move (p := .held task) h.placed rfl (by simp) ?_ ?_ (ids_of_ne ?_ ?_ ?_ ?_)
    · show (s.held task).Perm
        (msg :: Function.update s.held task ((s.held task).erase msg) task)
      rw [Function.update_self]
      exact List.perm_cons_erase hheld
    · show (s'.pc task).holds.toList.Perm (msg :: (s.pc task).holds.toList)
      rw [hpc, hp]
      exact List.Perm.refl _
    · intro _ _ _
      rfl
    · intro i hne _
      exact Function.update_of_ne (fun heq => hne (congrArg Place.held heq)) ..
    · intro i _ hne
      rw [hother i fun heq => hne (congrArg Place.pc heq)]
    · intro _ _
      rfl
  refine h.moved (sameHeap_of_eq rfl) hother h.valid hloc
    (fun other hsome => ?_) ?_ ?_ ?_ (fun hne => ?_) ?_
  · rw [hpc] at hsome
    exact (Option.some.inj hsome).symm
  · show PhaseOk s msg ((s'.pc task).phase task)
    rw [hpc]
    exact h.phase (.held task) msg hheld
  · rw [hpc, hp]
    rfl
  · rw [hpc, hp]
    rfl
  · rw [hp] at hne
    exact absurd rfl hne
  · rw [hpc]
    trivial

/-! ## The end of `OSA_mbxAckOrFreeMsg` -/

/-- Where it returns to is quiet. -/
lemma pc_leave (s : State) (task : ℕ) (next : Then) : ((s.leave task next).pc task).Quiet := by
  cases next with
  | ret =>
    show ((s.ret task osaSok).pc task).Quiet
    rw [State.pc_ret_self]
    trivial
  | again mbx mode =>
    show ((s.goto task (.recv mbx mode)).pc task).Quiet
    rw [State.pc_goto_self]
    trivial

/-- `State.leave` changes the place of the task, and what its call returns. -/
lemma leave_frame (s : State) (task : ℕ) (next : Then) :
    SameHeap s (s.leave task next) ∧ (s.leave task next).que = s.que ∧
      (s.leave task next).held = s.held ∧
      ∀ other, other ≠ task → (s.leave task next).pc other = s.pc other := by
  cases next with
  | ret =>
    exact ⟨sameHeap_of_eq rfl, rfl, rfl,
      fun other hne => State.pc_ret_of_ne hne osaSok⟩
  | again mbx mode =>
    exact ⟨sameHeap_of_eq rfl, rfl, rfl,
      fun other hne => State.pc_goto_of_ne hne _⟩

lemma Inv.sendAck (h : Inv s) {queue : Queue} {next : Then}
    (hp : s.pc task = .sendAck msg queue next) :
    ∃ s', s.sendAck task msg queue next = some s' ∧ Inv s' := by
  have hholds : (s.pc task).holds = some msg := by rw [hp]; rfl
  have hacked : Acked s msg queue := h.phase_pc hp rfl
  unfold State.sendAck osaMsgqSend
  rcases (h.valid queue).putPass_forever msg with hput | ⟨hndl, hput, hvalid, hcontents⟩
  · rw [hput]
    exact ⟨s, rfl, h⟩
  · rw [hput]
    refine ⟨_, rfl, ?_⟩
    obtain ⟨hheap, hque, hheld, hother⟩ := leave_frame (s.setQue queue hndl) task next
    obtain ⟨hnone, hdue, hprm⟩ := (pc_leave (s.setQue queue hndl) task next).facts
    refine h.enqueue hvalid hcontents hholds hheap.of_setQue hother hque hheld hnone ?_ ?_ ?_ ?_
      (pc_leave _ task next).pcOk
    · obtain ⟨-, -, rfl⟩ := id hacked
      exact hacked
    · rw [hprm, hp]
      rfl
    · rw [hdue, hp]
      rfl
    · intro hne
      rw [hp] at hne
      exact absurd rfl hne

end Calls

end IpncRdk.OsaMbx
