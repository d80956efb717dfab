import IpncRdk.OsaMbx.Ownership

/-!
# What a step of a task preserves

* `Work` — what a task leaves alone while it works on a handle;
* `Located` — every handle is where it was, but for that one;
* `Inv.work` — from these the invariant.
-/

namespace IpncRdk.OsaMbx

open Lib OsaQue

section Frame
variable {s s' : State} {task msg : ℕ}

/-- A task has worked on a handle. Other tasks are where they were, other handles as they were,
and a status that was given before stays. -/
structure Work (s s' : State) (task msg : ℕ) : Prop where
  pc : ∀ other, other ≠ task → s'.pc other = s.pc other
  next : s'.next = s.next
  caller : s'.caller = s.caller
  passed : s'.passed = s.passed
  msgs : ∀ other, other ≠ msg → s'.msgs other = s.msgs other
  fields : (s'.msgs msg).flags = (s.msgs msg).flags ∧ (s'.msgs msg).pPrm = (s.msgs msg).pPrm ∧
    (s'.msgs msg).pFrom = (s.msgs msg).pFrom
  given : ∀ other, other ≠ msg → s'.given other = s.given other
  grows : s.given msg ≠ [] → s'.given msg = s.given msg
  freed : ∀ other, other ≠ msg → (other ∈ s'.freed ↔ other ∈ s.freed)

/-- What is in memory, but for the mailboxes, is as it was. -/
structure SameHeap (s s' : State) : Prop where
  msgs : s'.msgs = s.msgs
  next : s'.next = s.next
  freed : s'.freed = s.freed
  prmFreed : s'.prmFreed = s.prmFreed
  passed : s'.passed = s.passed
  caller : s'.caller = s.caller
  given : s'.given = s.given
  misused : s'.misused = s.misused
  results : s'.results = s.results

/-- The queues, the places of the tasks and what they hold and return are no part of it. -/
lemma sameHeap_of_eq
    (h : { s' with que := s.que, pc := s.pc, held := s.held, returned := s.returned } = s) :
    SameHeap s s' where
  msgs := (congrArg State.msgs h :)
  next := (congrArg State.next h :)
  freed := (congrArg State.freed h :)
  prmFreed := (congrArg State.prmFreed h :)
  passed := (congrArg State.passed h :)
  caller := (congrArg State.caller h :)
  given := (congrArg State.given h :)
  misused := (congrArg State.misused h :)
  results := (congrArg State.results h :)

lemma SameHeap.of_setQue {queue : Queue} {hndl : MsgqHndl ℕ}
    (h : SameHeap (s.setQue queue hndl) s') : SameHeap s s' :=
  ⟨h.msgs, h.next, h.freed, h.prmFreed, h.passed, h.caller, h.given, h.misused, h.results⟩

lemma SameHeap.work (h : SameHeap s s')
    (hpc : ∀ other, other ≠ task → s'.pc other = s.pc other) (msg : ℕ) : Work s s' task msg where
  pc := hpc
  next := h.next
  caller := h.caller
  passed := h.passed
  msgs other _ := by rw [h.msgs]
  fields := by simp only [h.msgs, and_self]
  given other _ := by rw [h.given]
  grows _ := by rw [h.given]
  freed other _ := by rw [h.freed]

/-! ## Statuses -/

lemma Work.given_eq (w : Work s s' task msg) {other : ℕ} (hgiven : s.given other ≠ []) :
    s'.given other = s.given other := by
  by_cases heq : other = msg
  · rw [heq] at hgiven ⊢
    exact w.grows hgiven
  · exact w.given other heq

/-- A verdict stands while statuses are given to other messages. -/
lemma Verdict.mono {msgs : List ℕ} {status : ℤ} (h : Verdict s msgs status)
    (hgiven : ∀ other, s.given other ≠ [] → s'.given other = s.given other) :
    Verdict s' msgs status := by
  have hsame : ∀ m ∈ msgs, s'.given m = s.given m := by
    intro m hm
    obtain ⟨given, hg⟩ := h.1 m hm
    exact hgiven m (by rw [hg]; simp)
  refine ⟨fun m hm => ?_, h.2.trans (forall₂_congr fun m hm => ?_)⟩
  · rw [hsame m hm]
    exact h.1 m hm
  · rw [hsame m hm]

lemma Result.Ok.mono {r : Result} (h : r.Ok s)
    (hgiven : ∀ other, s.given other ≠ [] → s'.given other = s.given other) : r.Ok s' := by
  unfold Result.Ok at h ⊢
  split at h
  · rw [if_pos ‹_›]
    exact h.mono hgiven
  · rw [if_neg ‹_›]
    obtain ⟨m, hsent, hg⟩ := h
    exact ⟨m, hsent, (hgiven m (by rw [hg]; simp)).trans hg⟩

lemma PcOk.mono {pc : Pc} (h : PcOk s pc)
    (hgiven : ∀ other, s.given other ≠ [] → s'.given other = s.given other) : PcOk s' pc := by
  have hwait {a sent ackRetVal} (h : WaitOk s a sent ackRetVal) : WaitOk s' a sent ackRetVal :=
    ⟨h.waits, h.nodup, h.missing_ne, h.one, h.verdict.mono hgiven⟩
  cases pc with
  | waitAck | acked => exact hwait h
  | _ => exact h

/-! ## Places -/

/-- Every handle but one is where it was, and that one is here. -/
structure Located (s s' : State) (msg : ℕ) (place : Place) : Prop where
  placed : Placed (ids s') (· < s'.next)
  back : ∀ r, ∀ other, other ≠ msg → other ∈ ids s' r → other ∈ ids s r
  here : msg ∈ ids s' place

/-- The handle goes from one place to another. -/
lemma located_move {p q : Place} (h : Placed (ids s) (· < s.next)) (hnext : s'.next = s.next)
    (hne : p ≠ q) (hp : (ids s p).Perm (msg :: ids s' p)) (hq : (ids s' q).Perm (msg :: ids s q))
    (hr : ∀ r, r ≠ p → r ≠ q → ids s' r = ids s r) : Located s s' msg q where
  placed := hnext ▸ h.move hne hp hq hr
  here := hq.mem_iff.mpr List.mem_cons_self
  back r other hother hmem := by
    by_cases hrp : r = p
    · rw [hrp] at hmem ⊢
      exact hp.mem_iff.mpr (List.mem_cons_of_mem msg hmem)
    by_cases hrq : r = q
    · rw [hrq] at hmem ⊢
      exact (List.mem_cons.mp (hq.mem_iff.mp hmem)).resolve_left hother
    · exact hr r hrp hrq ▸ hmem

/-- The handle stays at its place. -/
lemma located_stay {q : Place} (h : Placed (ids s) (· < s.next)) (hnext : s'.next = s.next)
    (hids : ∀ r, ids s' r = ids s r) (hmem : msg ∈ ids s q) : Located s s' msg q where
  placed := hnext ▸ h.of_perm fun r => List.Perm.of_eq (hids r)
  here := (hids q).symm ▸ hmem
  back r _ _ hmem := hids r ▸ hmem

/-- Every task holds what it held, and the mailboxes and the memory are as they were. -/
lemma ids_of_holds (hque : s'.que = s.que) (hheld : s'.held = s.held)
    (hfreed : s'.freed = s.freed)
    (hpc : ∀ other, other ≠ task → s'.pc other = s.pc other)
    (hholds : (s'.pc task).holds = (s.pc task).holds) (r : Place) : ids s' r = ids s r := by
  cases r with
  | que queue =>
    show (s'.que queue).contents = (s.que queue).contents
    rw [hque]
  | held i => exact congrFun hheld i
  | pc i =>
    show (s'.pc i).holds.toList = (s.pc i).holds.toList
    by_cases hi : i = task
    · rw [hi, hholds]
    · rw [hpc i hi]
  | freed => exact hfreed

/-- Places whose contents have not been touched. -/
lemma ids_of_ne {p q : Place}
    (hque : ∀ queue, .que queue ≠ p → .que queue ≠ q → s'.que queue = s.que queue)
    (hheld : ∀ i, .held i ≠ p → .held i ≠ q → s'.held i = s.held i)
    (hpc : ∀ i, .pc i ≠ p → .pc i ≠ q → (s'.pc i).holds = (s.pc i).holds)
    (hfreed : .freed ≠ p → .freed ≠ q → s'.freed = s.freed) (r : Place) (hrp : r ≠ p)
    (hrq : r ≠ q) : ids s' r = ids s r := by
  cases r with
  | que queue =>
    show (s'.que queue).contents = (s.que queue).contents
    rw [hque queue hrp hrq]
  | held i => exact hheld i hrp hrq
  | pc i =>
    show (s'.pc i).holds.toList = (s.pc i).holds.toList
    rw [hpc i hrp hrq]
  | freed => exact hfreed hrp hrq

/-- What is known of a handle at a place does not depend on the step of a task elsewhere. -/
lemma phaseAt_eq (hpc : ∀ other, other ≠ task → s'.pc other = s.pc other) {r : Place}
    (hr : r ≠ .pc task) : phaseAt s' r = phaseAt s r := by
  cases r with
  | pc i =>
    show (s'.pc i).phase i = (s.pc i).phase i
    rw [hpc i fun heq => hr (heq ▸ rfl)]
  | que queue => cases queue <;> rfl
  | _ => rfl

lemma PhaseOk.of_eq {m : ℕ} {phase : Phase} (h : PhaseOk s m phase)
    (hgiven : s'.given m = s.given m) (hmsgs : s'.msgs m = s.msgs m)
    (hcaller : s'.caller m = s.caller m) : PhaseOk s' m phase := by
  cases phase with
  | fresh => exact hgiven.trans h
  | acked queue =>
    obtain ⟨hstatus, hwaits, hqueue⟩ : Acked s m queue := h
    exact ⟨by rw [hgiven, hmsgs, hstatus], by rw [hcaller, hwaits], by rw [hcaller, hqueue]⟩
  | finished =>
    show s'.given m ≠ []
    rw [hgiven]
    exact h
  | never => exact h

/-- What is known of the handles, once it is known of the one that was worked on. -/
lemma Inv.phase_work (h : Inv s) (w : Work s s' task msg) {place : Place}
    (hloc : Located s s' msg place)
    (hholds : ∀ other, (s'.pc task).holds = some other → other = msg)
    (hnow : PhaseOk s' msg (phaseAt s' place)) (r : Place) (m : ℕ) (hm : m ∈ ids s' r) :
    PhaseOk s' m (phaseAt s' r) := by
  by_cases heq : m = msg
  · subst heq
    rw [hloc.placed.unique r place m hm hloc.here]
    exact hnow
  · have hr : r ≠ .pc task := by
      rintro rfl
      exact heq (hholds m (Option.mem_toList.mp hm))
    rw [phaseAt_eq w.pc hr]
    exact (h.phase r m (hloc.back r m heq hm)).of_eq (w.given m heq) (w.msgs m heq)
      (congrFun w.caller m)

/-! ## The invariant -/

lemma Work.msgOk (w : Work s s' task msg) {m : ℕ} (h : MsgOk s m) : MsgOk s' m := by
  have hfields : (s'.msgs m).flags = (s.msgs m).flags ∧ (s'.msgs m).pPrm = (s.msgs m).pPrm ∧
      (s'.msgs m).pFrom = (s.msgs m).pFrom := by
    by_cases heq : m = msg
    · exact heq ▸ w.fields
    · simp only [w.msgs m heq, and_self]
  obtain ⟨hflags, hprm, hfrom⟩ := hfields
  refine ⟨?_, ?_, ?_, ?_⟩
  · rw [hflags, w.caller]
    exact h.flags
  · rw [hprm, w.caller]
    exact h.pPrm
  · rw [hfrom, w.caller]
    exact h.pFrom
  · rw [w.caller]
    exact h.hasFrom

/-- What a task waits for does not change where it is not freed. -/
lemma Work.dueTo_iff (w : Work s s' task msg) {i m : ℕ}
    (hfreed : DueTo s i m → m ∉ s'.freed) (hback : m ∉ s'.freed → m ∉ s.freed) :
    DueTo s' i m ↔ DueTo s i m := by
  constructor
  · rintro ⟨hlt, hunfreed, hcaller, hwaits⟩
    rw [w.caller] at hcaller hwaits
    exact ⟨w.next ▸ hlt, hback hunfreed, hcaller, hwaits⟩
  · intro hdue
    refine ⟨w.next.symm ▸ hdue.lt, hfreed hdue, ?_, ?_⟩
    · rw [w.caller]
      exact hdue.caller
    · rw [w.caller]
      exact hdue.waits

/-- The invariant after a task has worked on a handle, from what concerns the task and the
handle. -/
lemma Inv.work (h : Inv s) (w : Work s s' task msg) (hvalid : ∀ queue, (s'.que queue).Valid)
    (hplaced : Placed (ids s') (· < s'.next))
    (hphase : ∀ r, ∀ m ∈ ids s' r, PhaseOk s' m (phaseAt s' r))
    (hunused : ∀ m, s.next ≤ m → s'.given m = [])
    (hprm : Placed (prmIds s') (· ∈ s'.passed))
    (hdue : ∀ m, m ∈ (s'.pc task).due ↔ DueTo s' task m)
    (hother : ∀ other, other ≠ task → ∀ m, DueTo s' other m ↔ DueTo s other m)
    (hargs : ∀ m ∈ (s'.pc task).due, (s'.pc task).args = some (s'.caller m).2)
    (hpcOk : PcOk s' (s'.pc task)) (hmisused : s'.misused = s.misused)
    (hresults : ∀ r ∈ s'.results, r ∈ s.results ∨ r.Ok s') : Inv s' where
  valid := hvalid
  placed := hplaced
  prmPlaced := hprm
  msgOk m hlt := w.msgOk (h.msgOk m (w.next ▸ hlt))
  unused m hle := hunused m (w.next ▸ hle)
  phase := hphase
  due i m := by
    by_cases hi : i = task
    · exact hi ▸ hdue m
    · rw [w.pc i hi, h.due, hother i hi]
  args i m hm := by
    by_cases hi : i = task
    · subst hi
      exact hargs m hm
    · rw [w.pc i hi] at hm ⊢
      rw [w.caller]
      exact h.args i m hm
  pcOk i := by
    by_cases hi : i = task
    · exact hi ▸ hpcOk
    · rw [w.pc i hi]
      exact (h.pcOk i).mono fun other => w.given_eq
  unmisused := hmisused.trans h.unmisused
  results r hr := by
    rcases hresults r hr with hold | hnew
    · exact (h.results r hold).mono fun other => w.given_eq
    · exact hnew

/-- The owners of the parameters are the same where the call of the task owns what it did. -/
lemma prmIds_eq (hpc : ∀ other, other ≠ task → s'.pc other = s.pc other)
    (hnext : s'.next = s.next) (hcaller : s'.caller = s.caller) (hfreed : s'.freed = s.freed)
    (hprmFreed : s'.prmFreed = s.prmFreed) (hprm : (s'.pc task).prm = (s.pc task).prm)
    (r : PrmPlace) : prmIds s' r = prmIds s r := by
  cases r with
  | call i =>
    show (s'.pc i).prm.toList = (s.pc i).prm.toList
    by_cases hi : i = task
    · rw [hi, hprm]
    · rw [hpc i hi]
  | msg m =>
    unfold prmIds
    rw [hnext, hcaller, hfreed]
  | freed => exact hprmFreed

/-- A step that frees nothing, and after which the call of the task waits for the same messages
and owns the same parameter. -/
lemma Inv.carry (h : Inv s) (w : Work s s' task msg) (hvalid : ∀ queue, (s'.que queue).Valid)
    (hplaced : Placed (ids s') (· < s'.next))
    (hphase : ∀ r, ∀ m ∈ ids s' r, PhaseOk s' m (phaseAt s' r))
    (hunused : ∀ m, s.next ≤ m → s'.given m = []) (hfreed : s'.freed = s.freed)
    (hprmFreed : s'.prmFreed = s.prmFreed) (hmisused : s'.misused = s.misused)
    (hresults : s'.results = s.results) (hprm : (s'.pc task).prm = (s.pc task).prm)
    (hdue : (s'.pc task).due = (s.pc task).due)
    (hargs : (s.pc task).due ≠ [] → (s'.pc task).args = (s.pc task).args)
    (hpcOk : PcOk s' (s'.pc task)) : Inv s' := by
  have hsame (i m : ℕ) : DueTo s' i m ↔ DueTo s i m :=
    w.dueTo_iff (fun hdue => hfreed.symm ▸ hdue.unfreed) fun hm => hfreed ▸ hm
  refine h.work w hvalid hplaced hphase hunused ?_ ?_ (fun i _ m => hsame i m) ?_ hpcOk hmisused ?_
  · rw [w.passed]
    exact h.prmPlaced.of_perm fun r =>
      List.Perm.of_eq (prmIds_eq w.pc w.next w.caller hfreed hprmFreed hprm r)
  · intro m
    rw [hdue, hsame, h.due]
  · intro m hm
    rw [hdue] at hm
    rw [hargs (List.ne_nil_of_mem hm), w.caller]
    exact h.args task m hm
  · intro r hr
    exact .inl (hresults ▸ hr)

end Frame

end IpncRdk.OsaMbx
