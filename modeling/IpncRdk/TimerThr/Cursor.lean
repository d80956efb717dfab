import IpncRdk.TimerThr.Checker
import Mathlib.Data.List.Nodup

/-!
# The cursor of the checker and the tasks it runs

The cursor survives from one iteration to the next, while `delNode` frees nodes: the
checker's own removal of a `SYS_TIMER_TASK_SINGLE` task frees the node under the cursor, and
so does an `UnRegisterProc` of that task. Every other step keeps the cursor on a linked node,
and then every callback the checker starts belongs to a registered task.
-/

namespace IpncRdk.TimerThr

open Lib

variable {φ : Type}

/-! ## Registry safety -/

/-- The cursor is `NULL` or the address of a linked node. -/
def CursorLinked (s : State φ) : Prop :=
  ∀ addr, s.cursor = some addr → addr ∈ s.nodes.map Node.addr

/-- Every callback in a history belonged to a task registered at that moment, was not started
after its `UnRegisterProc` had returned, and not a second time if its task is a
`SYS_TIMER_TASK_SINGLE` one. -/
def SoundRecords : List Record → Prop
  | [] => True
  | .unregistered _ :: older => SoundRecords older
  | .started procId mode registered :: older =>
    registered = true ∧ .unregistered procId ∉ older ∧
      (mode = taskSingle → ∀ m r, .started procId m r ∉ older) ∧ SoundRecords older

structure RegistrySafe (s : State φ) : Prop where
  cursor : CursorLinked s
  records : SoundRecords s.records

/-- The step frees no node under the cursor: the task the checker settles is not a
`SYS_TIMER_TASK_SINGLE` one, and no `UnRegisterProc` removes the task under the cursor. -/
def FreesOther (s : State φ) : Event φ → Prop
  | .checker _ junk => s.pc = .settle → (s.currentTask junk).mode ≠ taskSingle
  | .edit thread =>
    ∀ procId, s.others thread = .entered (.unregister procId) → 0 < procId →
      ∀ n, s.currentNode = some n → n.task.procId ≠ procId
  | .enter _ _ | .leave _ => True

/-! ## The list operations -/

section ListOperations
variable {nodes : List (Node φ)}

lemma delNode_sublist (procId : ℤ) : ∀ nodes : List (Node φ), (delNode procId nodes).Sublist nodes
  | [] => List.Sublist.slnil
  | n :: rest => by
    unfold delNode
    split
    · exact List.sublist_cons_self n rest
    · exact (delNode_sublist procId rest).cons_cons n

lemma mem_of_mem_delNode {procId : ℤ} {n : Node φ} (h : n ∈ delNode procId nodes) : n ∈ nodes :=
  (delNode_sublist procId nodes).subset h

/-- A node with another id stays linked. -/
lemma mem_delNode {procId : ℤ} {n : Node φ} (hn : n ∈ nodes) (hid : n.task.procId ≠ procId) :
    n ∈ delNode procId nodes := by
  induction nodes with
  | nil => exact hn
  | cons m rest ih =>
    unfold delNode
    rcases List.mem_cons.mp hn with rfl | hrest
    · rw [if_neg hid]
      exact List.mem_cons_self
    · split
      · exact hrest
      · exact List.mem_cons_of_mem m (ih hrest)

/-- With distinct ids, the removed id is gone. -/
lemma procId_notMem_delNode {procId : ℤ} (hids : (nodes.map fun n => n.task.procId).Nodup) :
    procId ∉ (delNode procId nodes).map fun n => n.task.procId := by
  induction nodes with
  | nil => simp [delNode]
  | cons m rest ih =>
    rw [List.map_cons, List.nodup_cons] at hids
    unfold delNode
    split
    next h => exact h ▸ hids.1
    next h =>
      rw [List.map_cons, List.mem_cons]
      exact not_or.mpr ⟨Ne.symm h, ih hids.2⟩

/-- With distinct ids and addresses, removing a node's id removes its address. -/
lemma addr_notMem_delNode {n : Node φ} (hn : n ∈ nodes)
    (hids : (nodes.map fun n => n.task.procId).Nodup) (haddrs : (nodes.map Node.addr).Nodup) :
    n.addr ∉ (delNode n.task.procId nodes).map Node.addr := by
  intro hmem
  obtain ⟨m, hm, haddr⟩ := List.mem_map.mp hmem
  have hsame : m = n := List.inj_on_of_nodup_map haddrs (mem_of_mem_delNode hm) hn haddr
  subst hsame
  exact procId_notMem_delNode hids (List.mem_map_of_mem hm)

lemma reschedule_addrs (addr : ℕ) (now : Timespec) :
    (reschedule nodes addr now).map Node.addr = nodes.map Node.addr := by
  unfold reschedule
  rw [List.map_map]
  refine List.map_congr_left fun n _ => ?_
  simp only [Function.comp_apply]
  split <;> rfl

lemma reschedule_ids (addr : ℕ) (now : Timespec) :
    ((reschedule nodes addr now).map fun n => n.task.procId)
      = nodes.map fun n => n.task.procId := by
  unfold reschedule
  rw [List.map_map]
  refine List.map_congr_left fun n _ => ?_
  simp only [Function.comp_apply]
  split <;> rfl

/-- Only the due times change. -/
lemma exists_of_mem_reschedule {addr : ℕ} {now : Timespec} {n : Node φ}
    (h : n ∈ reschedule nodes addr now) :
    ∃ m ∈ nodes, m.task.procId = n.task.procId ∧ m.task.mode = n.task.mode := by
  obtain ⟨m, hm, rfl⟩ := List.mem_map.mp h
  refine ⟨m, hm, ?_⟩
  split <;> exact ⟨rfl, rfl⟩

lemma nextAddr_mem {addr next : ℕ} (h : nextAddr nodes addr = some next) :
    next ∈ nodes.map Node.addr := by
  unfold nextAddr at h
  rw [Option.map_eq_some_iff] at h
  obtain ⟨n, hn, rfl⟩ := h
  refine List.mem_map_of_mem ?_
  exact (List.dropWhile_sublist _).subset (List.mem_of_mem_tail (List.mem_of_mem_head? hn))

end ListOperations

/-! ## The node under the cursor -/

section CurrentNode
variable {s : State φ}

lemma mem_of_currentNode {n : Node φ} (h : s.currentNode = some n) :
    n ∈ s.nodes ∧ s.cursor = some n.addr := by
  unfold State.currentNode at h
  exact ⟨List.mem_of_find?_eq_some h, by simpa using List.find?_some h⟩

lemma exists_currentNode (hlinked : CursorLinked s) (hcursor : s.cursor ≠ none) :
    ∃ n, s.currentNode = some n := by
  obtain ⟨addr, haddr⟩ := Option.ne_none_iff_exists'.mp hcursor
  obtain ⟨n, hn, hnode⟩ := List.mem_map.mp (hlinked addr haddr)
  rw [← Option.isSome_iff_exists]
  unfold State.currentNode
  rw [List.find?_isSome]
  exact ⟨n, hn, by simp [haddr, hnode]⟩

lemma currentTask_of_currentNode {n : Node φ} (h : s.currentNode = some n) (junk : Junk φ) :
    s.currentTask junk = n.task := by
  unfold State.currentTask
  rw [h]
  rfl

/-- The node under the cursor stays there when another one is removed. -/
lemma find?_delNode {nodes : List (Node φ)} {p : Node φ → Bool} {n : Node φ} {procId : ℤ}
    (h : nodes.find? p = some n) (hid : n.task.procId ≠ procId) :
    (delNode procId nodes).find? p = some n := by
  induction nodes with
  | nil => cases h
  | cons m rest ih =>
    unfold delNode
    rw [List.find?_cons] at h
    cases hm : p m with
    | true =>
      rw [hm, Option.some.injEq] at h
      subst h
      rw [if_neg hid, List.find?_cons, hm]
    | false =>
      rw [hm] at h
      split
      · exact h
      · rw [List.find?_cons, hm]
        exact ih h

end CurrentNode

/-! ## The invariant -/

/-- The steps between the test of the cursor and its next move. -/
def Pc.holdsTask : Pc → Bool
  | .examine | .invoke | .calling | .settle | .advance => true
  | .start | .top | .check | .reload | .release | .unlock => false

/-- The list is well formed: addresses and ids are distinct, and the ids have been handed
out. -/
structure WellFormed (nodes : List (Node φ)) (lastId : ℤ) : Prop where
  addrs : (nodes.map Node.addr).Nodup
  ids : (nodes.map fun n => n.task.procId).Nodup
  handedOut : ∀ procId ∈ nodes.map fun n => n.task.procId, procId ≤ lastId

/-- This id has been unregistered, by a call that has returned or has made its edit. -/
def State.gone (s : State φ) (procId : ℤ) : Prop :=
  .unregistered procId ∈ s.records ∨ ∃ thread, s.others thread = .edited (some procId)

/-- The history of a task agrees with its node: a started task has been handed out, and its
mode is the one it was started with. -/
def ModesKept (s : State φ) : Prop :=
  ∀ procId mode registered, .started procId mode registered ∈ s.records →
    procId ≤ s.lastId ∧ ∀ n ∈ s.nodes, n.task.procId = procId → n.task.mode = mode

/-- The callback of a `SYS_TIMER_TASK_SINGLE` task has been started. -/
def State.singleStarted (s : State φ) : Prop :=
  ∃ procId registered, .started procId taskSingle registered ∈ s.records

/-- The task under the cursor is a `SYS_TIMER_TASK_SINGLE` one, started and not settled. -/
def State.singlePending (s : State φ) : Prop :=
  (s.pc = .calling ∨ s.pc = .settle) ∧ ∃ n, s.currentNode = some n ∧ n.task.mode = taskSingle

/-- The invariant of the runs in which no step frees the node under the cursor: there, a
`SYS_TIMER_TASK_SINGLE` task that has been started has not been settled yet. -/
structure CursorInv (s : State φ) : Prop where
  list : WellFormed s.nodes s.lastId
  cursor : CursorLinked s
  holds : s.pc.holdsTask = true → s.cursor ≠ none
  gone : ∀ procId, s.gone procId →
    procId ≤ s.lastId ∧ procId ∉ s.nodes.map fun n => n.task.procId
  modes : ModesKept s
  records : SoundRecords s.records
  single : s.singleStarted → s.singlePending

lemma cursorInv_creat : CursorInv (timerThrCreat : State φ) where
  list := ⟨List.nodup_nil, List.nodup_nil, fun _ h => (nomatch h)⟩
  cursor := fun _ h => (nomatch h)
  holds := fun h => (nomatch h)
  gone := by
    rintro procId (h | ⟨thread, h⟩)
    · cases h
    · cases h
  modes := fun _ _ _ h => (nomatch h)
  records := trivial
  single := by
    rintro ⟨procId, registered, h⟩
    cases h

section Invariant
variable {s s' : State φ}

/-- A step that leaves the list and the history alone. -/
lemma CursorInv.frame (hI : CursorInv s) (hnodes : s'.nodes = s.nodes)
    (hlast : s'.lastId = s.lastId) (hrecords : s'.records = s.records)
    (hgone : ∀ procId, s'.gone procId → s.gone procId) (hcursor : CursorLinked s')
    (hholds : s'.pc.holdsTask = true → s'.cursor ≠ none)
    (hsingle : s.singleStarted → s'.singlePending) : CursorInv s' where
  list := by rw [hnodes, hlast]; exact hI.list
  cursor := hcursor
  holds := hholds
  gone procId h := by rw [hnodes, hlast]; exact hI.gone procId (hgone procId h)
  modes := by unfold ModesKept; rw [hrecords, hlast, hnodes]; exact hI.modes
  records := by rw [hrecords]; exact hI.records
  single := by unfold State.singleStarted; rw [hrecords]; exact hsingle

lemma CursorInv.not_singleStarted (hI : CursorInv s) (hcalling : s.pc ≠ .calling)
    (hsettle : s.pc ≠ .settle) : ¬ s.singleStarted := fun h => by
  rcases (hI.single h).1 with hpc | hpc
  · exact hcalling hpc
  · exact hsettle hpc

/-- A step of the checker, in front of a callback or behind it, that moves the cursor and goes
on. -/
lemma CursorInv.move (hI : CursorInv s) (hpc : s.pc ≠ .calling ∧ s.pc ≠ .settle)
    (hnodes : s'.nodes = s.nodes) (hlast : s'.lastId = s.lastId)
    (hrecords : s'.records = s.records) (hothers : s'.others = s.others)
    (hcursor : CursorLinked s') (hholds : s'.pc.holdsTask = true → s'.cursor ≠ none) :
    CursorInv s' := by
  apply hI.frame hnodes hlast hrecords _ hcursor hholds
  · -- no single task is pending there
    intro h
    exact absurd h (hI.not_singleStarted hpc.1 hpc.2)
  · intro procId h
    unfold State.gone at h ⊢
    rwa [hrecords, hothers] at h

/-- The cursor set to the first node. -/
lemma cursorLinked_head {cursor : Option ℕ} (h : cursor = s.nodes.head?.map Node.addr)
    (hnodes : s'.nodes = s.nodes) (hcursor : s'.cursor = cursor) : CursorLinked s' := by
  intro addr haddr
  rw [hcursor, h, Option.map_eq_some_iff] at haddr
  obtain ⟨n, hn, rfl⟩ := haddr
  rw [hnodes]
  exact List.mem_map_of_mem (List.mem_of_mem_head? hn)

/-! ## The steps of the checker -/

/-- Starting the callback of the task under the cursor. -/
lemma cursorInv_invoke (hI : CursorInv s) (hpc : s.pc = .invoke) {n : Node φ}
    (hn : s.currentNode = some n) :
    CursorInv
      { s with
        pc := .calling
        records :=
          .started n.task.procId n.task.mode (n.task.procId ∈ s.nodes.map fun n => n.task.procId)
            :: s.records } := by
  have hmem := (mem_of_currentNode hn).1
  have hid : n.task.procId ∈ s.nodes.map fun n => n.task.procId := List.mem_map_of_mem hmem
  -- a started SINGLE task would be the one being called or settled
  have hfirst : ¬ s.singleStarted :=
    hI.not_singleStarted (by rw [hpc]; exact fun h => (nomatch h))
      (by rw [hpc]; exact fun h => (nomatch h))
  refine ⟨hI.list, hI.cursor, fun _ => hI.holds (by rw [hpc]; rfl), ?_, ?_, ?_, ?_⟩
  · refine fun procId h => hI.gone procId (h.imp_left fun hgone => ?_)
    simpa using hgone
  · intro procId mode registered h
    rcases List.mem_cons.mp h with heq | hold
    · injection heq with hprocId hmode _
      subst hprocId hmode
      refine ⟨hI.list.handedOut _ hid, fun m hm hsame => ?_⟩
      rw [List.inj_on_of_nodup_map hI.list.ids hm hmem hsame]
    · exact hI.modes procId mode registered hold
  · refine ⟨by simpa using hid, fun h => ?_, fun hmode m r h => ?_, hI.records⟩
    · exact (hI.gone _ (Or.inl h)).2 hid
    · -- an earlier start had the mode the task still has
      have hm := (hI.modes _ m r h).2 n hmem rfl
      rw [hmode] at hm
      exact hfirst ⟨_, r, hm ▸ h⟩
  · rintro ⟨procId, registered, h⟩
    refine ⟨Or.inl rfl, n, hn, ?_⟩
    rcases List.mem_cons.mp h with heq | hold
    · injection heq with _ hmode _
      exact hmode.symm
    · exact absurd ⟨procId, registered, hold⟩ hfirst

/-- Settling a task that is not removed changes due times only. -/
lemma cursorInv_settle (hI : CursorInv s) (hpc : s.pc = .settle) {n : Node φ}
    (hn : s.currentNode = some n) (hmode : n.task.mode ≠ taskSingle) (addr : ℕ) (now : Timespec)
    {nodes : List (Node φ)} (hnodes : nodes = reschedule s.nodes addr now ∨ nodes = s.nodes) :
    CursorInv { s with nodes := nodes, pc := .advance } := by
  have haddrs : nodes.map Node.addr = s.nodes.map Node.addr := by
    rcases hnodes with rfl | rfl
    · exact reschedule_addrs addr now
    · rfl
  have hids : (nodes.map fun n => n.task.procId) = s.nodes.map fun n => n.task.procId := by
    rcases hnodes with rfl | rfl
    · exact reschedule_ids addr now
    · rfl
  have hfrom : ∀ m ∈ nodes, ∃ m' ∈ s.nodes,
      m'.task.procId = m.task.procId ∧ m'.task.mode = m.task.mode := by
    intro m hm
    rcases hnodes with rfl | rfl
    · exact exists_of_mem_reschedule hm
    · exact ⟨m, hm, rfl, rfl⟩
  refine ⟨⟨?_, ?_, ?_⟩, ?_, fun _ => hI.holds (by rw [hpc]; rfl), ?_, ?_, hI.records, ?_⟩
  · rw [haddrs]; exact hI.list.addrs
  · rw [hids]; exact hI.list.ids
  · rw [hids]; exact hI.list.handedOut
  · unfold CursorLinked; rw [haddrs]; exact hI.cursor
  · intro procId h; rw [hids]; exact hI.gone procId h
  · intro procId mode registered h
    obtain ⟨hle, hmodes⟩ := hI.modes procId mode registered h
    refine ⟨hle, fun m hm hid => ?_⟩
    obtain ⟨m', hm', hid', hmode'⟩ := hfrom m hm
    rw [← hmode', hmodes m' hm' (hid'.trans hid)]
  · intro h
    obtain ⟨-, m, hm, hsingle⟩ := hI.single h
    rw [hn, Option.some.injEq] at hm
    exact absurd (hm ▸ hsingle) hmode

/-- The checker moves its cursor to the next linked node, or to `NULL`. -/
lemma cursorLinked_advance {addr : ℕ} (hcursor : s.cursor = some addr)
    (hs' : s'.cursor = s.cursor.bind (nextAddr s.nodes)) (hnodes : s'.nodes = s.nodes) :
    CursorLinked s' := by
  intro next hnext
  rw [hs', hcursor, Option.bind_some] at hnext
  rw [hnodes]
  exact nextAddr_mem hnext

theorem cursorInv_checkerStep {now : Timespec} {junk : Junk φ} (hI : CursorInv s)
    (hfree : s.pc = .settle → (s.currentTask junk).mode ≠ taskSingle)
    (hstep : checkerStep s now junk = some s') : CursorInv s' := by
  have hnode : s.pc.holdsTask = true → ∃ n, s.currentNode = some n := fun h =>
    exists_currentNode hI.cursor (hI.holds h)
  unfold checkerStep at hstep
  cases hpc : s.pc <;> rw [hpc] at hstep <;> simp only at hstep
  case start | reload =>
    -- the cursor goes to the head of the list
    rw [Option.some.injEq] at hstep
    subst hstep
    refine hI.move (by simp [hpc]) rfl rfl rfl rfl (cursorLinked_head rfl rfl rfl) ?_
    exact fun h => (nomatch h)
  case top =>
    rw [Option.ite_none_right_eq_some, Option.some.injEq] at hstep
    obtain ⟨-, rfl⟩ := hstep
    exact hI.move (by simp [hpc]) rfl rfl rfl rfl hI.cursor fun h => (nomatch h)
  case unlock =>
    rw [Option.some.injEq] at hstep
    subst hstep
    exact hI.move (by simp [hpc]) rfl rfl rfl rfl hI.cursor fun h => (nomatch h)
  case check | release =>
    -- the branch taken tells whether the cursor is `NULL`
    rw [Option.some.injEq] at hstep
    subst hstep
    refine hI.move (by simp [hpc]) rfl rfl rfl rfl hI.cursor ?_
    intro h hnone
    rw [show s.cursor = none from hnone] at h
    nomatch h
  case examine =>
    rw [Option.some.injEq] at hstep
    subst hstep
    exact hI.move (by simp [hpc]) rfl rfl rfl rfl hI.cursor
      fun _ => hI.holds (by rw [hpc]; rfl)
  case invoke =>
    obtain ⟨n, hn⟩ := hnode (by rw [hpc]; rfl)
    rw [currentTask_of_currentNode hn] at hstep
    -- with or without a callback to call
    split at hstep <;> (rw [Option.some.injEq] at hstep; subst hstep)
    · exact hI.move (by simp [hpc]) rfl rfl rfl rfl hI.cursor
        fun _ => hI.holds (by rw [hpc]; rfl)
    · exact cursorInv_invoke hI hpc hn
  case calling =>
    rw [Option.some.injEq] at hstep
    subst hstep
    exact hI.frame rfl rfl rfl (fun _ h => h) hI.cursor (fun _ => hI.holds (by rw [hpc]; rfl))
      fun h => ⟨Or.inr rfl, (hI.single h).2⟩
  case settle =>
    obtain ⟨n, hn⟩ := hnode (by rw [hpc]; rfl)
    have hmode := hfree hpc
    rw [currentTask_of_currentNode hn] at hmode hstep
    rw [if_neg hmode, Option.some.injEq] at hstep
    subst hstep
    refine cursorInv_settle hI hpc hn hmode n.addr s.now ?_
    rw [(mem_of_currentNode hn).2]
    split
    · exact Or.inl rfl
    · exact Or.inr rfl
  case advance =>
    obtain ⟨n, hn⟩ := hnode (by rw [hpc]; rfl)
    rw [hn, Option.isSome_some, if_pos rfl, Option.some.injEq] at hstep
    subst hstep
    refine hI.move (by simp [hpc]) rfl rfl rfl rfl
      (cursorLinked_advance (mem_of_currentNode hn).2 rfl rfl) ?_
    exact fun h => (nomatch h)

/-! ## The calls of the other threads -/

/-- Where a thread's section is replaced by one that has unregistered nothing, no id is newly
unregistered. -/
lemma edited_of_update {others : ℕ → Section φ} (thread : ℕ) (sec : Section φ) {procId : ℤ}
    (hsec : sec ≠ .edited (some procId))
    (h : ∃ t, Function.update others thread sec t = .edited (some procId)) :
    ∃ t, others t = .edited (some procId) := by
  obtain ⟨t, ht⟩ := h
  by_cases hsame : t = thread
  · rw [hsame, Function.update_self] at ht
    exact absurd ht hsec
  · rw [Function.update_of_ne hsame] at ht
    exact ⟨t, ht⟩

lemma cursorInv_enter {thread : ℕ} {call : Call φ} (hI : CursorInv s)
    (hstep : step s (.enter thread call) = some s') : CursorInv s' := by
  simp only [step] at hstep
  split at hstep
  · rw [Option.some.injEq] at hstep
    subst hstep
    exact hI.frame rfl rfl rfl
      (fun _ h => h.imp_right (edited_of_update thread (.entered call) fun h => (nomatch h)))
      hI.cursor hI.holds hI.single
  · cases hstep

lemma cursorInv_leaveStep {thread : ℕ} (hI : CursorInv s)
    (hstep : leaveStep s thread = some s') : CursorInv s' := by
  unfold leaveStep at hstep
  split at hstep
  next unregistered hin =>
    rw [Option.some.injEq] at hstep
    subst hstep
    -- leaving may record an id as unregistered, but no start of a callback
    have hold : ∀ procId mode registered,
        Record.started procId mode registered
            ∈ (unregistered.map Record.unregistered).toList ++ s.records →
          .started procId mode registered ∈ s.records := by
      intro procId mode registered h
      cases unregistered <;> simpa using h
    refine ⟨hI.list, hI.cursor, hI.holds, ?_, ?_, ?_, ?_⟩
    · rintro procId (h | ⟨t, ht⟩)
      · refine hI.gone procId ?_
        cases hu : unregistered with
        | none => exact Or.inl (by simpa [hu] using h)
        | some id =>
          rw [hu] at h hin
          rcases List.mem_cons.mp h with heq | hmem
          -- the recorded id is the one whose edit this thread has made
          · injection heq with heq
            exact Or.inr ⟨thread, heq ▸ hin⟩
          · exact Or.inl hmem
      · exact hI.gone procId
          (Or.inr (edited_of_update thread .outside (fun h => (nomatch h)) ⟨t, ht⟩))
    · exact fun procId mode registered h => hI.modes procId mode registered (hold _ _ _ h)
    · cases unregistered <;> exact hI.records
    · rintro ⟨procId, registered, h⟩
      exact hI.single ⟨procId, registered, hold _ _ _ h⟩
  next => cases hstep

/-- `RegisterProc` links its new node in front. -/
lemma cursorInv_register {thread : ℕ} {r : Registration φ} (hI : CursorInv s)
    (haddr : r.addr ∉ s.nodes.map Node.addr) :
    CursorInv
      { s with
        nodes := r.node (s.lastId + 1) :: s.nodes
        lastId := s.lastId + 1
        others := Function.update s.others thread (.edited none) } where
  list := by
    refine ⟨?_, ?_, ?_⟩
    · rw [List.map_cons, List.nodup_cons]
      exact ⟨haddr, hI.list.addrs⟩
    · rw [List.map_cons, List.nodup_cons]
      refine ⟨fun h => ?_, hI.list.ids⟩
      have := hI.list.handedOut _ h
      simp only [Registration.node] at this
      omega
    · intro procId h
      rcases List.mem_cons.mp h with rfl | h
      · exact le_refl _
      · exact (hI.list.handedOut _ h).trans (by simp)
  cursor addr h := List.mem_cons_of_mem _ (hI.cursor addr h)
  holds := hI.holds
  gone procId h := by
    obtain ⟨hle, hnot⟩ := hI.gone procId
      (h.imp_right (edited_of_update thread (.edited none) fun h => (nomatch h)))
    refine ⟨by simp only; omega, fun hmem => ?_⟩
    rcases List.mem_cons.mp hmem with heq | hmem
    · simp only [Registration.node] at heq
      omega
    · exact hnot hmem
  modes := by
    intro procId mode registered h
    obtain ⟨hle, hmodes⟩ := hI.modes procId mode registered h
    refine ⟨by simp only; omega, fun m hm hid => ?_⟩
    rcases List.mem_cons.mp hm with rfl | hm
    · simp only [Registration.node] at hid
      omega
    · exact hmodes m hm hid
  records := hI.records
  single h := by
    obtain ⟨hpc, n, hn, hmode⟩ := hI.single h
    refine ⟨hpc, n, ?_, hmode⟩
    obtain ⟨hmem, hcursor⟩ := mem_of_currentNode hn
    -- `malloc` gives no address that is linked, so the cursor does not stand on the new node
    have hne : ¬ (s.cursor = some r.addr) := fun h => haddr (hI.cursor _ h)
    unfold State.currentNode at hn ⊢
    rw [List.find?_cons, show decide (s.cursor = some (r.node (s.lastId + 1)).addr) = false
      from decide_eq_false hne]
    exact hn

/-- `UnRegisterProc` of a task that is not under the cursor. -/
lemma cursorInv_unregister {thread : ℕ} {procId : ℤ} (hI : CursorInv s)
    (hfree : ∀ n, s.currentNode = some n → n.task.procId ≠ procId) (hpos : 0 < procId) :
    CursorInv
      { s with
        nodes := delNode procId s.nodes
        others :=
          Function.update s.others thread
            (.edited (if 0 < procId ∧ procId ≤ s.lastId then some procId else none)) } := by
  have hsub := delNode_sublist procId s.nodes
  refine ⟨⟨?_, ?_, ?_⟩, ?_, hI.holds, ?_, ?_, hI.records, ?_⟩
  · exact hI.list.addrs.sublist (hsub.map _)
  · exact hI.list.ids.sublist (hsub.map _)
  · exact fun id h => hI.list.handedOut id ((hsub.map _).subset h)
  · intro addr haddr
    obtain ⟨n, hn⟩ := exists_currentNode hI.cursor (by rw [show s.cursor = _ from haddr]; simp)
    obtain ⟨hmem, hcursor⟩ := mem_of_currentNode hn
    rw [show s.cursor = _ from haddr, Option.some.injEq] at hcursor
    subst hcursor
    exact List.mem_map_of_mem (mem_delNode hmem (hfree n hn))
  · intro id hgone
    -- either the id is unregistered by this edit or it was before
    by_cases hid : id = procId ∧ procId ≤ s.lastId
    · obtain ⟨rfl, hle⟩ := hid
      exact ⟨hle, procId_notMem_delNode hI.list.ids⟩
    · have hold : s.gone id := by
        refine hgone.imp_right (edited_of_update thread _ fun heq => ?_)
        injection heq with heq
        split at heq
        next h => exact hid ⟨(Option.some.inj heq).symm, h.2⟩
        next => cases heq
      obtain ⟨hle, hnot⟩ := hI.gone id hold
      exact ⟨hle, fun h => hnot ((hsub.map _).subset h)⟩
  · intro id mode registered h
    obtain ⟨hle, hmodes⟩ := hI.modes id mode registered h
    exact ⟨hle, fun m hm => hmodes m (hsub.subset hm)⟩
  · intro h
    obtain ⟨hpc, n, hn, hmode⟩ := hI.single h
    exact ⟨hpc, n, find?_delNode hn (hfree n hn), hmode⟩

lemma cursorInv_editStep {thread : ℕ} (hI : CursorInv s)
    (hfree : ∀ procId, s.others thread = .entered (.unregister procId) → 0 < procId →
      ∀ n, s.currentNode = some n → n.task.procId ≠ procId)
    (hstep : editStep s thread = some s') : CursorInv s' := by
  unfold editStep at hstep
  split at hstep
  next r hin =>
    rw [Option.ite_none_right_eq_some, Option.some.injEq] at hstep
    obtain ⟨⟨haddr, -⟩, rfl⟩ := hstep
    exact cursorInv_register hI haddr
  next procId hin =>
    rw [Option.some.injEq] at hstep
    subst hstep
    by_cases hpos : 0 < procId
    · rw [if_pos hpos]
      exact cursorInv_unregister hI (hfree procId hin hpos) hpos
    · rw [if_neg hpos, if_neg fun h => hpos h.1]
      exact hI.frame rfl rfl rfl
        (fun _ h => h.imp_right (edited_of_update thread (.edited none) fun h => (nomatch h)))
        hI.cursor hI.holds hI.single
  next => cases hstep

/-! ## Whole runs -/

theorem cursorInv_step (s : State φ) (e : Event φ) (s' : State φ) (hI : CursorInv s)
    (hC : FreesOther s e) (hstep : step s e = some s') : CursorInv s' := by
  cases e with
  | checker now junk => exact cursorInv_checkerStep hI hC hstep
  | enter thread call => exact cursorInv_enter hI hstep
  | edit thread => exact cursorInv_editStep hI hC hstep
  | leave thread => exact cursorInv_leaveStep hI hstep

/-- Removing the task under the cursor leaves the cursor on freed memory. -/
lemma not_cursorLinked_delNode (hI : CursorInv s) {n : Node φ} (hn : s.currentNode = some n)
    (hnodes : s'.nodes = delNode n.task.procId s.nodes) (hcursor : s'.cursor = s.cursor) :
    ¬ RegistrySafe s' := fun hsafe => by
  obtain ⟨hmem, haddr⟩ := mem_of_currentNode hn
  have hlinked := hsafe.cursor n.addr (hcursor.trans haddr)
  rw [hnodes] at hlinked
  exact addr_notMem_delNode hmem hI.list.ids hI.list.addrs hlinked

lemma unsafe_of_frees {e : Event φ} (hI : CursorInv s) (hC : ¬ FreesOther s e) :
    ∃ s', step s e = some s' ∧ ¬ RegistrySafe s' := by
  cases e with
  | checker now junk =>
    simp only [FreesOther, Classical.not_imp, not_not] at hC
    obtain ⟨hpc, hmode⟩ := hC
    obtain ⟨n, hn⟩ := exists_currentNode hI.cursor (hI.holds (by rw [hpc]; rfl))
    refine ⟨_, by simp only [step, checkerStep, hpc, hmode, if_true]; rfl, ?_⟩
    rw [currentTask_of_currentNode hn]
    exact not_cursorLinked_delNode hI hn rfl rfl
  | edit thread =>
    simp only [FreesOther, not_forall, not_not] at hC
    obtain ⟨procId, hin, hpos, n, hn, hid⟩ := hC
    refine ⟨_, by simp only [step, editStep, hin, if_pos hpos]; rfl, ?_⟩
    exact not_cursorLinked_delNode hI hn (by rw [hid]) rfl
  | enter thread call => exact absurd trivial hC
  | leave thread => exact absurd trivial hC

end Invariant

/-- **Exactly when the registry is safe.** In every run of the checker and of any number of
other threads that register and unregister tasks of both modes, the cursor stays on linked
nodes and the callbacks are those of registered tasks if and only if no step frees the node
under the cursor. -/
theorem registry_safe_iff (events : List (Event φ)) :
    Always step RegistrySafe timerThrCreat events ↔
      EveryStep step FreesOther timerThrCreat events :=
  always_iff_everyStep (I := CursorInv) (fun _ hI => ⟨hI.cursor, hI.records⟩) cursorInv_step
    (fun _ _ hI hC => unsafe_of_frees hI hC) events cursorInv_creat

/-- A single task, due at once: the checker frees the node under its own cursor. -/
theorem registry_unsafe :
    ¬ Always (step (φ := Unit)) RegistrySafe timerThrCreat
      (let tick := Event.checker ⟨7, 0⟩ ⟨⟨0, [], 0, 0, ⟨0, 0⟩, 0, none⟩, none⟩
       [.enter 0 (.register ⟨taskSingle, 0, [], some (), 0, 4096, ⟨7, 0⟩⟩), .edit 0, .leave 0,
        tick, tick, tick, tick, tick, tick, tick]) := by
  intro h
  have hlast := ((((((((((h.2 _ rfl).2 _ rfl).2 _ rfl).2 _ rfl).2 _ rfl).2 _ rfl).2 _ rfl).2 _
    rfl).2 _ rfl).2 _ rfl)
  exact absurd (hlast.cursor 4096 rfl) (fun h => (nomatch h))

end IpncRdk.TimerThr
