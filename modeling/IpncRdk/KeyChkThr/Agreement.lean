import IpncRdk.KeyChkThr.Keys
import IpncRdk.TimerThr.Cursor

/-!
# The run state and what it stands for

* `Agrees` — the run state is `MDVR_Sys_EXE_TASK` exactly while one check is registered;
* `Safe` — it agrees at the end of every iteration, and one `airkissThr` at most can write it;
* `WriteOk` — an `airkissThr` overwrites `MDVR_Sys_AIRKISS` only;
* `Inv` — what ties the list, the run state and the threads to the place of the key thread;
* `runState_agrees` — all runs of all threads.
-/

namespace IpncRdk.KeyChkThr

open Lib TimerThr
open SysCfg (RunState)

/-! ## Agreement -/

/-- The ids of the registered checks. -/
def taskIds (nodes : List (Node Callback)) : List ℤ :=
  (nodes.filter fun n => n.task.pfnProc = some .execTaskStateMachine).map fun n => n.task.procId

/-- The run state is `MDVR_Sys_EXE_TASK` if and only if exactly one check is registered, and
otherwise none is. -/
structure Agrees (s : State) : Prop where
  one : s.runState = .exeTask ↔ (taskIds s.nodes).length = 1
  none : s.runState ≠ .exeTask → taskIds s.nodes = []

/-- An `airkissThr` that has not returned. -/
def CanWrite (s : State) (thread : ℕ) : Prop :=
  ∃ t, s.threads[thread]? = some t ∧ t.pc ≠ .exited

/-- The run state agrees between two iterations of the key thread, and at most one `airkissThr`
can still write it. -/
structure Safe (s : State) : Prop where
  agrees : s.pc = .top → Agrees s
  single : ∀ i j, CanWrite s i → CanWrite s j → i = j

/-- A step of an `airkissThr` that writes the run state replaces `MDVR_Sys_AIRKISS`. -/
def WriteOk (s : State) : Event → Prop
  | .airkiss thread e =>
    ∀ t s', s.threads[thread]? = some t → step s (.airkiss thread e) = some s' →
      t.pc = .finish ∨ s'.runState ≠ s.runState → s.runState = .airkiss
  | _ => True

/-! ## The registered checks -/

section TaskIds
variable {nodes : List (Node Callback)}

lemma taskIds_cons_of_other {n : Node Callback}
    (hn : n.task.pfnProc ≠ some .execTaskStateMachine) : taskIds (n :: nodes) = taskIds nodes := by
  unfold taskIds
  rw [List.filter_cons_of_neg (by simpa using hn)]

lemma taskIds_cons_of_task {n : Node Callback}
    (hn : n.task.pfnProc = some .execTaskStateMachine) :
    taskIds (n :: nodes) = n.task.procId :: taskIds nodes := by
  unfold taskIds
  rw [List.filter_cons_of_pos (by simpa using hn)]
  rfl

/-- The removal of the only check. -/
lemma taskIds_delNode_self {procId : ℤ} (hids : (nodes.map fun n => n.task.procId).Nodup)
    (htasks : taskIds nodes = [procId]) : taskIds (delNode procId nodes) = [] := by
  rw [List.eq_nil_iff_forall_not_mem]
  intro p hp
  have hsub : (taskIds (delNode procId nodes)).Sublist (taskIds nodes) :=
    ((delNode_sublist procId nodes).filter _).map _
  have hpid : p = procId := by
    have := hsub.subset hp
    rw [htasks] at this
    exact List.mem_singleton.mp this
  obtain ⟨n, hn, hnid⟩ := List.mem_map.mp hp
  exact procId_notMem_delNode hids
    (List.mem_map.mpr ⟨n, (List.mem_filter.mp hn).1, hnid.trans hpid⟩)

end TaskIds

/-- The task list with its ids, and the checks in it. -/
structure Registry (nodes : List (Node Callback)) (lastId : ℤ) (tasks : List ℤ) : Prop where
  nodup : (nodes.map fun n => n.task.procId).Nodup
  lastId_nonneg : 0 ≤ lastId
  bounds : ∀ n ∈ nodes, 0 < n.task.procId ∧ n.task.procId ≤ lastId
  tasks_eq : taskIds nodes = tasks

namespace Registry

variable {nodes : List (Node Callback)} {lastId : ℤ} {tasks : List ℤ}

/-- A new id is none of those in the list. -/
lemma notMem (h : Registry nodes lastId tasks) :
    lastId + 1 ∉ nodes.map fun n => n.task.procId := by
  intro hmem
  obtain ⟨n, hn, hid⟩ := List.mem_map.mp hmem
  have := (h.bounds n hn).2
  omega

lemma register (h : Registry nodes lastId tasks) (r : Registration Callback) :
    Registry (r.node (lastId + 1) :: nodes) (lastId + 1)
      (if r.pfnProc = some .execTaskStateMachine then (lastId + 1) :: tasks else tasks) where
  nodup := List.nodup_cons.mpr ⟨h.notMem, h.nodup⟩
  lastId_nonneg := by
    have := h.lastId_nonneg
    omega
  bounds := by
    have := h.lastId_nonneg
    refine List.forall_mem_cons.mpr ⟨⟨?_, le_refl _⟩, fun n hn => ?_⟩
    · show 0 < lastId + 1
      omega
    · obtain ⟨hpos, hle⟩ := h.bounds n hn
      exact ⟨hpos, by omega⟩
  tasks_eq := by
    by_cases htask : r.pfnProc = some .execTaskStateMachine
    · rw [if_pos htask, taskIds_cons_of_task htask, h.tasks_eq]
      rfl
    · rw [if_neg htask, taskIds_cons_of_other htask, h.tasks_eq]

/-- `UnRegisterProc` of the only check. -/
lemma unregister {procId : ℤ} (h : Registry nodes lastId [procId]) :
    Registry (delNode procId nodes) lastId [] where
  nodup := ((delNode_sublist procId nodes).map _).nodup h.nodup
  lastId_nonneg := h.lastId_nonneg
  bounds n hn := h.bounds n (mem_of_mem_delNode hn)
  tasks_eq := taskIds_delNode_self h.nodup h.tasks_eq

end Registry

/-! ## The place of the key thread -/

/-- The run state that a place of the key thread relies on. -/
def Expects : Pc → RunState → Prop
  | .link, rs | .register, rs | .setExeTask, rs | .warn _, rs | .enter, rs | .setAirkiss, rs =>
    rs = .idle
  | .endWarn _, rs => rs = .warning
  | .unregister, rs | .setIdle, rs => rs = .exeTask
  | .create, rs => rs = .airkiss
  | .request, rs | .join, rs | .endAirkiss, rs => rs = .airkiss ∨ rs = .idle
  | .top, _ | .power, _ | .wps, _ | .wpsShort, _ | .wpsLong, _ => True

/-- The check that is registered at a place of the key thread. -/
def armed (pc : Pc) (runState : RunState) (procId : ℤ) : List ℤ :=
  if pc = .setExeTask ∨ (runState = .exeTask ∧ pc ≠ .setIdle) then [procId] else []

/-- No `airkissThr` runs. -/
def Quiet (s : State) : Prop := ∀ (i : ℕ) (t : Airkiss), s.threads[i]? = some t → t.pc = .exited

structure Inv (s : State) : Prop where
  registry : Registry s.nodes s.lastId (armed s.pc s.runState s.procId)
  expects : Expects s.pc s.runState
  threads : ∀ i t, s.threads[i]? = some t → t.pc ≠ .exited →
    i = 0 ∧ s.runState = .airkiss ∧ s.pc ≠ .create ∧ s.pc ≠ .endAirkiss

section Inv
variable {s s' : State}

lemma Inv.quiet_of_ne (h : Inv s) (hrs : s.runState ≠ .airkiss) : Quiet s := by
  intro i t ht
  by_contra halive
  exact hrs (h.threads i t ht halive).2.1

/-- What the invariant says at a place of the key thread. -/
lemma Inv.expects_at (h : Inv s) {pc : Pc} (hpc : s.pc = pc) : Expects pc s.runState := by
  rw [← hpc]
  exact h.expects

lemma Inv.registry_at (h : Inv s) {pc : Pc} {runState : RunState} (hpc : s.pc = pc)
    (hrs : s.runState = runState) : Registry s.nodes s.lastId (armed pc runState s.procId) := by
  rw [← hpc, ← hrs]
  exact h.registry

/-- At the end of an iteration the run state agrees. -/
lemma Inv.safe (h : Inv s) : Safe s := by
  constructor
  · intro htop
    have htasks := h.registry.tasks_eq
    rw [htop] at htasks
    by_cases hrs : s.runState = .exeTask
    · rw [armed, if_pos (.inr ⟨hrs, by simp⟩)] at htasks
      exact ⟨by simp [hrs, htasks], fun hne => absurd hrs hne⟩
    · rw [armed, if_neg (by simp [hrs])] at htasks
      exact ⟨by simp [hrs, htasks], fun _ => htasks⟩
  · rintro i j ⟨t, ht, halive⟩ ⟨u, hu, halive'⟩
    rw [(h.threads i t ht halive).1, (h.threads j u hu halive').1]

/-- A step of the key thread that leaves the list and the threads alone. -/
lemma Inv.move (h : Inv s) (hnodes : s'.nodes = s.nodes) (hlast : s'.lastId = s.lastId)
    (hthreads : s'.threads = s.threads) (hexpects : Expects s'.pc s'.runState)
    (harmed : armed s'.pc s'.runState s'.procId = armed s.pc s.runState s.procId)
    (hquiet : Quiet s ∨ (s'.runState = s.runState ∧ s'.pc ≠ .create ∧ s'.pc ≠ .endAirkiss)) :
    Inv s' where
  registry := by
    rw [hnodes, hlast, harmed]
    exact h.registry
  expects := hexpects
  threads i t ht halive := by
    rw [hthreads] at ht
    rcases hquiet with hquiet | ⟨hrs, hpc⟩
    · exact absurd (hquiet i t ht) halive
    · obtain ⟨hi, hairkiss, -⟩ := h.threads i t ht halive
      exact ⟨hi, hrs ▸ hairkiss, hpc⟩

/-- A step that only moves the key thread. -/
lemma Inv.goto (h : Inv s) {pc' : Pc} {counters : Counters} {isExit : Bool}
    (hexpects : Expects pc' s.runState)
    (harmed : armed pc' s.runState s.procId = armed s.pc s.runState s.procId)
    (hpc : pc' ≠ .create ∧ pc' ≠ .endAirkiss) :
    Inv { s with pc := pc', counters := counters, isExit := isExit } :=
  h.move rfl rfl rfl hexpects harmed (.inr ⟨rfl, hpc⟩)

/-- A write of the run state by the key thread, with no `airkissThr` running. -/
lemma Inv.write (h : Inv s) {pc' : Pc} {runState : RunState} (hquiet : Quiet s)
    (hexpects : Expects pc' runState)
    (harmed : armed pc' runState s.procId = armed s.pc s.runState s.procId) :
    Inv { s with pc := pc', runState := runState } :=
  h.move rfl rfl rfl hexpects harmed (.inl hquiet)

/-- The same from a place that relies on a run state with no `airkissThr`. -/
lemma Inv.write_from (h : Inv s) {pc pc' : Pc} {runState runState' : RunState} (hpc : s.pc = pc)
    (hrs : s.runState = runState) (hne : runState ≠ .airkiss) (hexpects : Expects pc' runState')
    (harmed : armed pc' runState' s.procId = armed pc runState s.procId) :
    Inv { s with pc := pc', runState := runState' } := by
  refine h.write (h.quiet_of_ne (hrs ▸ hne)) hexpects ?_
  rw [hpc, hrs]
  exact harmed

/-! ## Steps of the key thread -/

/-- The places at which neither a check has just been registered nor one just been removed. -/
lemma armed_of_plain {pc : Pc} {runState : RunState} {procId : ℤ} (h₁ : pc ≠ .setExeTask)
    (h₂ : pc ≠ .setIdle) :
    armed pc runState procId = if runState = .exeTask then [procId] else [] := by
  simp [armed, h₁, h₂]

lemma armed_of_ne (pc : Pc) (procId : ℤ) {runState runState' : RunState}
    (h : runState ≠ .exeTask) (h' : runState' ≠ .exeTask) :
    armed pc runState procId = armed pc runState' procId := by
  simp [armed, h, h']

/-- Where the key thread relies on `MDVR_Sys_AIRKISS`, and a thread can end, `MDVR_Sys_IDLE` does
as well. -/
lemma expects_idle {pc : Pc} (h : Expects pc .airkiss) (hcreate : pc ≠ .create) :
    Expects pc .idle := by
  cases pc with
  | request | join | endAirkiss => exact .inr rfl
  | create => exact absurd rfl hcreate
  | top | power | wps | wpsShort | wpsLong => trivial
  | link | register | setExeTask | warn | enter | setAirkiss => rfl
  | endWarn | unregister | setIdle => simp [Expects] at h

lemma inv_registerTask (h : Inv s) (hpc : s.pc = .register) {i : Inputs}
    (hstep : registerTask s i = some s') : Inv s' := by
  have hrs : s.runState = .idle := h.expects_at hpc
  have hquiet : Quiet s := h.quiet_of_ne (by rw [hrs]; decide)
  have hnone : Registry s.nodes s.lastId [] := h.registry_at hpc hrs
  cases hmem : i.memory with
  | none =>
    simp only [registerTask, hmem, Option.some.injEq] at hstep
    subst hstep
    refine h.move rfl rfl rfl trivial ?_ (.inl hquiet)
    rw [armed, armed, hpc, hrs]
    rfl
  | some addr =>
    simp only [registerTask, hmem, registerProc] at hstep
    split at hstep
    swap
    · simp at hstep
    rw [Option.map_some, Option.some.injEq] at hstep
    subst hstep
    have hpos : 0 < s.lastId + 1 := by
      have := h.registry.lastId_nonneg
      omega
    constructor
    · show Registry _ (s.lastId + 1) (armed (if 0 < s.lastId + 1 then .setExeTask else .wps)
        s.runState (s.lastId + 1))
      rw [if_pos hpos, armed, if_pos (.inl rfl)]
      exact hnone.register (taskRegistration addr i.now)
    · show Expects (if 0 < s.lastId + 1 then .setExeTask else .wps) s.runState
      rw [if_pos hpos]
      exact hrs
    · exact fun j t ht halive => absurd (hquiet j t ht) halive

lemma inv_unregister (h : Inv s) (hpc : s.pc = .unregister) :
    Inv { unRegisterProc s s.procId with pc := .setIdle } := by
  have hrs : s.runState = .exeTask := h.expects_at hpc
  have hone : Registry s.nodes s.lastId [s.procId] := h.registry_at hpc hrs
  -- the id of a registered check is one that `RegisterProc` returned
  have hpos : 0 < s.procId := by
    have hmem : s.procId ∈ taskIds s.nodes := by
      rw [hone.tasks_eq]
      exact List.mem_singleton_self s.procId
    obtain ⟨n, hn, hid⟩ := List.mem_map.mp hmem
    exact hid ▸ (h.registry.bounds n (List.mem_filter.mp hn).1).1
  constructor
  · show Registry (if 0 < s.procId then delNode s.procId s.nodes else s.nodes) s.lastId
      (armed .setIdle s.runState s.procId)
    rw [if_pos hpos, armed, if_neg (by simp)]
    exact hone.unregister
  · exact hrs
  · intro j t ht halive
    have := (h.threads j t ht halive).2.1
    rw [hrs] at this
    simp at this

/-- A new `airkissThr`, when all others have ended. -/
lemma inv_create (h : Inv s) (hpc : s.pc = .create) :
    Inv { s with threads := ⟨.init, false⟩ :: s.threads, pc := .top } := by
  have hrs : s.runState = .airkiss := h.expects_at hpc
  constructor
  · show Registry s.nodes s.lastId (armed .top s.runState s.procId)
    have hcreate : Registry s.nodes s.lastId (armed .create .airkiss s.procId) :=
      h.registry_at hpc hrs
    rw [hrs]
    exact hcreate
  · trivial
  · intro i t ht halive
    cases i with
    | zero => exact ⟨rfl, hrs, by simp, by simp⟩
    | succ i =>
      rw [List.getElem?_cons_succ] at ht
      exact absurd hpc (h.threads i t ht halive).2.2.1

/-- The join returns when the last thread, the only one that may run, has ended. -/
lemma inv_join (h : Inv s) (hpc : s.pc = .join) (hended : ∀ t ∈ s.threads.head?, t.pc = .exited) :
    Inv { s with pc := .endAirkiss } := by
  have hrs : s.runState = .airkiss ∨ s.runState = .idle := h.expects_at hpc
  refine h.move rfl rfl rfl hrs ?_ (.inl fun i t ht => ?_)
  · show armed .endAirkiss s.runState s.procId = armed s.pc s.runState s.procId
    rw [hpc, armed_of_plain (by simp) (by simp), armed_of_plain (by simp) (by simp)]
  · by_contra halive
    obtain ⟨rfl, -⟩ := h.threads i t ht halive
    rw [← List.head?_eq_getElem?] at ht
    exact halive (hended t ht)

/-- A step between two places at which the list fits the run state. -/
lemma Inv.goto_plain (h : Inv s) {pc pc' : Pc} {counters : Counters} {isExit : Bool}
    (hpc : s.pc = pc) (hexpects : Expects pc' s.runState)
    (hplain : pc ≠ .setExeTask ∧ pc ≠ .setIdle ∧ pc' ≠ .setExeTask ∧ pc' ≠ .setIdle)
    (hquiet : pc' ≠ .create ∧ pc' ≠ .endAirkiss) :
    Inv { s with pc := pc', counters := counters, isExit := isExit } := by
  refine h.goto hexpects ?_ hquiet
  rw [hpc, armed_of_plain hplain.2.2.1 hplain.2.2.2, armed_of_plain hplain.1 hplain.2.1]

/-- Reading a key changes the counters only. -/
lemma inv_top (h : Inv s) {i : Inputs} (hpc : s.pc = .top)
    (hstep : keyStep s i = some s') : Inv s' := by
  simp only [keyStep, hpc] at hstep
  split_ifs at hstep <;> obtain rfl := Option.some.inj hstep <;>
    exact h.goto_plain hpc trivial (by simp) (by simp)

lemma inv_wps (h : Inv s) {i : Inputs} (hpc : s.pc = .wps)
    (hstep : keyStep s i = some s') : Inv s' := by
  simp only [keyStep, hpc] at hstep
  split_ifs at hstep <;> obtain rfl := Option.some.inj hstep <;>
    exact h.goto_plain hpc trivial (by simp) (by simp)

/-- The place behind a test relies on the run state that was met. -/
lemma inv_power (h : Inv s) {i : Inputs} (hpc : s.pc = .power)
    (hstep : keyStep s i = some s') : Inv s' := by
  simp only [keyStep, hpc, Option.some.injEq] at hstep
  split_ifs at hstep with hidle hexe <;> subst hstep
  · exact h.goto_plain hpc hidle (by simp) (by simp)
  · exact h.goto_plain hpc hexe (by simp) (by simp)
  · exact h.goto_plain hpc trivial (by simp) (by simp)

lemma inv_link (h : Inv s) {i : Inputs} (hpc : s.pc = .link)
    (hstep : keyStep s i = some s') : Inv s' := by
  have hidle := h.expects_at hpc
  simp only [keyStep, hpc, Option.some.injEq] at hstep
  split_ifs at hstep <;> subst hstep <;> exact h.goto_plain hpc hidle (by simp) (by simp)

lemma inv_wpsShort (h : Inv s) {i : Inputs} (hpc : s.pc = .wpsShort)
    (hstep : keyStep s i = some s') : Inv s' := by
  simp only [keyStep, hpc, Option.some.injEq] at hstep
  split_ifs at hstep with hairkiss hidle <;> subst hstep
  · exact h.goto_plain hpc (.inl hairkiss) (by simp) (by simp)
  · exact h.goto_plain hpc hidle (by simp) (by simp)
  · exact h.goto_plain hpc trivial (by simp) (by simp)

lemma inv_wpsLong (h : Inv s) {i : Inputs} (hpc : s.pc = .wpsLong)
    (hstep : keyStep s i = some s') : Inv s' := by
  simp only [keyStep, hpc, Option.some.injEq] at hstep
  split_ifs at hstep with hidle <;> subst hstep
  · exact h.goto_plain hpc hidle (by simp) (by simp)
  · exact h.goto_plain hpc trivial (by simp) (by simp)

lemma inv_enter (h : Inv s) {i : Inputs} (hpc : s.pc = .enter)
    (hstep : keyStep s i = some s') : Inv s' := by
  have hidle : s.runState = .idle := h.expects_at hpc
  simp only [keyStep, hpc, Option.some.injEq] at hstep
  split_ifs at hstep <;> subst hstep
  · exact h.goto_plain hpc trivial (by simp) (by simp)
  · exact h.goto_plain hpc hidle (by simp) (by simp)

/-- No `airkissThr` runs where the run state is written. -/
lemma inv_setExeTask (h : Inv s) {i : Inputs} (hpc : s.pc = .setExeTask)
    (hstep : keyStep s i = some s') : Inv s' := by
  simp only [keyStep, hpc, Option.some.injEq] at hstep
  subst hstep
  exact h.write_from hpc (h.expects_at hpc) (by decide) trivial rfl

lemma inv_setIdle (h : Inv s) {i : Inputs} (hpc : s.pc = .setIdle)
    (hstep : keyStep s i = some s') : Inv s' := by
  simp only [keyStep, hpc, Option.some.injEq] at hstep
  subst hstep
  exact h.write_from hpc (h.expects_at hpc) (by decide) trivial rfl

lemma inv_warn (h : Inv s) {i : Inputs} {key : Key} (hpc : s.pc = .warn key)
    (hstep : keyStep s i = some s') : Inv s' := by
  simp only [keyStep, hpc, Option.some.injEq] at hstep
  subst hstep
  exact h.write_from hpc (h.expects_at hpc) (by decide) rfl rfl

lemma inv_endWarn (h : Inv s) {i : Inputs} {key : Key} (hpc : s.pc = .endWarn key)
    (hstep : keyStep s i = some s') : Inv s' := by
  simp only [keyStep, hpc, Option.some.injEq] at hstep
  subst hstep
  refine h.write_from hpc (h.expects_at hpc) (by decide) ?_ ?_
  · cases key <;> trivial
  · cases key <;> rfl

lemma inv_setAirkiss (h : Inv s) {i : Inputs} (hpc : s.pc = .setAirkiss)
    (hstep : keyStep s i = some s') : Inv s' := by
  simp only [keyStep, hpc, Option.some.injEq] at hstep
  subst hstep
  exact h.write_from hpc (h.expects_at hpc) (by decide) rfl rfl

/-- Behind the join no `airkissThr` runs. -/
lemma inv_endAirkiss (h : Inv s) {i : Inputs} (hpc : s.pc = .endAirkiss)
    (hstep : keyStep s i = some s') : Inv s' := by
  have hquiet : Quiet s := by
    intro j t ht
    by_contra halive
    exact (h.threads j t ht halive).2.2.2 hpc
  simp only [keyStep, hpc, Option.some.injEq] at hstep
  subst hstep
  refine h.write hquiet trivial ?_
  rcases h.expects_at hpc with hrs | hrs <;> rw [hrs, hpc] <;> rfl

/-- The stop request. -/
lemma inv_request (h : Inv s) {i : Inputs} (hpc : s.pc = .request)
    (hstep : keyStep s i = some s') : Inv s' := by
  have hrs : s.runState = .airkiss ∨ s.runState = .idle := h.expects_at hpc
  simp only [keyStep, hpc, Option.some.injEq] at hstep
  subst hstep
  exact h.goto_plain hpc hrs (by simp) (by simp)

theorem inv_keyStep (h : Inv s) {i : Inputs} (hstep : keyStep s i = some s') : Inv s' := by
  cases hpc : s.pc with
  | top => exact inv_top h hpc hstep
  | power => exact inv_power h hpc hstep
  | link => exact inv_link h hpc hstep
  | register =>
    simp only [keyStep, hpc] at hstep
    exact inv_registerTask h hpc hstep
  | setExeTask => exact inv_setExeTask h hpc hstep
  | unregister =>
    simp only [keyStep, hpc, Option.some.injEq] at hstep
    exact hstep ▸ inv_unregister h hpc
  | setIdle => exact inv_setIdle h hpc hstep
  | warn key => exact inv_warn h hpc hstep
  | endWarn key => exact inv_endWarn h hpc hstep
  | wps => exact inv_wps h hpc hstep
  | wpsShort => exact inv_wpsShort h hpc hstep
  | wpsLong => exact inv_wpsLong h hpc hstep
  | enter => exact inv_enter h hpc hstep
  | setAirkiss => exact inv_setAirkiss h hpc hstep
  | create =>
    simp only [keyStep, hpc, Option.some.injEq] at hstep
    exact hstep ▸ inv_create h hpc
  | request => exact inv_request h hpc hstep
  | join =>
    simp only [keyStep, hpc] at hstep
    split at hstep
    next hended => exact Option.some.inj hstep ▸ inv_join h hpc hended
    next => cases hstep
  | endAirkiss => exact inv_endAirkiss h hpc hstep

/-! ## Steps of the other threads -/

/-- A step of an `airkissThr` leaves the run state alone, or writes `MDVR_Sys_IDLE` and ends. -/
lemma airkissThr_spec {v v' : AirkissThr.State} {e : AirkissThr.Event}
    (hstep : airkissThr v e = some v') :
    v.pc ≠ .exited ∧ ((v.pc ≠ .finish ∧ v'.runState = v.runState) ∨
      (v.pc = .finish ∧ v'.runState = .idle ∧ v'.pc = .exited)) := by
  cases e with
  | thread succeeds =>
    simp only [airkissThr, AirkissThr.threadStep] at hstep
    cases hpc : v.pc <;> simp only [hpc, Option.some.injEq, reduceCtorEq] at hstep
    case test =>
      split_ifs at hstep <;> obtain rfl := Option.some.inj hstep <;>
        exact ⟨by simp, .inl ⟨by simp, rfl⟩⟩
    case finish =>
      subst hstep
      exact ⟨by simp, .inr ⟨rfl, rfl, rfl⟩⟩
    all_goals
      subst hstep
      exact ⟨by simp, .inl ⟨by simp, rfl⟩⟩
  | pass received =>
    simp only [airkissThr] at hstep
    split at hstep
    swap
    · simp at hstep
    rename_i hpc
    obtain rfl := Option.some.inj hstep
    refine ⟨by simp [hpc], .inl ⟨by simp [hpc], ?_⟩⟩
    rcases received with _ | _ | _ | _ <;> rfl
  | _ => simp [airkissThr] at hstep

lemma inv_airkissStep (h : Inv s) {thread : ℕ} {e : AirkissThr.Event}
    (hstep : airkissStep s thread e = some s') : Inv s' := by
  unfold airkissStep at hstep
  obtain ⟨t, ht, hstep⟩ := Option.bind_eq_some_iff.mp hstep
  obtain ⟨v, hv, rfl⟩ := Option.map_eq_some_iff.mp hstep
  obtain ⟨halive, hwrite⟩ := airkissThr_spec hv
  obtain ⟨rfl, hairkiss, hpc⟩ := h.threads thread t ht halive
  have hlt : 0 < s.threads.length := (List.getElem?_eq_some_iff.mp ht).1
  -- the thread that steps is the only one that has not ended
  have hothers : ∀ i u, (s.threads.set 0 ⟨v.pc, v.isGetSSID⟩)[i]? = some u → u.pc ≠ .exited →
      i = 0 ∧ u.pc = v.pc := by
    intro i u hu hualive
    by_cases hi : i = 0
    · subst hi
      rw [List.getElem?_set_self hlt, Option.some.injEq] at hu
      exact ⟨rfl, by rw [← hu]⟩
    · rw [List.getElem?_set_ne (Ne.symm hi)] at hu
      exact absurd (h.threads i u hu hualive).1 hi
  rcases hwrite with ⟨-, hsame⟩ | ⟨-, hidle, hended⟩
  · have hrs : v.runState = s.runState := hsame
    constructor
    · show Registry s.nodes s.lastId (armed s.pc v.runState s.procId)
      rw [hrs]
      exact h.registry
    · show Expects s.pc v.runState
      rw [hrs]
      exact h.expects
    · intro i u hu hualive
      exact ⟨(hothers i u hu hualive).1, hrs.trans hairkiss, hpc⟩
  · constructor
    · show Registry s.nodes s.lastId (armed s.pc v.runState s.procId)
      have hsame : armed s.pc v.runState s.procId = armed s.pc s.runState s.procId :=
        armed_of_ne s.pc s.procId (by rw [hidle]; decide) (by rw [hairkiss]; decide)
      rw [hsame]
      exact h.registry
    · show Expects s.pc v.runState
      rw [hidle]
      exact expects_idle (hairkiss ▸ h.expects) hpc.1
    · intro i u hu hualive
      exact absurd ((hothers i u hu hualive).2.trans hended) hualive

theorem inv_step (s : State) (e : Event) (s' : State) (h : Inv s)
    (hstep : step s e = some s') : Inv s' := by
  cases e with
  | key i => exact inv_keyStep h hstep
  | airkiss thread e => exact inv_airkissStep h hstep
  | register r =>
    simp only [step, registerProc] at hstep
    split_ifs at hstep with htask hok
    obtain rfl := Option.some.inj hstep
    refine ⟨?_, h.expects, h.threads⟩
    have := h.registry.register r
    rw [if_neg htask] at this
    exact this

lemma Inv.writeOk (h : Inv s) (e : Event) : WriteOk s e := by
  cases e with
  | airkiss thread e =>
    intro t s' ht hstep _
    simp only [step, airkissStep, ht, Option.bind_some] at hstep
    obtain ⟨v, hv, -⟩ := Option.map_eq_some_iff.mp hstep
    exact (h.threads thread t ht (airkissThr_spec hv).1).2.1
  | key => trivial
  | register => trivial

lemma inv_start : Inv start where
  registry := ⟨List.nodup_nil, le_refl _, fun n hn => absurd hn List.not_mem_nil,
    rfl⟩
  expects := trivial
  threads i t ht := by simp [start] at ht

end Inv

/-! ## Runs -/

/-- **The run state and the registered checks agree.** In every run of the key thread, of all
`airkissThr`s and of the threads that register tasks, whichever calls of `RegisterProc` fail: at
the end of every iteration of the key thread the run state is `MDVR_Sys_EXE_TASK` exactly if one
check is registered, and otherwise none is; one `airkissThr` at most can still write the run
state; and such a write replaces `MDVR_Sys_AIRKISS`. -/
theorem runState_agrees (events : List Event) :
    Always step Safe start events ∧ EveryStep step WriteOk start events :=
  ⟨always_of_invariant (fun _ h => h.safe) inv_step events inv_start,
    everyStep_of_invariant (fun _ e h => h.writeOk e) inv_step events inv_start⟩

end IpncRdk.KeyChkThr
