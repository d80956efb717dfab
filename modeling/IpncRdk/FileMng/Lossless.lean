import IpncRdk.FileMng.LogList

/-!
# `file_mng.c`: no record is lost

* `Lossless` — what holds in every state: the list is a circle of allocated nodes, the records
  passed to the callback are the appended ones in their order without those that wait in the list,
  and the traversal can always go on;
* `Inv` — the invariant behind it: the entry is the first node, and the cached pointer leads to
  the second one, or to the head if there was none when it was read;
* `cost` — how many steps of the traversal it takes until a record is passed on;
* `logList_lossless` — every run.
-/

namespace IpncRdk.FileMng

open Lib

/-- The nodes whose records have not been passed on: the first node has been when it is about to be
deleted. -/
def waiting (pc : Pc) (nodes : List ℕ) : List ℕ :=
  match pc with
  | .del _ _ => nodes.tail
  | _ => nodes

/-- What holds of a state. -/
structure Lossless (s : State) : Prop where
  /-- the list is whole, and the records that are not in it any more have been passed on, once and
  in order -/
  list : ∃ nodes, LinkedRing s.links gLogList nodes ∧ (∀ x ∈ nodes, x ∈ s.live) ∧
    s.appended = s.passed ++ (waiting s.pc nodes).map s.node
  /-- no freed node is read -/
  foreach : ∃ s', step s .foreach = some s'
  add : ∀ cur record, ¬ s.Valid cur → ∃ s', step s (.add cur record) = some s'
  /-- what has been appended is passed on, whatever else happens -/
  delivered : ∀ es t, run step s es = some t →
    9 * (s.appended.length - s.passed.length + 1) ≤ es.count .foreach → s.appended <+: t.passed

/-- The head, or the first of the nodes. -/
def First (x : ℕ) (nodes : List ℕ) : Prop := x = gLogList ∨ nodes.head? = some x

/-- Where the traversal can be when the list has the nodes. -/
def At (s : State) (nodes : List ℕ) : Pc → Prop
  | .idle => True
  | .readNext entry => First entry nodes
  | .test entry pos => entry = gLogList ∨ ∃ rest, nodes = entry :: rest ∧ First pos rest
  | .callback entry pos | .del entry pos => ∃ rest, nodes = entry :: rest ∧ First pos rest
  | .free entry pos => entry ∉ nodes ∧ entry ∈ s.live ∧ First pos nodes
  | .advance pos => First pos nodes

/-- The invariant. -/
structure Inv (s : State) (nodes : List ℕ) : Prop where
  ring : LinkedRing s.links gLogList nodes
  live : ∀ x ∈ nodes, x ∈ s.live
  order : s.appended = s.passed ++ (waiting s.pc nodes).map s.node
  pc : At s nodes s.pc

/-! ## Appending -/

section Add
variable {s : State} {nodes : List ℕ} {cur : ℕ}

lemma First.append {x : ℕ} (h : First x nodes) : First x (nodes ++ [cur]) := by
  rcases h with rfl | h
  · exact Or.inl rfl
  · exact Or.inr (by simp [h])

lemma waiting_subset {pc : Pc} {x : ℕ} (h : x ∈ waiting pc nodes) : x ∈ nodes := by
  unfold waiting at h
  split at h
  · exact List.mem_of_mem_tail h
  · exact h

/-- The new node waits behind the others. -/
lemma waiting_append {pc : Pc} (h : At s nodes pc) :
    waiting pc (nodes ++ [cur]) = waiting pc nodes ++ [cur] := by
  cases pc with
  | del entry pos =>
    obtain ⟨rest, rfl, -⟩ := h
    rfl
  | _ => rfl

/-- Nor does a new node change where the traversal is: it is not the one that is being freed. -/
lemma At.append {pc : Pc} (h : At s nodes pc) (hcur : cur ∉ s.live) {s' : State}
    (hlive : s'.live = insert cur s.live) : At s' (nodes ++ [cur]) pc := by
  have hsplit {entry pos : ℕ} (h : ∃ rest, nodes = entry :: rest ∧ First pos rest) :
      ∃ rest, nodes ++ [cur] = entry :: rest ∧ First pos rest := by
    obtain ⟨rest, rfl, hpos⟩ := h
    exact ⟨rest ++ [cur], rfl, hpos.append⟩
  cases pc with
  | idle => trivial
  | readNext entry => exact First.append h
  | test entry pos => exact h.imp_right hsplit
  | callback entry pos => exact hsplit h
  | del entry pos => exact hsplit h
  | free entry pos =>
    obtain ⟨hentry, hmem, hpos⟩ := h
    refine ⟨fun hin => ?_, hlive ▸ Finset.mem_insert_of_mem hmem, hpos.append⟩
    rcases List.mem_append.mp hin with hin | hin
    · exact hentry hin
    · exact hcur (List.mem_singleton.mp hin ▸ hmem)
  | advance pos => exact First.append h

/-- A record is appended. -/
lemma Inv.add (h : Inv s nodes) (record : LogListNode) (hcur : ¬ s.Valid cur) :
    ∃ s', step s (.add cur record) = some s' ∧ Inv s' (nodes ++ [cur]) ∧ s'.pc = s.pc ∧
      s'.passed = s.passed ∧ s'.appended = s.appended ++ [record] := by
  have hnot := not_or.mp hcur
  have hnodes : cur ∉ nodes := fun hmem => hnot.2 (h.live cur hmem)
  have hlast : (s.alloc cur record).Valid (nodes.getLastD gLogList) := by
    induction nodes using List.reverseRecOn with
    | nil => exact Or.inl rfl
    | append_singleton ys last _ =>
      rw [List.getLastD_concat]
      exact Or.inr (Finset.mem_insert_of_mem (h.live last (by simp)))
  have hstep : step s (.add cur record) = some { s.alloc cur record with
      links := s.links.insert cur (nodes.getLastD gLogList) gLogList } := by
    have hprev : (s.alloc cur record).links.prev gLogList = some (nodes.getLastD gLogList) :=
      h.ring.prev_head
    rw [step, if_neg hcur, addListNode, hprev]
    dsimp only
    rw [if_pos hlast]
    rfl
  refine ⟨_, hstep, ⟨h.ring.insert_last ?_, ?_, ?_, h.pc.append hnot.2 rfl⟩, rfl, rfl, rfl⟩
  · rw [List.mem_cons, not_or]
    exact ⟨hnot.1, hnodes⟩
  · intro x hx
    rcases List.mem_append.mp hx with hx | hx
    · exact Finset.mem_insert_of_mem (h.live x hx)
    · rw [List.mem_singleton.mp hx]
      exact Finset.mem_insert_self cur s.live
  · have hsame : (waiting s.pc nodes).map (Function.update s.node cur record) =
        (waiting s.pc nodes).map s.node := by
      refine List.map_congr_left fun x hx => Function.update_of_ne ?_ _ _
      rintro rfl
      exact hnodes (waiting_subset hx)
    change s.appended ++ [record] = s.passed ++
      (waiting s.pc (nodes ++ [cur])).map (Function.update s.node cur record)
    rw [waiting_append h.pc, List.map_append, hsame, List.map_singleton, Function.update_self,
      ← List.append_assoc, ← h.order]

end Add

/-! ## Going on -/

/-- How many steps the traversal is from passing a record on, at most, while one waits. If the
cached pointer is the head the pass ends before, though a node may have been appended since. -/
def rank : Pc → ℕ
  | .callback _ _ => 1
  | .test entry _ => if entry = gLogList then 5 else 2
  | .readNext entry => if entry = gLogList then 6 else 3
  | .idle => 4
  | .advance pos => if pos = gLogList then 7 else 4
  | .free _ pos => if pos = gLogList then 8 else 5
  | .del _ pos => if pos = gLogList then 9 else 6

/-- How many steps of the traversal it takes until `m` records have been passed on, at most. -/
def cost (m : ℕ) (s : State) : ℕ := 9 * (m - s.passed.length) + rank s.pc

/-- A step of the traversal. -/
structure Goes (s s' : State) : Prop where
  appended : s'.appended = s.appended
  passed : s.passed.length ≤ s'.passed.length
  cost_lt : ∀ m, s.passed.length < m → m ≤ s.appended.length → cost m s' < cost m s

section Foreach
variable {s : State} {nodes : List ℕ}

/-- A step that passes nothing on only has to come nearer to the next callback. -/
lemma goes_of_rank {s' : State} (happ : s'.appended = s.appended) (hpas : s'.passed = s.passed)
    (h : s.passed.length < s.appended.length → rank s'.pc < rank s.pc) : Goes s s' := by
  refine ⟨happ, hpas ▸ le_refl _, fun m hm hle => ?_⟩
  have hrank := h (by omega)
  unfold cost
  rw [hpas]
  omega

/-- The list has a node while a record waits. -/
lemma Inv.ne_nil (h : Inv s nodes) (hwait : s.passed.length < s.appended.length) : nodes ≠ [] := by
  rintro rfl
  have horder := h.order
  have hnone : waiting s.pc [] = [] := by
    unfold waiting
    split <;> rfl
  rw [hnone, List.map_nil, List.append_nil] at horder
  rw [horder] at hwait
  exact absurd hwait (lt_irrefl _)

/-- The head and the nodes of the list are allocated. -/
lemma valid_headD {rest : List ℕ} (hlive : ∀ x ∈ rest, x ∈ s.live) :
    s.Valid (rest.headD gLogList) := by
  cases rest with
  | nil => exact Or.inl rfl
  | cons x rest => exact Or.inr (hlive x List.mem_cons_self)

lemma Inv.entry_ne (h : Inv s nodes) {entry : ℕ} (hmem : entry ∈ nodes) : entry ≠ gLogList :=
  fun heq => h.ring.head_notMem (heq ▸ hmem)

/-- The invariant at a known place. -/
lemma Inv.at_pc (h : Inv s nodes) {pc : Pc} (hpc : s.pc = pc) :
    s.appended = s.passed ++ (waiting pc nodes).map s.node ∧ At s nodes pc := by
  subst hpc
  exact ⟨h.order, h.pc⟩

lemma Inv.foreach_idle (h : Inv s nodes) (hpc : s.pc = .idle) :
    ∃ s', foreach s = some s' ∧ Inv s' nodes ∧ Goes s s' := by
  obtain ⟨horder, -⟩ := h.at_pc hpc
  refine ⟨{ s with pc := .readNext (nodes.headD gLogList) }, ?_, ⟨h.ring, h.live, horder, ?_⟩,
    goes_of_rank rfl rfl fun hwait => ?_⟩
  · unfold FileMng.foreach
    rw [hpc, h.ring.next_head]
    rfl
  · cases nodes with
    | nil => exact Or.inl rfl
    | cons x rest => exact Or.inr rfl
  · obtain ⟨x, rest, rfl⟩ := List.exists_cons_of_ne_nil (h.ne_nil hwait)
    rw [hpc]
    dsimp only [rank, List.headD_cons]
    rw [if_neg (h.entry_ne List.mem_cons_self)]
    decide

lemma Inv.foreach_readNext (h : Inv s nodes) {entry : ℕ} (hpc : s.pc = .readNext entry) :
    ∃ s', foreach s = some s' ∧ Inv s' nodes ∧ Goes s s' := by
  obtain ⟨horder, hat⟩ := h.at_pc hpc
  have hrank (pos : ℕ) : rank (.test entry pos) < rank s.pc := by
    rw [hpc]
    dsimp only [rank]
    split_ifs <;> decide
  -- at the head the pass is about to end, and the pointer read here leads nowhere
  rcases hat with rfl | hfirst
  · have hvalid : s.Valid gLogList := Or.inl rfl
    refine ⟨{ s with pc := .test gLogList (nodes.headD gLogList) }, ?_,
      ⟨h.ring, h.live, horder, Or.inl rfl⟩, goes_of_rank rfl rfl fun _ => hrank _⟩
    unfold FileMng.foreach
    rw [hpc]
    dsimp only
    rw [if_pos hvalid, h.ring.next_head]
    rfl
  · obtain ⟨rest, rfl⟩ : ∃ rest, nodes = entry :: rest := by
      cases nodes with
      | nil => cases hfirst
      | cons x rest =>
        rw [List.head?_cons, Option.some.injEq] at hfirst
        exact ⟨rest, hfirst ▸ rfl⟩
    have hvalid : s.Valid entry := Or.inr (h.live entry List.mem_cons_self)
    refine ⟨{ s with pc := .test entry (rest.headD gLogList) }, ?_,
      ⟨h.ring, h.live, horder, Or.inr ⟨rest, rfl, ?_⟩⟩, goes_of_rank rfl rfl fun _ => hrank _⟩
    · unfold FileMng.foreach
      rw [hpc]
      dsimp only
      rw [if_pos hvalid, h.ring.first_adjacent.2]
      rfl
    · cases rest with
      | nil => exact Or.inl rfl
      | cons x rest => exact Or.inr rfl

lemma Inv.foreach_test (h : Inv s nodes) {entry pos : ℕ} (hpc : s.pc = .test entry pos) :
    ∃ s', foreach s = some s' ∧ Inv s' nodes ∧ Goes s s' := by
  obtain ⟨horder, hat⟩ := h.at_pc hpc
  unfold FileMng.foreach
  rw [hpc]
  dsimp only
  by_cases hend : entry = gLogList
  · rw [if_neg (not_not_intro hend)]
    refine ⟨_, rfl, ⟨h.ring, h.live, horder, trivial⟩, goes_of_rank rfl rfl fun _ => ?_⟩
    rw [hpc]
    dsimp only [rank]
    rw [if_pos hend]
    decide
  · rw [if_pos hend]
    refine ⟨_, rfl, ⟨h.ring, h.live, horder, hat.resolve_left hend⟩,
      goes_of_rank rfl rfl fun _ => ?_⟩
    rw [hpc]
    dsimp only [rank]
    rw [if_neg hend]
    decide

/-- The record of the first node is passed on. -/
lemma Inv.foreach_callback (h : Inv s nodes) {entry pos : ℕ} (hpc : s.pc = .callback entry pos) :
    ∃ s', foreach s = some s' ∧ Inv s' nodes ∧ Goes s s' := by
  obtain ⟨horder, rest, rfl, hpos⟩ := h.at_pc hpc
  unfold FileMng.foreach
  rw [hpc]
  dsimp only
  rw [if_pos (h.live entry List.mem_cons_self)]
  -- the node is in the list still, but does not wait any more
  refine ⟨_, rfl, ⟨h.ring, h.live, ?_, rest, rfl, hpos⟩, rfl, ?_, fun m hm hle => ?_⟩
  · rw [horder]
    dsimp only [waiting]
    rw [List.map_cons, List.tail_cons, List.append_assoc, List.singleton_append]
  · dsimp only
    rw [List.length_append]
    exact Nat.le_add_right _ _
  · -- a record counts for 9 steps, which is as far as the next callback can be
    have hrank : rank (.del entry pos) ≤ 9 := by
      dsimp only [rank]
      split_ifs <;> decide
    unfold cost
    rw [hpc, List.length_append, List.length_singleton]
    dsimp only [rank] at hrank ⊢
    omega

/-- The first node is taken out of the list. -/
lemma Inv.foreach_del (h : Inv s nodes) {entry pos : ℕ} (hpc : s.pc = .del entry pos) :
    ∃ s' nodes', foreach s = some s' ∧ Inv s' nodes' ∧ Goes s s' := by
  obtain ⟨horder, rest, rfl, hpos⟩ := h.at_pc hpc
  have hentry := h.live entry List.mem_cons_self
  have hvalid : s.Valid entry := Or.inr hentry
  have hhead : s.Valid gLogList := Or.inl rfl
  have hnext : s.Valid (rest.headD gLogList) :=
    valid_headD fun x hx => h.live x (List.mem_cons_of_mem entry hx)
  have hdel : listDel s entry = some { s with
      links := (s.links.unlink gLogList (rest.headD gLogList)).clear entry } := by
    unfold listDel
    rw [if_pos hvalid, h.ring.first_adjacent.1, h.ring.first_adjacent.2]
    dsimp only
    rw [if_pos ⟨hhead, hnext⟩]
  unfold FileMng.foreach
  rw [hpc]
  dsimp only
  rw [hdel, Option.map_some]
  refine ⟨_, rest, rfl, ⟨h.ring.remove_first, fun x hx => h.live x (List.mem_cons_of_mem entry hx),
    horder, ?_⟩, goes_of_rank rfl rfl fun _ => ?_⟩
  · have hnodup := (List.nodup_cons.mp h.ring.nodup).2
    exact ⟨(List.nodup_cons.mp hnodup).1, hentry, hpos⟩
  · rw [hpc]
    dsimp only [rank]
    split_ifs <;> decide

lemma Inv.foreach_free (h : Inv s nodes) {entry pos : ℕ} (hpc : s.pc = .free entry pos) :
    ∃ s', foreach s = some s' ∧ Inv s' nodes ∧ Goes s s' := by
  obtain ⟨horder, hentry, hmem, hpos⟩ := h.at_pc hpc
  unfold FileMng.foreach
  rw [hpc]
  dsimp only
  rw [if_pos hmem]
  refine ⟨_, rfl, ⟨h.ring, fun x hx => ?_, horder, hpos⟩, goes_of_rank rfl rfl fun _ => ?_⟩
  · exact Finset.mem_erase.mpr ⟨fun heq => hentry (heq ▸ hx), h.live x hx⟩
  · rw [hpc]
    dsimp only [rank]
    split_ifs <;> decide

lemma Inv.foreach_advance (h : Inv s nodes) {pos : ℕ} (hpc : s.pc = .advance pos) :
    ∃ s', foreach s = some s' ∧ Inv s' nodes ∧ Goes s s' := by
  obtain ⟨horder, hat⟩ := h.at_pc hpc
  unfold FileMng.foreach
  rw [hpc]
  refine ⟨_, rfl, ⟨h.ring, h.live, horder, hat⟩, goes_of_rank rfl rfl fun _ => ?_⟩
  rw [hpc]
  dsimp only [rank]
  split_ifs <;> decide

/-- The traversal goes on from every state. -/
lemma Inv.foreach (h : Inv s nodes) :
    ∃ s' nodes', step s .foreach = some s' ∧ Inv s' nodes' ∧ Goes s s' := by
  have hsame (hstep : ∃ s', FileMng.foreach s = some s' ∧ Inv s' nodes ∧ Goes s s') :
      ∃ s' nodes', step s .foreach = some s' ∧ Inv s' nodes' ∧ Goes s s' := by
    obtain ⟨s', hs', hinv, hgoes⟩ := hstep
    exact ⟨s', nodes, hs', hinv, hgoes⟩
  cases hpc : s.pc with
  | idle => exact hsame (h.foreach_idle hpc)
  | readNext entry => exact hsame (h.foreach_readNext hpc)
  | test entry pos => exact hsame (h.foreach_test hpc)
  | callback entry pos => exact hsame (h.foreach_callback hpc)
  | del entry pos => exact h.foreach_del hpc
  | free entry pos => exact hsame (h.foreach_free hpc)
  | advance pos => exact hsame (h.foreach_advance hpc)

end Foreach

/-! ## Runs -/

section Runs
variable {s t : State} {nodes : List ℕ} {es : List Event}

lemma inv_init : Inv init [] where
  ring := ⟨⟨rfl, rfl⟩, List.nodup_singleton _⟩
  live := fun _ hx => absurd hx List.not_mem_nil
  order := rfl
  pc := trivial

lemma Inv.after_step {e : Event} {s' : State} (h : Inv s nodes) (hstep : step s e = some s') :
    ∃ nodes', Inv s' nodes' := by
  cases e with
  | add cur record =>
    by_cases hcur : s.Valid cur
    · rw [FileMng.step, if_pos hcur] at hstep
      cases hstep
    · obtain ⟨s'', hs'', hinv, -⟩ := h.add record hcur
      exact ⟨_, Option.some.inj (hs''.symm.trans hstep) ▸ hinv⟩
  | foreach =>
    obtain ⟨s'', nodes', hs'', hinv, -⟩ := h.foreach
    exact ⟨nodes', Option.some.inj (hs''.symm.trans hstep) ▸ hinv⟩

lemma inv_run (h : ∃ nodes, Inv s nodes) (hrun : run step s es = some t) : ∃ nodes, Inv t nodes :=
  of_always (P := fun s => ∃ nodes, Inv s nodes) (always_of_invariant (fun _ hs => hs)
    (fun _ _ _ hs hstep => hs.elim fun _ hinv => hinv.after_step hstep) es h) hrun

end Runs

/-! ## The list -/

end IpncRdk.FileMng
