import Mathlib.Data.List.Basic
import Mathlib.Data.List.Induction
import Mathlib.Data.List.Nodup
import Mathlib.Logic.Function.Basic

/-!
# Circular doubly linked lists

Nodes carry a pointer to the next and to the previous node, and a head node closes the circle.

* `Links` — the pointers of all nodes; `insert`, `unlink`, `clear` write them;
* `Segment` — the nodes between two others, linked both ways;
* `LinkedRing` — the circle of a head node and a list of nodes;
* `LinkedRing.insert_last`, `LinkedRing.remove_first` — a node put in before the head, and the
  first one taken out.
-/

namespace IpncRdk.Lib

/-- The pointers of the nodes; `none` is `NULL`. -/
structure Links (α : Type*) where
  next : α → Option α
  prev : α → Option α

namespace Links
variable {α : Type*} [DecidableEq α] (l : Links α)

/-- Node `cur` put in between `prev` and `next`. -/
def insert (cur prev next : α) : Links α where
  next := Function.update (Function.update l.next cur (some next)) prev (some cur)
  prev := Function.update (Function.update l.prev cur (some prev)) next (some cur)

/-- What was between `prev` and `next` left out. -/
def unlink (prev next : α) : Links α where
  next := Function.update l.next prev (some next)
  prev := Function.update l.prev next (some prev)

/-- The pointers of a node set to `NULL`. -/
def clear (x : α) : Links α where
  next := Function.update l.next x none
  prev := Function.update l.prev x none

/-- Two nodes that follow each other. -/
def Adjacent (l : Links α) (x y : α) : Prop := l.next x = some y ∧ l.prev y = some x

end Links

section
variable {α : Type*}

/-- From `x` through `ys` to `z`. -/
def Segment [DecidableEq α] (l : Links α) : α → List α → α → Prop
  | x, [], z => l.Adjacent x z
  | x, y :: ys, z => l.Adjacent x y ∧ Segment l y ys z

/-- The circle of the head and the nodes. -/
structure LinkedRing [DecidableEq α] (l : Links α) (head : α) (nodes : List α) : Prop where
  segment : Segment l head nodes head
  nodup : (head :: nodes).Nodup

variable [DecidableEq α] {l l' : Links α}

lemma segment_append {x y z : α} {ys zs : List α} :
    Segment l x (ys ++ y :: zs) z ↔ Segment l x ys y ∧ Segment l y zs z := by
  induction ys generalizing x with
  | nil => exact Iff.rfl
  | cons w ys ih =>
    rw [List.cons_append, Segment, Segment, ih]
    exact and_assoc.symm

/-- A segment stays where its pointers stay. -/
lemma Segment.congr {x z : α} {ys : List α} (h : Segment l x ys z)
    (hnext : ∀ w ∈ x :: ys, l'.next w = l.next w) (hprev : ∀ w ∈ ys ++ [z], l'.prev w = l.prev w) :
    Segment l' x ys z := by
  induction ys generalizing x with
  | nil =>
    refine ⟨?_, ?_⟩
    · rw [hnext x List.mem_cons_self, h.1]
    · rw [hprev z (List.mem_singleton_self z), h.2]
  | cons y ys ih =>
    obtain ⟨hxy, hrest⟩ := h
    refine ⟨⟨?_, ?_⟩, ih hrest (fun w hw => hnext w (List.mem_cons_of_mem x hw))
      fun w hw => hprev w (List.mem_cons_of_mem y hw)⟩
    · rw [hnext x List.mem_cons_self, hxy.1]
    · rw [hprev y List.mem_cons_self, hxy.2]

namespace LinkedRing
variable {head : α} {nodes : List α}

/-- The first node, or the head. -/
lemma next_head (h : LinkedRing l head nodes) : l.next head = some (nodes.headD head) := by
  cases nodes with
  | nil => exact h.segment.1
  | cons y ys => exact h.segment.1.1

/-- The last node, or the head. -/
lemma prev_head (h : LinkedRing l head nodes) : l.prev head = some (nodes.getLastD head) := by
  induction nodes using List.reverseRecOn with
  | nil => exact h.segment.2
  | append_singleton ys last _ =>
    rw [List.getLastD_concat]
    exact (segment_append.mp h.segment).2.2

lemma head_notMem (h : LinkedRing l head nodes) : head ∉ nodes := (List.nodup_cons.mp h.nodup).1

/-- A new node before the head is the last one. -/
lemma insert_last {cur : α} (h : LinkedRing l head nodes) (hcur : cur ∉ head :: nodes) :
    LinkedRing (l.insert cur (nodes.getLastD head) head) head (nodes ++ [cur]) := by
  rw [List.mem_cons, not_or] at hcur
  have hhead := h.head_notMem
  refine ⟨?_, ?_⟩
  · induction nodes using List.reverseRecOn with
    | nil =>
      refine ⟨⟨?_, ?_⟩, ?_, ?_⟩ <;> simp [Links.insert, hcur.1]
    | append_singleton ys last _ =>
      have hlast : last ∉ head :: ys := by
        have hnodup := h.nodup
        rw [← List.cons_append, List.nodup_append] at hnodup
        exact fun hmem => hnodup.2.2 last hmem last (List.mem_singleton_self last) rfl
      have hne : last ≠ head := fun heq => hlast (heq ▸ List.mem_cons_self)
      have hcurlast : cur ≠ last := fun heq => hcur.2 (by simp [heq])
      obtain ⟨hys, -⟩ := segment_append.mp h.segment
      rw [List.getLastD_concat, List.append_assoc, List.singleton_append, segment_append]
      -- up to `last` nothing is written, and then come the four new pointers
      refine ⟨hys.congr (fun w hw => ?_) fun w hw => ?_, ⟨⟨?_, ?_⟩, ?_, ?_⟩⟩
      · have hwlast : w ≠ last := fun heq => hlast (heq ▸ hw)
        have hwcur : w ≠ cur := by
          rintro rfl
          rcases List.mem_cons.mp hw with rfl | hw
          · exact hcur.1 rfl
          · exact hcur.2 (List.mem_append_left _ hw)
        simp [Links.insert, hwlast, hwcur]
      · have hwhead : w ≠ head := fun heq => hhead (heq ▸ hw)
        have hwcur : w ≠ cur := fun heq => hcur.2 (heq ▸ hw)
        simp [Links.insert, hwhead, hwcur]
      · simp [Links.insert]
      · simp [Links.insert, hcur.1]
      · simp [Links.insert, hcurlast]
      · simp [Links.insert]
  · rw [← List.cons_append, List.nodup_append]
    refine ⟨h.nodup, List.nodup_singleton cur, fun x hx y hy heq => ?_⟩
    rw [List.mem_singleton] at hy
    subst hy heq
    rcases List.mem_cons.mp hx with rfl | hx
    · exact hcur.1 rfl
    · exact hcur.2 hx

/-- The neighbours of the first node. -/
lemma first_adjacent {e : α} {rest : List α} (h : LinkedRing l head (e :: rest)) :
    l.prev e = some head ∧ l.next e = some (rest.headD head) := by
  refine ⟨h.segment.1.2, ?_⟩
  cases rest with
  | nil => exact h.segment.2.1
  | cons y ys => exact h.segment.2.1.1

/-- Without its first node the circle is one of the others. -/
lemma remove_first {e : α} {rest : List α} (h : LinkedRing l head (e :: rest)) :
    LinkedRing ((l.unlink head (rest.headD head)).clear e) head rest := by
  have hhead := h.head_notMem
  have hnodup := (List.nodup_cons.mp h.nodup).2
  rw [List.mem_cons, not_or] at hhead
  refine ⟨?_, List.nodup_cons.mpr ⟨hhead.2, (List.nodup_cons.mp hnodup).2⟩⟩
  cases rest with
  | nil => refine ⟨?_, ?_⟩ <;> simp [Links.unlink, Links.clear, hhead.1]
  | cons y ys =>
    rw [List.nodup_cons, List.mem_cons, not_or, List.nodup_cons] at hnodup
    rw [List.mem_cons, not_or] at hhead
    obtain ⟨⟨hey, heys⟩, hyys, -⟩ := hnodup
    -- from `y` on the next pointers stay, and behind `y` the previous ones
    refine ⟨⟨?_, ?_⟩, h.segment.2.2.congr (fun w hw => ?_) fun w hw => ?_⟩
    · simp [Links.unlink, Links.clear, hhead.1]
    · simp [Links.unlink, Links.clear, Ne.symm hey]
    · have hwe : w ≠ e := by
        rintro rfl
        rcases List.mem_cons.mp hw with rfl | hw
        · exact hey rfl
        · exact heys hw
      have hwhead : w ≠ head := by
        rintro rfl
        rcases List.mem_cons.mp hw with rfl | hw
        · exact hhead.2.1 rfl
        · exact hhead.2.2 hw
      simp [Links.unlink, Links.clear, hwe, hwhead]
    · have hwy : w ≠ y := by
        rintro rfl
        rcases List.mem_append.mp hw with hw | hw
        · exact hyys hw
        · exact hhead.2.1 (List.mem_singleton.mp hw).symm
      have hwe : w ≠ e := by
        rintro rfl
        rcases List.mem_append.mp hw with hw | hw
        · exact heys hw
        · exact hhead.1 (List.mem_singleton.mp hw).symm
      simp [Links.unlink, Links.clear, hwe, hwy]

end LinkedRing

end

end IpncRdk.Lib
