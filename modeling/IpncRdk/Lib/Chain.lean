import IpncRdk.Lib.LinkedRing

/-!
# Doubly linked lists that end in `NULL`

* `Chain` — some nodes, linked both ways, between a node before them and one behind them;
* `Links.setNext`, `Links.setPrev` — one pointer of a node is written, if there is the node;
* `chain_append` — a list in two parts, where their seam is linked both ways;
* `Chain.splice`, `Chain.join` — a node is put in, or what stood in between is left out.
-/

namespace IpncRdk.Lib

variable {α : Type*}

/-- The nodes follow each other, the first one behind `p` and the last one before `q`. -/
def Chain (l : Links α) : Option α → List α → Option α → Prop
  | _, [], _ => True
  | p, x :: xs, q => l.prev x = p ∧ l.next x = xs.head?.or q ∧ Chain l (some x) xs q

section Chain
variable {l l' : Links α} {p q : Option α} {xs ys : List α}

lemma chain_append : Chain l p (xs ++ ys) q ↔
    Chain l p xs (ys.head?.or q) ∧ Chain l (xs.getLast?.or p) ys q := by
  induction xs generalizing p with
  | nil => exact ⟨fun h => ⟨trivial, h⟩, And.right⟩
  | cons x xs ih =>
    rw [List.cons_append, Chain, Chain, ih, List.getLast?_cons, Option.some_or]
    have hhead : (xs ++ ys).head?.or q = xs.head?.or (ys.head?.or q) := by
      rw [List.head?_append, Option.or_assoc]
    have hlast : xs.getLast?.or (some x) = some (xs.getLast?.getD x) := by
      cases xs.getLast? <;> rfl
    rw [hhead, hlast, and_assoc, and_assoc]

/-- A chain stays where its pointers stay. -/
lemma Chain.congr (h : Chain l p xs q) (hnext : ∀ x ∈ xs, l'.next x = l.next x)
    (hprev : ∀ x ∈ xs, l'.prev x = l.prev x) : Chain l' p xs q := by
  induction xs generalizing p with
  | nil => trivial
  | cons x xs ih =>
    rw [List.forall_mem_cons] at hnext hprev
    exact ⟨hprev.1.trans h.1, hnext.1.trans h.2.1, ih h.2.2 hnext.2 hprev.2⟩

end Chain

section
variable [DecidableEq α]

namespace Links

/-- `x->next = y`, if `x` is not `NULL`. -/
def setNext (l : Links α) : Option α → Option α → Links α
  | none, _ => l
  | some x, y => { l with next := Function.update l.next x y }

/-- `x->prev = y`, if `x` is not `NULL`. -/
def setPrev (l : Links α) : Option α → Option α → Links α
  | none, _ => l
  | some x, y => { l with prev := Function.update l.prev x y }

variable {l : Links α} {x y : Option α} {w : α}

lemma next_setPrev : (l.setPrev x y).next = l.next := by cases x <;> rfl

lemma prev_setNext : (l.setNext x y).prev = l.prev := by cases x <;> rfl

lemma next_setNext_of_ne (h : x ≠ some w) : (l.setNext x y).next w = l.next w := by
  cases x with
  | none => rfl
  | some x => exact Function.update_of_ne (fun heq => h (congrArg some heq.symm)) _ _

lemma prev_setPrev_of_ne (h : x ≠ some w) : (l.setPrev x y).prev w = l.prev w := by
  cases x with
  | none => rfl
  | some x => exact Function.update_of_ne (fun heq => h (congrArg some heq.symm)) _ _

lemma next_setNext_self : (l.setNext (some w) y).next w = y := Function.update_self _ _ _

lemma prev_setPrev_self : (l.setPrev (some w) y).prev w = y := Function.update_self _ _ _

end Links

namespace Chain

variable {l : Links α} {p q : Option α} {xs ys : List α}

/-- The last node is linked to another one behind it. -/
lemma setNext_last (h : Chain l p xs q) (hnodup : xs.Nodup) (q' : Option α) :
    Chain (l.setNext xs.getLast? q') p xs q' := by
  induction xs using List.reverseRecOn with
  | nil => trivial
  | append_singleton xs x _ =>
    rw [List.nodup_append] at hnodup
    obtain ⟨hfront, hprev, -, -⟩ := chain_append.mp h
    rw [List.getLast?_concat]
    refine chain_append.mpr ⟨hfront.congr (fun y hy => ?_) fun y _ => ?_, ?_, ?_, trivial⟩
    · exact Links.next_setNext_of_ne fun heq =>
        hnodup.2.2 y hy x (List.mem_singleton_self x) (Option.some.inj heq).symm
    · rw [Links.prev_setNext]
    · rw [Links.prev_setNext, hprev]
    · exact Links.next_setNext_self

/-- The first node is linked to another one before it. -/
lemma setPrev_head (h : Chain l p xs q) (hnodup : xs.Nodup) (p' : Option α) :
    Chain (l.setPrev xs.head? p') p' xs q := by
  cases xs with
  | nil => trivial
  | cons x xs =>
    obtain ⟨-, hnext, hrest⟩ := h
    rw [List.nodup_cons] at hnodup
    refine ⟨Links.prev_setPrev_self, ?_, hrest.congr (fun y _ => ?_) fun y hy => ?_⟩
    · rw [Links.next_setPrev, hnext]
    · rw [List.head?_cons, Links.next_setPrev]
    · exact Links.prev_setPrev_of_ne fun heq => hnodup.1 (Option.some.inj heq ▸ hy)

/-- The pointers of other nodes do not matter. -/
lemma setNext_of_notMem (h : Chain l p xs q) {x : Option α} (hx : ∀ y ∈ xs, x ≠ some y)
    (y : Option α) : Chain (l.setNext x y) p xs q :=
  h.congr (fun w hw => Links.next_setNext_of_ne (hx w hw)) fun w _ => by rw [Links.prev_setNext]

lemma setPrev_of_notMem (h : Chain l p xs q) {x : Option α} (hx : ∀ y ∈ xs, x ≠ some y)
    (y : Option α) : Chain (l.setPrev x y) p xs q :=
  h.congr (fun w _ => by rw [Links.next_setPrev]) fun w hw => Links.prev_setPrev_of_ne (hx w hw)

/-- **A node is put in** between two parts of a list. -/
lemma splice {i : α} (hxs : Chain l none xs q) (hys : Chain l p ys none)
    (hnodup : (xs ++ i :: ys).Nodup) :
    Chain ((((l.setNext (some i) ys.head?).setPrev (some i) xs.getLast?).setPrev ys.head?
      (some i)).setNext xs.getLast? (some i)) none (xs ++ i :: ys) none := by
  rw [List.nodup_append, List.nodup_cons] at hnodup
  obtain ⟨hx, ⟨hi, hy⟩, hapart⟩ := hnodup
  have hxi : ∀ w ∈ xs, some i ≠ some w := fun w hw heq =>
    hapart w hw i List.mem_cons_self (Option.some.inj heq).symm
  have hyi : ∀ w ∈ ys, some i ≠ some w := fun w hw heq => hi (Option.some.inj heq ▸ hw)
  have hlast : ∀ w ∈ i :: ys, xs.getLast? ≠ some w := fun w hw heq =>
    hapart w (List.mem_of_getLast? heq) w hw rfl
  have hhead : ∀ w ∈ xs, ys.head? ≠ some w := fun w hw heq =>
    hapart w hw w (List.mem_cons_of_mem i (List.mem_of_head? heq)) rfl
  refine chain_append.mpr ⟨?_, ?_, ?_, ?_⟩
  · exact (((hxs.setNext_of_notMem hxi _).setPrev_of_notMem hxi _).setPrev_of_notMem hhead
      _).setNext_last hx _
  · rw [Links.prev_setNext, Links.prev_setPrev_of_ne fun heq => hi (List.mem_of_head? heq),
      Links.prev_setPrev_self, Option.or_none]
  · rw [Links.next_setNext_of_ne (hlast i List.mem_cons_self), Links.next_setPrev,
      Links.next_setPrev, Links.next_setNext_self, Option.or_none]
  · exact (((hys.setNext_of_notMem hyi _).setPrev_of_notMem hyi _).setPrev_head hy
      _).setNext_of_notMem (fun w hw => hlast w (List.mem_cons_of_mem i hw)) _

lemma splice_of_notMem {i w : α} (hw : w ∉ xs ++ i :: ys) :
    ((((l.setNext (some i) ys.head?).setPrev (some i) xs.getLast?).setPrev ys.head?
      (some i)).setNext xs.getLast? (some i)).next w = l.next w ∧
    ((((l.setNext (some i) ys.head?).setPrev (some i) xs.getLast?).setPrev ys.head?
      (some i)).setNext xs.getLast? (some i)).prev w = l.prev w := by
  rw [List.mem_append, List.mem_cons, not_or, not_or] at hw
  have hi : some i ≠ some w := fun heq => hw.2.1 (Option.some.inj heq).symm
  have hlast : xs.getLast? ≠ some w := fun heq => hw.1 (List.mem_of_getLast? heq)
  have hhead : ys.head? ≠ some w := fun heq => hw.2.2 (List.mem_of_head? heq)
  constructor
  · rw [Links.next_setNext_of_ne hlast, Links.next_setPrev, Links.next_setPrev,
      Links.next_setNext_of_ne hi]
  · rw [Links.prev_setNext, Links.prev_setPrev_of_ne hhead, Links.prev_setPrev_of_ne hi,
      Links.prev_setNext]

/-- **What stood between** two parts of a list is left out. -/
lemma join (hxs : Chain l none xs q) (hys : Chain l p ys none) (hnodup : (xs ++ ys).Nodup) :
    Chain ((l.setNext xs.getLast? ys.head?).setPrev ys.head? xs.getLast?) none (xs ++ ys) none := by
  rw [List.nodup_append] at hnodup
  obtain ⟨hx, hy, hapart⟩ := hnodup
  have hhead : ∀ w ∈ xs, ys.head? ≠ some w := fun w hw heq =>
    hapart w hw w (List.mem_of_head? heq) rfl
  have hlast : ∀ w ∈ ys, xs.getLast? ≠ some w := fun w hw heq =>
    hapart w (List.mem_of_getLast? heq) w hw rfl
  rw [chain_append, Option.or_none, Option.or_none]
  exact ⟨(hxs.setNext_last hx _).setPrev_of_notMem hhead _,
    (hys.setNext_of_notMem hlast _).setPrev_head hy _⟩

lemma join_of_notMem {w : α} (hw : w ∉ xs ++ ys) :
    ((l.setNext xs.getLast? ys.head?).setPrev ys.head? xs.getLast?).next w = l.next w ∧
    ((l.setNext xs.getLast? ys.head?).setPrev ys.head? xs.getLast?).prev w = l.prev w := by
  rw [List.mem_append, not_or] at hw
  have hlast : xs.getLast? ≠ some w := fun heq => hw.1 (List.mem_of_getLast? heq)
  have hhead : ys.head? ≠ some w := fun heq => hw.2 (List.mem_of_head? heq)
  constructor
  · rw [Links.next_setPrev, Links.next_setNext_of_ne hlast]
  · rw [Links.prev_setPrev_of_ne hhead, Links.prev_setNext]

end Chain

end

end IpncRdk.Lib
