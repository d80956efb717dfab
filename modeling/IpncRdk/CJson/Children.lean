import IpncRdk.CJson.Node

/-!
# `cJSON.c`: the functions over a list of children

* `ListOf` — the children of an item;
* `Relinked` — only the pointers to some items were written;
* `addItemToArray_of`, `insertItemInArray_of`, `detachItemFromArray_of`, `replaceItemInArray_of` —
  the list that each function leaves behind.
-/

namespace IpncRdk.CJson

open Lib Heap

variable {D : Type}

/-- The children of the item `p`. -/
structure ListOf (m : Memory D) (p : ℕ) (xs : List ℕ) : Prop where
  array : m.IsItem p
  items : ∀ x ∈ xs, m.IsItem x
  nodup : xs.Nodup
  chain : Chain m.links none xs none
  first : m.child p = xs.head?

/-- Only the links of some items were written, and the first child of `p`. -/
structure Relinked (m m' : Memory D) (p : ℕ) (xs : List ℕ) : Prop where
  heap : m'.heap = m.heap
  child : ∀ b, b ≠ p → m'.child b = m.child b
  next : ∀ b ∉ xs, m'.links.next b = m.links.next b
  prev : ∀ b ∉ xs, m'.links.prev b = m.links.prev b

/-- The item `p` is in no list. -/
def Memory.Loose (m : Memory D) (p : ℕ) : Prop := m.links.next p = none ∧ m.links.prev p = none

section Relinked
variable {m m' m'' : Memory D} {p : ℕ} {xs : List ℕ}

lemma Relinked.refl (m : Memory D) (p : ℕ) (xs : List ℕ) : Relinked m m p xs :=
  ⟨rfl, fun _ _ => rfl, fun _ _ => rfl, fun _ _ => rfl⟩

lemma Relinked.trans (h : Relinked m m' p xs) (h' : Relinked m' m'' p xs) :
    Relinked m m'' p xs where
  heap := h'.heap.trans h.heap
  child b hb := (h'.child b hb).trans (h.child b hb)
  next b hb := (h'.next b hb).trans (h.next b hb)
  prev b hb := (h'.prev b hb).trans (h.prev b hb)

lemma Relinked.mono {ys : List ℕ} (h : Relinked m m' p xs) (hsub : xs ⊆ ys) :
    Relinked m m' p ys where
  heap := h.heap
  child := h.child
  next b hb := h.next b fun hx => hb (hsub hx)
  prev b hb := h.prev b fun hx => hb (hsub hx)

lemma Relinked.isItem (h : Relinked m m' p xs) {q : ℕ} (hq : m.IsItem q) : m'.IsItem q := by
  unfold Memory.IsItem
  rw [h.heap]
  exact hq

/-- The links of one item are cleared. -/
lemma clear_of (xs : List ℕ) {q : ℕ} (hq : m.IsItem q) (hmem : q ∈ xs) :
    ∃ m', (setPrev q none >>= fun _ => setNext q none : Mem D Unit) m = .ok ((), m') ∧
      Relinked m m' p xs ∧ m'.child = m.child ∧ m'.Loose q ∧
      m'.links = (m.links.setPrev (some q) none).setNext (some q) none := by
  obtain ⟨body, hcell⟩ := hq
  refine ⟨{ m with links := (m.links.setPrev (some q) none).setNext (some q) none }, ?_,
    ⟨rfl, fun _ _ => rfl, fun b hb => ?_, fun b hb => ?_⟩, rfl, ⟨?_, ?_⟩, rfl⟩
  · rw [bind_of_ok (setPrev_of hcell none)]
    exact setNext_of (m := { m with links := m.links.setPrev (some q) none }) hcell none
  · have hne : some q ≠ some b := fun heq => hb (Option.some.inj heq ▸ hmem)
    rw [Links.next_setNext_of_ne hne, Links.next_setPrev]
  · have hne : some q ≠ some b := fun heq => hb (Option.some.inj heq ▸ hmem)
    rw [Links.prev_setNext, Links.prev_setPrev_of_ne hne]
  · exact Links.next_setNext_self
  · rw [Links.prev_setNext]
    exact Links.prev_setPrev_self

end Relinked

section Functions
variable {m : Memory D} {p c i : ℕ} {xs ys : List ℕ}

/-- The loop that all functions begin with. -/
lemma ListOf.walk (h : ListOf m p xs) (which : ℕ) :
    getChild p m = .ok (xs.head?, m) ∧ walk which xs.head? m = .ok (xs[which]?, m) := by
  obtain ⟨body, hcell⟩ := h.array
  refine ⟨?_, walk_chain h.chain h.items which⟩
  rw [getChild_of hcell, h.first]

/-- What the functions find that look for a child. -/
structure Found (m : Memory D) (p c : ℕ) (xs ys : List ℕ) : Prop where
  child : getChild p m = .ok ((xs ++ c :: ys).head?, m)
  walk : CJson.walk xs.length (xs ++ c :: ys).head? m = .ok (some c, m)
  next : getNext c m = .ok (ys.head?, m)
  prev : getPrev c m = .ok (xs.getLast?, m)
  before : Chain m.links none xs (some c)
  behind : Chain m.links (some c) ys none
  here : Chain m.links xs.getLast? (c :: ys) none

lemma ListOf.found (h : ListOf m p (xs ++ c :: ys)) : Found m p c xs ys := by
  obtain ⟨hX, hY⟩ := chain_append.mp h.chain
  rw [Option.or_none] at hX hY
  obtain ⟨body, hcell⟩ := h.items c (by simp)
  refine ⟨(h.walk 0).1, walk_to h.chain h.items, ?_, ?_, hX, hY.2.2, hY⟩
  · rw [getNext_of hcell, hY.2.1, Option.or_none]
  · rw [getPrev_of hcell, hY.1]

/-- The item found is not one of those before it. -/
lemma ListOf.notMem (h : ListOf m p (xs ++ c :: ys)) : c ∉ xs ∧ c ∉ ys ∧ (xs ++ ys).Nodup := by
  obtain ⟨hc, hnodup⟩ := List.nodup_cons.mp (List.nodup_middle.mp h.nodup)
  rw [List.mem_append, not_or] at hc
  exact ⟨hc.1, hc.2, hnodup⟩

/-- There are at most as many children as blocks were given out. -/
lemma ListOf.length_le (h : ListOf m p xs) : xs.length ≤ m.heap.calls := by
  refine m.heap.length_le h.nodup fun x hx => ?_
  obtain ⟨body, hcell⟩ := h.items x hx
  rw [hcell]
  exact Option.some_ne_none _

/-- An item that is in no list becomes the last child. -/
lemma linkBehind_of (h : ListOf m p xs) (hi : m.IsItem i) (hmem : i ∉ xs) (hloose : m.Loose i) :
    ∃ m', linkBehind p xs.getLast? i m = .ok ((), m') ∧ ListOf m' p (xs ++ [i]) ∧
      Relinked m m' p (i :: xs) := by
  obtain ⟨hnext, hprev⟩ := hloose
  have hnodup : (xs ++ [i]).Nodup := (List.perm_append_singleton i xs).nodup_iff.mpr
    (List.nodup_cons.mpr ⟨hmem, h.nodup⟩)
  have hitems : ∀ x ∈ xs ++ [i], m.IsItem x := by
    intro x hx
    rcases List.mem_append.mp hx with hx | hx
    · exact h.items x hx
    · rw [List.mem_singleton.mp hx]
      exact hi
  unfold linkBehind
  cases hz : xs.getLast? with
  | none =>
    obtain rfl := List.getLast?_eq_none_iff.mp hz
    obtain ⟨body, hcell⟩ := h.array
    refine ⟨_, setChild_of hcell (some i), ⟨h.array, hitems, hnodup, ⟨hprev, hnext, trivial⟩,
      Function.update_self _ _ _⟩, rfl, fun b hb => Function.update_of_ne hb _ _, fun _ _ => rfl,
      fun _ _ => rfl⟩
  | some z =>
    have hzmem := List.mem_of_getLast? hz
    obtain ⟨zbody, hzcell⟩ := h.items z hzmem
    obtain ⟨ibody, hicell⟩ := hi
    have hzi : some z ≠ some i := fun heq => hmem (Option.some.inj heq ▸ hzmem)
    have hxi : ∀ y ∈ xs, some i ≠ some y := fun y hy heq => hmem (Option.some.inj heq ▸ hy)
    have hfront := (h.chain.setNext_last h.nodup (some i)).setPrev_of_notMem hxi (some z)
    rw [hz] at hfront
    have hchain : Chain ((m.links.setNext (some z) (some i)).setPrev (some i) (some z)) none
        (xs ++ [i]) none := by
      refine chain_append.mpr ⟨hfront, ?_, ?_, trivial⟩
      · rw [hz, Links.prev_setPrev_self, Option.or_none]
      · rw [Links.next_setPrev, Links.next_setNext_of_ne hzi, hnext]
        rfl
    have hfirst : m.child p = (xs ++ [i]).head? := by
      rw [h.first]
      cases xs with
      | nil => cases hz
      | cons x xs => rfl
    refine ⟨{ m with links := (m.links.setNext (some z) (some i)).setPrev (some i) (some z) }, ?_,
      ⟨h.array, hitems, hnodup, hchain, hfirst⟩, rfl, fun _ _ => rfl, fun b hb => ?_,
      fun b hb => ?_⟩
    · unfold suffixObject
      simp only
      rw [bind_of_ok (setNext_of hzcell (some i))]
      exact setPrev_of (m := { m with links := m.links.setNext (some z) (some i) }) hicell (some z)
    · have hzb : some z ≠ some b := fun heq =>
        hb (List.mem_cons_of_mem i (Option.some.inj heq ▸ hzmem))
      rw [Links.next_setPrev, Links.next_setNext_of_ne hzb]
    · have hib : some i ≠ some b := fun heq => hb (Option.some.inj heq ▸ List.mem_cons_self)
      rw [Links.prev_setPrev_of_ne hib, Links.prev_setNext]

/-- `cJSON_AddItemToArray` links the item behind the last child. -/
lemma addItemToArray_eq (h : ListOf m p xs) (i : ℕ) :
    addItemToArray p (some i) m = linkBehind p xs.getLast? i m := by
  unfold addItemToArray
  rw [bind_of_ok (h.walk 0).1]
  cases xs with
  | nil => rfl
  | cons x xs =>
    obtain ⟨z, hz, hlast⟩ := last_chain h.chain h.items h.length_le
    rw [List.head?_cons, hz]
    simp only
    rw [bind_of_ok (x := fun m => last m.heap.calls x m) hlast]
    rfl

/-- `cJSON_AddItemToArray` of an item that is in no list. -/
lemma addItemToArray_of (h : ListOf m p xs) (hi : m.IsItem i) (hmem : i ∉ xs) (hloose : m.Loose i) :
    ∃ m', addItemToArray p (some i) m = .ok ((), m') ∧ ListOf m' p (xs ++ [i]) ∧
      Relinked m m' p (i :: xs) := by
  rw [addItemToArray_eq h]
  exact linkBehind_of h hi hmem hloose

/-- `cJSON_InsertItemInArray` in front of an item. -/
lemma insertItemInArray_of (h : ListOf m p (xs ++ c :: ys)) (hi : m.IsItem i)
    (hmem : i ∉ xs ++ c :: ys) {which : ℤ} (hwhich : which.toNat = xs.length) :
    ∃ m', insertItemInArray p which i m = .ok ((), m') ∧ ListOf m' p (xs ++ i :: c :: ys) ∧
      Relinked m m' p (i :: (xs ++ c :: ys)) := by
  have hfound := h.found
  have hnodup : (xs ++ i :: c :: ys).Nodup :=
    List.nodup_middle.mpr (List.nodup_cons.mpr ⟨hmem, h.nodup⟩)
  have hmem' : ∀ b, b ∉ i :: (xs ++ c :: ys) → b ∉ xs ++ i :: c :: ys := fun b hb =>
    fun hb' => hb ((List.perm_middle.mem_iff).mp hb')
  have hsplice := hfound.before.splice hfound.here hnodup
  have hother := fun (w : ℕ) (hw : w ∉ xs ++ i :: c :: ys) =>
    Chain.splice_of_notMem (l := m.links) hw
  rw [List.head?_cons] at hsplice hother
  obtain ⟨ibody, hicell⟩ := hi
  obtain ⟨cbody, hccell⟩ := h.items c (by simp)
  generalize hl₁ : m.links.setNext (some i) (some c) = l₁ at hsplice hother
  generalize hl₂ : l₁.setPrev (some i) xs.getLast? = l₂ at hsplice hother
  generalize hl₃ : l₂.setPrev (some c) (some i) = l₃ at hsplice hother
  obtain ⟨child', hlink, hchild, hchild'⟩ := linkFrom_of (m := { m with links := l₃ }) (i := i)
    h.array (fun x hx => h.items x (by simp [hx])) h.first h.notMem.1
  refine ⟨{ m with links := l₃.setNext xs.getLast? (some i), child := child' }, ?_,
    ⟨h.array, fun x hx => ?_, hnodup, hsplice, hchild _⟩, rfl, hchild',
    fun b hb => (hother b (hmem' b hb)).1, fun b hb => (hother b (hmem' b hb)).2⟩
  · unfold insertItemInArray
    rw [bind_of_ok hfound.child, hwhich, bind_of_ok hfound.walk]
    simp only
    rw [bind_of_ok hfound.prev, bind_of_ok (setNext_of hicell _), hl₁,
      bind_of_ok (setPrev_of (m := { m with links := l₁ }) hicell _), hl₂,
      bind_of_ok (setPrev_of (m := { m with links := l₂ }) hccell _), hl₃]
    exact hlink
  · rcases List.mem_cons.mp (List.perm_middle.mem_iff.mp hx) with rfl | hx
    · exact ⟨ibody, hicell⟩
    · exact h.items x hx

/-- `cJSON_InsertItemInArray` where there is no such item. -/
lemma insertItemInArray_end (h : ListOf m p xs) {which : ℤ} (hwhich : xs.length ≤ which.toNat)
    (i : ℕ) : insertItemInArray p which i m = addItemToArray p (some i) m := by
  obtain ⟨hchild, hwalk⟩ := h.walk which.toNat
  unfold insertItemInArray
  rw [bind_of_ok hchild, bind_of_ok hwalk, List.getElem?_eq_none hwhich]

/-- `cJSON_DetachItemFromArray` where there is no such item. -/
lemma detachItemFromArray_none (h : ListOf m p xs) {which : ℤ} (hwhich : xs.length ≤ which.toNat) :
    detachItemFromArray p which m = .ok (none, m) := by
  obtain ⟨hchild, hwalk⟩ := h.walk which.toNat
  unfold detachItemFromArray
  rw [bind_of_ok hchild, bind_of_ok hwalk, List.getElem?_eq_none hwhich]
  rfl

/-- `cJSON_DetachItemFromArray` -/
lemma detachItemFromArray_of (h : ListOf m p (xs ++ c :: ys)) {which : ℤ}
    (hwhich : which.toNat = xs.length) :
    ∃ m', detachItemFromArray p which m = .ok (some c, m') ∧ ListOf m' p (xs ++ ys) ∧
      Relinked m m' p (xs ++ c :: ys) ∧ m'.Loose c := by
  have hfound := h.found
  obtain ⟨hcx, hcy, hnodup'⟩ := h.notMem
  have hc : m.IsItem c := h.items c (by simp)
  have hxs : ∀ x, xs.getLast? = some x → m.IsItem x := fun x hx =>
    h.items x (by simp [List.mem_of_getLast? hx])
  have hys : ∀ y, ys.head? = some y → m.IsItem y := fun y hy =>
    h.items y (by simp [List.mem_of_head? hy])
  have hjoin := hfound.before.join hfound.behind hnodup'
  have hother := fun (w : ℕ) (hw : w ∉ xs ++ ys) => Chain.join_of_notMem (l := m.links) hw
  generalize hl₁ : m.links.setNext xs.getLast? ys.head? = l₁ at hjoin hother
  generalize hl₂ : l₁.setPrev ys.head? xs.getLast? = l₂ at hjoin hother
  -- the first child, which is the second one where the first is taken out
  obtain ⟨child', hfirst, hchild, hchild'⟩ : ∃ child' : ℕ → Option ℕ,
      (if (xs ++ c :: ys).head? = some c then setChild p ys.head? else pure () : Mem D Unit)
        { m with links := l₂ } = .ok ((), { m with links := l₂, child := child' }) ∧
      child' p = (xs ++ ys).head? ∧ ∀ b, b ≠ p → child' b = m.child b := by
    cases xs with
    | nil =>
      obtain ⟨body, hcell⟩ := h.array
      refine ⟨Function.update m.child p ys.head?, ?_, Function.update_self _ _ _,
        fun b hb => Function.update_of_ne hb _ _⟩
      rw [if_pos (by simp)]
      exact setChild_of (m := { m with links := l₂ }) hcell ys.head?
    | cons x xs =>
      refine ⟨m.child, ?_, h.first, fun _ _ => rfl⟩
      have hxc : ¬ (x :: xs ++ c :: ys).head? = some c := by
        rintro heq
        exact hcx (Option.some.inj heq ▸ List.mem_cons_self)
      rw [if_neg hxc]
      rfl
  have hrel : Relinked m { m with links := l₂, child := child' } p (xs ++ c :: ys) := by
    have hmem : ∀ b ∉ xs ++ c :: ys, b ∉ xs ++ ys := by
      intro b hb hb'
      simp only [List.mem_append, List.mem_cons] at hb hb'
      tauto
    exact ⟨rfl, hchild', fun b hb => (hother b (hmem b hb)).1, fun b hb => (hother b (hmem b hb)).2⟩
  obtain ⟨m', hclear, hrelinked, hchild'', hloose, hlinks⟩ := clear_of
    (m := { m with links := l₂, child := child' }) (p := p) (xs ++ c :: ys) hc (by simp)
  refine ⟨m', ?_, ⟨hrelinked.isItem h.array, fun x hx => hrelinked.isItem (h.items x ?_), hnodup',
    ?_, ?_⟩, hrel.trans hrelinked, hloose⟩
  · unfold detachItemFromArray
    rw [bind_of_ok hfound.child, hwhich, bind_of_ok hfound.walk]
    simp only
    rw [bind_of_ok hfound.next, bind_of_ok hfound.prev, bind_of_ok (setNextOf_of hxs _), hl₁,
      bind_of_ok (setPrevOf_of (m := { m with links := l₁ }) hys _), hl₂, bind_of_ok hfirst,
      ← bind_assoc, bind_of_ok hclear, pure_eq]
  · simp only [List.mem_append, List.mem_cons] at hx ⊢
    tauto
  · have hne : ∀ y ∈ xs ++ ys, some c ≠ some y := by
      rintro y hy heq
      obtain rfl := Option.some.inj heq
      exact (List.mem_append.mp hy).elim hcx hcy
    rw [hlinks]
    exact (hjoin.setPrev_of_notMem hne none).setNext_of_notMem hne none
  · rw [hchild'']
    exact hchild

/-- `cJSON_ReplaceItemInArray` where there is no such item. -/
lemma replaceItemInArray_none (h : ListOf m p xs) {which : ℤ} (hwhich : xs.length ≤ which.toNat) :
    replaceItemInArray p which i m = .ok ((), m) := by
  obtain ⟨hchild, hwalk⟩ := h.walk which.toNat
  unfold replaceItemInArray
  rw [bind_of_ok hchild, bind_of_ok hwalk, List.getElem?_eq_none hwhich]
  rfl

/-- `cJSON_ReplaceItemInArray`: the old item, in no list any more, is deleted. -/
lemma replaceItemInArray_of (h : ListOf m p (xs ++ c :: ys)) (hi : m.IsItem i)
    (hmem : i ∉ xs ++ c :: ys) {which : ℤ} (hwhich : which.toNat = xs.length) :
    ∃ m', replaceItemInArray p which i m = cJSONDelete (some c) m' ∧ ListOf m' p (xs ++ i :: ys) ∧
      Relinked m m' p (i :: (xs ++ c :: ys)) ∧ m'.Loose c := by
  have hfound := h.found
  obtain ⟨hcx, hcy, hnodup'⟩ := h.notMem
  have hci : c ≠ i := fun heq => hmem (by simp [heq])
  have hnodup : (xs ++ i :: ys).Nodup := by
    refine List.nodup_middle.mpr (List.nodup_cons.mpr ⟨fun hi' => hmem ?_, hnodup'⟩)
    simp only [List.mem_append, List.mem_cons] at hi' ⊢
    tauto
  have hmem' : ∀ b, b ∉ i :: (xs ++ c :: ys) → b ∉ xs ++ i :: ys := by
    intro b hb hb'
    simp only [List.mem_append, List.mem_cons] at hb hb'
    tauto
  have hc : m.IsItem c := h.items c (by simp)
  have hys : ∀ y, ys.head? = some y → m.IsItem y := fun y hy =>
    h.items y (by simp [List.mem_of_head? hy])
  have hsplice := hfound.before.splice hfound.behind hnodup
  have hother := fun (w : ℕ) (hw : w ∉ xs ++ i :: ys) => Chain.splice_of_notMem (l := m.links) hw
  obtain ⟨ibody, hicell⟩ := hi
  generalize hl₁ : m.links.setNext (some i) ys.head? = l₁ at hsplice hother
  generalize hl₂ : l₁.setPrev (some i) xs.getLast? = l₂ at hsplice hother
  generalize hl₃ : l₂.setPrev ys.head? (some i) = l₃ at hsplice hother
  obtain ⟨child', hlink, hchild, hchild'⟩ := linkFrom_of (m := { m with links := l₃ }) (i := i)
    h.array (fun x hx => h.items x (by simp [hx])) h.first hcx
  have hrel : Relinked m { m with links := l₃.setNext xs.getLast? (some i), child := child' } p
      (i :: (xs ++ c :: ys)) :=
    ⟨rfl, hchild', fun b hb => (hother b (hmem' b hb)).1, fun b hb => (hother b (hmem' b hb)).2⟩
  obtain ⟨m', hclear, hrelinked, hchild'', hloose, hlinks⟩ := clear_of
    (m := { m with links := l₃.setNext xs.getLast? (some i), child := child' }) (p := p)
    (i :: (xs ++ c :: ys)) hc (by simp)
  refine ⟨m', ?_, ⟨hrelinked.isItem h.array, fun x hx => hrelinked.isItem ?_, hnodup, ?_, ?_⟩,
    hrel.trans hrelinked, hloose⟩
  · unfold replaceItemInArray
    rw [bind_of_ok hfound.child, hwhich, bind_of_ok hfound.walk]
    simp only
    rw [bind_of_ok hfound.next, bind_of_ok hfound.prev, bind_of_ok (setNext_of hicell _), hl₁,
      bind_of_ok (setPrev_of (m := { m with links := l₁ }) hicell _), hl₂,
      bind_of_ok (setPrevOf_of (m := { m with links := l₂ }) hys _), hl₃, bind_of_ok hlink,
      ← bind_assoc, bind_of_ok hclear]
  · by_cases hxi : x = i
    · rw [hxi]
      exact ⟨ibody, hicell⟩
    · refine h.items x ?_
      simp only [List.mem_append, List.mem_cons] at hx ⊢
      tauto
  · have hne : ∀ y ∈ xs ++ i :: ys, some c ≠ some y := by
      rintro y hy heq
      obtain rfl := Option.some.inj heq
      simp only [List.mem_append, List.mem_cons] at hy
      tauto
    rw [hlinks]
    exact (hsplice.setPrev_of_notMem hne none).setNext_of_notMem hne none
  · rw [hchild'']
    exact hchild ys

end Functions

end IpncRdk.CJson
