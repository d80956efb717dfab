import IpncRdk.CJson.Node
import Mathlib.Data.Set.Lattice
import Mathlib.Order.CompletePartialOrder

/-!
# `cJSON.c`: what belongs to an item

* `Placed` — an item, where it stands, and the blocks that belong to it;
* `Owned` — the memory holds the item in these blocks;
* `Owned.frame` — what happens elsewhere does not matter;
* `delete_chain`, `delete_owned` — `cJSON_Delete` frees exactly the blocks of an item.
-/

namespace IpncRdk.CJson

open Lib Heap

variable {D : Type}

/-- An item, where it stands and what belongs to it. -/
structure Placed (D : Type) where
  ptr : ℕ
  item : Entity D
  blocks : Set ℕ

/-- No two of the items have a block in common. -/
def Apart (ks : List (Placed D)) : Prop := ks.Pairwise fun k k' => Disjoint k.blocks k'.blocks

def blocksOf (ks : List (Placed D)) : Set ℕ := {b | ∃ k ∈ ks, b ∈ k.blocks}

/-! ## Items in memory -/

/-- The string that `char *valuestring` points to, and its block. -/
inductive HasText (h : Heap (Cell D)) : Option ℕ → Option CString → Set ℕ → Prop
  | null : HasText h none none ∅
  | text {b : ℕ} {str : CString} (cell : h.cell b = some (.text str)) :
      HasText h (some b) (some str) {b}

/-- The string that `char *string` points to, and its block; the item says whether it has one. -/
inductive HasName (h : Heap (Cell D)) (isConst : Bool) :
    Option Name → Option CString → Set ℕ → Prop
  | null : HasName h isConst none none ∅
  | copy {b : ℕ} {str : CString} (cell : h.cell b = some (.text str))
      (flag : isConst = false) : HasName h isConst (some (.copy b)) (some str) {b}
  | literal {str : CString} (flag : isConst = true) :
      HasName h isConst (some (.literal str)) (some str) ∅

/-- The fields of an item and the blocks of its strings. -/
structure Matches (h : Heap (Cell D)) (body : Body D) (fields : Fields D) (vs ns : Set ℕ) :
    Prop where
  kind : fields.kind = body.kind
  isReference : fields.isReference = body.isReference
  stringIsConst : fields.stringIsConst = body.stringIsConst
  valueint : fields.valueint = body.valueint
  valuedouble : fields.valuedouble = body.valuedouble
  string : HasName h body.stringIsConst body.string fields.string ns
  apart : Disjoint vs ns

/-- The memory holds an item in its blocks. What a reference refers to belongs to other items. -/
inductive Owned (m : Memory D) : Placed D → Prop
  | item {p : ℕ} {body : Body D} {fields : Fields D} {vs ns : Set ℕ} {kids : List (Placed D)}
      (cell : m.heap.cell p = some (.item body)) (fields_eq : Matches m.heap body fields vs ns)
      (flag : body.isReference = false)
      (text : HasText m.heap body.valuestring fields.valuestring vs)
      (notMem : p ∉ vs ∪ ns ∪ blocksOf kids) (strings : Disjoint (vs ∪ ns) (blocksOf kids))
      (apart : Apart kids) (chain : Chain m.links none (kids.map Placed.ptr) none)
      (first : m.child p = (kids.map Placed.ptr).head?) (owned : ∀ k ∈ kids, Owned m k) :
      Owned m ⟨p, .node fields (kids.map Placed.item), insert p (vs ∪ ns ∪ blocksOf kids)⟩
  | reference {p : ℕ} {body : Body D} {fields : Fields D} {ns : Set ℕ}
      (cell : m.heap.cell p = some (.item body)) (fields_eq : Matches m.heap body fields ∅ ns)
      (flag : body.isReference = true) (text : fields.valuestring = none) (notMem : p ∉ ns) :
      Owned m ⟨p, .node fields [], insert p ns⟩

section Frame
variable {m m' m'' : Memory D} {r : Placed D} {p : ℕ} {S T : Set ℕ}

lemma blocksOf_nil : blocksOf ([] : List (Placed D)) = ∅ := by
  ext b
  simp [blocksOf]

lemma blocksOf_cons (k : Placed D) (ks : List (Placed D)) :
    blocksOf (k :: ks) = k.blocks ∪ blocksOf ks := by
  ext b
  simp [blocksOf]

lemma blocksOf_append (ks ks' : List (Placed D)) :
    blocksOf (ks ++ ks') = blocksOf ks ∪ blocksOf ks' := by
  ext b
  simp only [blocksOf, List.mem_append, Set.mem_ofPred_eq, Set.mem_union, or_and_right, exists_or]

lemma subset_blocksOf {k : Placed D} {ks : List (Placed D)} (hk : k ∈ ks) :
    k.blocks ⊆ blocksOf ks := fun _ hb => ⟨k, hk, hb⟩

/-- The two memories agree on some blocks; the item at `p` may stand in another list. -/
structure Same (m m' : Memory D) (p : ℕ) (S : Set ℕ) : Prop where
  cell : ∀ b ∈ S, m'.heap.cell b = m.heap.cell b
  child : ∀ b ∈ S, m'.child b = m.child b
  next : ∀ b ∈ S, b ≠ p → m'.links.next b = m.links.next b
  prev : ∀ b ∈ S, b ≠ p → m'.links.prev b = m.links.prev b

lemma Same.subset {q : ℕ} (h : Same m m' p S) (hsub : T ⊆ S) (hp : p ∉ T) : Same m m' q T where
  cell b hb := h.cell b (hsub hb)
  child b hb := h.child b (hsub hb)
  next b hb _ := h.next b (hsub hb) fun heq => hp (heq ▸ hb)
  prev b hb _ := h.prev b (hsub hb) fun heq => hp (heq ▸ hb)

lemma HasText.congr {h h' : Heap (Cell D)} {b : Option ℕ} {str : Option CString} {vs : Set ℕ}
    (htext : HasText h b str vs) (hcell : ∀ b ∈ vs, h'.cell b = h.cell b) :
    HasText h' b str vs := by
  cases htext with
  | null => exact .null
  | text cell => exact .text ((hcell _ rfl).trans cell)

lemma HasName.congr {h h' : Heap (Cell D)} {isConst : Bool} {name : Option Name}
    {str : Option CString} {ns : Set ℕ} (hname : HasName h isConst name str ns)
    (hcell : ∀ b ∈ ns, h'.cell b = h.cell b) : HasName h' isConst name str ns := by
  cases hname with
  | null => exact .null
  | copy cell flag => exact .copy ((hcell _ rfl).trans cell) flag
  | literal flag => exact .literal flag

lemma HasName.eq_empty {h : Heap (Cell D)} {isConst : Bool} {name : Option Name} {ns : Set ℕ}
    (hname : HasName h isConst name none ns) : ns = ∅ := by
  cases hname
  rfl

lemma Matches.congr {h h' : Heap (Cell D)} {body : Body D} {fields : Fields D} {vs ns : Set ℕ}
    (hm : Matches h body fields vs ns) (hcell : ∀ b ∈ ns, h'.cell b = h.cell b) :
    Matches h' body fields vs ns where
  kind := hm.kind
  isReference := hm.isReference
  stringIsConst := hm.stringIsConst
  valueint := hm.valueint
  valuedouble := hm.valuedouble
  string := hm.string.congr hcell
  apart := hm.apart

lemma Owned.ptr_mem (h : Owned m r) : r.ptr ∈ r.blocks := by
  cases h with
  | item => exact Set.mem_insert _ _
  | reference => exact Set.mem_insert _ _

lemma Owned.exists_body (h : Owned m r) : ∃ body, m.heap.cell r.ptr = some (.item body) := by
  cases h with
  | item cell => exact ⟨_, cell⟩
  | reference cell => exact ⟨_, cell⟩

lemma Owned.exists_matches (h : Owned m r) : ∃ body vs ns,
    m.heap.cell r.ptr = some (.item body) ∧ Matches m.heap body r.item.fields vs ns := by
  cases h with
  | item cell fields_eq => exact ⟨_, _, _, cell, fields_eq⟩
  | reference cell fields_eq => exact ⟨_, _, _, cell, fields_eq⟩

/-- What happens to other blocks does not matter to an item. -/
lemma Owned.frame (h : Owned m r) (hsame : Same m m' r.ptr r.blocks) : Owned m' r := by
  induction h with
  | @item p body fields vs ns kids cell fields_eq flag text notMem strings apart chain first
      owned ih =>
    have hstrs : vs ∪ ns ⊆ insert p (vs ∪ ns ∪ blocksOf kids) := fun b hb => .inr (.inl hb)
    have hkid : ∀ k ∈ kids, k.blocks ⊆ insert p (vs ∪ ns ∪ blocksOf kids) := fun k hk b hb =>
      .inr (.inr ⟨k, hk, hb⟩)
    have hkids : ∀ k ∈ kids, Same m m' k.ptr k.blocks := fun k hk =>
      hsame.subset (hkid k hk) fun hp => notMem (.inr ⟨k, hk, hp⟩)
    have hptr : ∀ q ∈ kids.map Placed.ptr, ∃ k ∈ kids, q ∈ k.blocks := by
      intro q hq
      obtain ⟨k, hk, rfl⟩ := List.mem_map.mp hq
      exact ⟨k, hk, (owned k hk).ptr_mem⟩
    have hne : ∀ q ∈ kids.map Placed.ptr, q ≠ p := by
      rintro q hq rfl
      obtain ⟨k, hk, hb⟩ := hptr q hq
      exact notMem (.inr ⟨k, hk, hb⟩)
    refine .item ((hsame.cell p (.inl rfl)).trans cell) (fields_eq.congr fun b hb =>
      hsame.cell b (hstrs (.inr hb))) flag (text.congr fun b hb => hsame.cell b (hstrs (.inl hb)))
      notMem strings apart (chain.congr (fun q hq => ?_) fun q hq => ?_)
      ((hsame.child p (.inl rfl)).trans first) fun k hk => ih k hk (hkids k hk)
    · obtain ⟨k, hk, hb⟩ := hptr q hq
      exact hsame.next q (hkid k hk hb) (hne q hq)
    · obtain ⟨k, hk, hb⟩ := hptr q hq
      exact hsame.prev q (hkid k hk hb) (hne q hq)
  | reference cell fields_eq flag text notMem =>
    exact .reference ((hsame.cell _ (.inl rfl)).trans cell)
      (fields_eq.congr fun b hb => hsame.cell b (.inr hb)) flag text notMem

end Frame

/-! ## `cJSON_Delete` -/

namespace Entity

mutual

/-- How many items there are in an entity. -/
def count : Entity D → ℕ
  | node _ child => countAll child + 1

def countAll : List (Entity D) → ℕ
  | [] => 0
  | c :: child => c.count + countAll child

end

end Entity

/-- From `m` to `m'` the blocks `S` were freed, and nothing else happened. -/
structure Freed (m m' : Memory D) (S : Set ℕ) : Prop where
  gone : ∀ b ∈ S, m'.heap.cell b = none
  kept : ∀ b ∉ S, m'.heap.cell b = m.heap.cell b
  links : m'.links = m.links
  child : m'.child = m.child
  calls : m'.heap.calls = m.heap.calls

section Freed
variable {m m' m'' : Memory D} {S T : Set ℕ} {r : Placed D}

lemma Freed.refl (m : Memory D) : Freed m m ∅ :=
  ⟨fun _ hb => absurd hb (Set.notMem_empty _), fun _ _ => rfl, rfl, rfl, rfl⟩

lemma Freed.trans (h : Freed m m' S) (h' : Freed m' m'' T) : Freed m m'' (S ∪ T) where
  gone b hb := by
    by_cases hT : b ∈ T
    · exact h'.gone b hT
    · rw [h'.kept b hT, h.gone b (hb.resolve_right hT)]
  kept b hb := by
    rw [h'.kept b fun hT => hb (.inr hT), h.kept b fun hS => hb (.inl hS)]
  links := h'.links.trans h.links
  child := h'.child.trans h.child
  calls := h'.calls.trans h.calls

lemma Freed.same (h : Freed m m' S) (hdisjoint : Disjoint S T) (p : ℕ) : Same m m' p T where
  cell b hb := h.kept b fun hS => Set.disjoint_left.mp hdisjoint hS hb
  child b _ := congrFun h.child b
  next b _ _ := by rw [h.links]
  prev b _ _ := by rw [h.links]

lemma freed_free {b : ℕ} (hcell : m.heap.cell b ≠ none) :
    ∃ m', onHeap (free b) m = .ok ((), m') ∧ Freed m m' {b} := by
  have hfree : free b m.heap = .ok ((), m.heap.remove b) := if_pos hcell
  refine ⟨{ m with heap := m.heap.remove b }, ?_, ?_⟩
  · unfold onHeap
    rw [hfree]
    rfl
  · refine ⟨?_, fun c hc => Function.update_of_ne hc _ _, rfl, rfl, rfl⟩
    rintro c rfl
    exact Function.update_self _ _ _

lemma freed_freeText {b : Option ℕ} {str : Option CString} {vs : Set ℕ}
    (htext : HasText m.heap b str vs) :
    ∃ m', freeText b m = .ok ((), m') ∧ Freed m m' vs := by
  cases htext with
  | null => exact ⟨m, rfl, .refl m⟩
  | text cell => exact freed_free (by rw [cell]; exact Option.some_ne_none _)

lemma freed_freeName {body : Body D} {str : Option CString} {ns : Set ℕ}
    (hname : HasName m.heap body.stringIsConst body.string str ns) :
    ∃ m', (if body.stringIsConst then pure () else freeName body.string : Mem D Unit) m =
      .ok ((), m') ∧ Freed m m' ns := by
  revert hname
  generalize body.string = name
  generalize body.stringIsConst = isConst
  intro hname
  cases hname with
  | null => exact ⟨m, by cases isConst <;> rfl, .refl m⟩
  | copy cell flag =>
    subst flag
    exact freed_free (by rw [cell]; exact Option.some_ne_none _)
  | literal flag =>
    subst flag
    exact ⟨m, rfl, .refl m⟩

/-- What `cJSON_Delete` does with one item, when the items below it are deleted by `x`. -/
def deleteItem (x : Option ℕ → Mem D Unit) (c : ℕ) (body : Body D) (child : Option ℕ) :
    Mem D Unit := do
  (if body.isReference then pure () else x child)
  (if body.isReference then pure () else freeText body.valuestring)
  (if body.stringIsConst then pure () else freeName body.string)
  onHeap (free c)

lemma delete_succ (fuel c : ℕ) : (delete (fuel + 1) (some c) : Mem D Unit) = (do
    let next ← getNext c
    let body ← getBody c
    let child ← getChild c
    deleteItem (delete fuel) c body child
    delete fuel next) := by
  unfold deleteItem
  rw [delete]
  simp only [bind_assoc]

lemma freed_deleteItem {x : Option ℕ → Mem D Unit} {k : Placed D} {body : Body D}
    (howned : Owned m k) (hcell : m.heap.cell k.ptr = some (.item body))
    (hx : ∀ kids : List (Placed D), (∀ c ∈ kids, Owned m c) → Apart kids →
      Chain m.links none (kids.map Placed.ptr) none →
      Entity.countAll (kids.map Placed.item) < k.item.count →
      ∃ m', x (kids.map Placed.ptr).head? m = .ok ((), m') ∧ Freed m m' (blocksOf kids)) :
    ∃ m', deleteItem x k.ptr body (m.child k.ptr) m = .ok ((), m') ∧ Freed m m' k.blocks := by
  unfold deleteItem
  cases howned with
  | @item p body' fields vs ns kids cell fields_eq flag text notMem strings apart chain first
      owned =>
    obtain rfl : body' = body := Cell.item.inj (Option.some.inj (cell.symm.trans hcell))
    obtain ⟨m₁, hbelow, hfreed₁⟩ := hx kids owned apart chain (Nat.lt_succ_self _)
    have hvs : ∀ b ∈ vs, m₁.heap.cell b = m.heap.cell b := fun b hb =>
      hfreed₁.kept b fun hk => Set.disjoint_left.mp strings (.inl hb) hk
    obtain ⟨m₂, htext, hfreed₂⟩ := freed_freeText (text.congr hvs)
    have hns : ∀ b ∈ ns, m₂.heap.cell b = m.heap.cell b := fun b hb =>
      (hfreed₂.kept b fun hv => Set.disjoint_left.mp fields_eq.apart hv hb).trans
        (hfreed₁.kept b fun hk => Set.disjoint_left.mp strings (.inr hb) hk)
    obtain ⟨m₃, hname, hfreed₃⟩ := freed_freeName (fields_eq.string.congr hns)
    have hfreed := (hfreed₁.trans hfreed₂).trans hfreed₃
    have hset : blocksOf kids ∪ vs ∪ ns = vs ∪ ns ∪ blocksOf kids := by
      rw [Set.union_assoc, Set.union_comm]
    rw [hset] at hfreed
    have hp : m₃.heap.cell p ≠ none := by
      rw [hfreed.kept p notMem, cell]
      exact Option.some_ne_none _
    obtain ⟨m₄, hfree, hfreed₄⟩ := freed_free hp
    refine ⟨m₄, ?_, ?_⟩
    · rw [flag, if_neg Bool.false_ne_true, first, bind_of_ok hbelow, if_neg Bool.false_ne_true,
        bind_of_ok htext, bind_of_ok hname, hfree]
    · show Freed m m₄ (insert p (vs ∪ ns ∪ blocksOf kids))
      rw [Set.insert_eq, Set.union_comm]
      exact hfreed.trans hfreed₄
  | @reference p body' fields ns cell fields_eq flag text notMem =>
    obtain rfl : body' = body := Cell.item.inj (Option.some.inj (cell.symm.trans hcell))
    obtain ⟨m₁, hname, hfreed₁⟩ := freed_freeName fields_eq.string
    have hp : m₁.heap.cell p ≠ none := by
      rw [hfreed₁.kept p notMem, cell]
      exact Option.some_ne_none _
    obtain ⟨m₂, hfree, hfreed₂⟩ := freed_free hp
    refine ⟨m₂, ?_, ?_⟩
    · rw [if_pos flag, bind_of_ok (pure_eq () m), if_pos flag, bind_of_ok (pure_eq () m),
        bind_of_ok hname, hfree]
    · show Freed m m₂ (insert p ns)
      rw [Set.insert_eq, Set.union_comm]
      exact hfreed₁.trans hfreed₂

/-- **Deleting a list of items** frees exactly their blocks. -/
lemma delete_chain {kids : List (Placed D)} {p : Option ℕ} (howned : ∀ k ∈ kids, Owned m k)
    (hapart : Apart kids) (hchain : Chain m.links p (kids.map Placed.ptr) none) {fuel : ℕ}
    (hfuel : Entity.countAll (kids.map Placed.item) ≤ fuel) :
    ∃ m', delete fuel (kids.map Placed.ptr).head? m = .ok ((), m') ∧
      Freed m m' (blocksOf kids) := by
  induction fuel generalizing kids p m with
  | zero =>
    cases kids with
    | nil => exact ⟨m, rfl, by rw [blocksOf_nil]; exact .refl m⟩
    | cons k kids =>
      obtain ⟨ptr, ⟨fields, child⟩, blocks⟩ := k
      exact absurd hfuel (by simp [Entity.countAll, Entity.count])
  | succ fuel ih =>
    cases kids with
    | nil => exact ⟨m, rfl, by rw [blocksOf_nil]; exact .refl m⟩
    | cons k kids =>
      rw [List.forall_mem_cons] at howned
      obtain ⟨hfirst, hrest⟩ := List.pairwise_cons.mp hapart
      rw [List.map_cons, Entity.countAll] at hfuel
      have hpos : 0 < k.item.count := by
        obtain ⟨ptr, ⟨fields, child⟩, blocks⟩ := k
        exact Nat.succ_pos _
      obtain ⟨body, hcell⟩ := howned.1.exists_body
      obtain ⟨m₁, hrun₁, hfreed₁⟩ := freed_deleteItem howned.1 hcell
        fun sub hsub hapart' hchain' hlt => ih hsub hapart' hchain' (by omega)
      have howned₁ : ∀ k' ∈ kids, Owned m₁ k' := fun k' hk' =>
        (howned.2 k' hk').frame (hfreed₁.same (hfirst k' hk') k'.ptr)
      have hchain₁ : Chain m₁.links (some k.ptr) (kids.map Placed.ptr) none := by
        rw [hfreed₁.links]
        exact hchain.2.2
      obtain ⟨m₂, hrun₂, hfreed₂⟩ := ih howned₁ hrest hchain₁ (by omega)
      refine ⟨m₂, ?_, ?_⟩
      · rw [List.map_cons, List.head?_cons, delete_succ, bind_of_ok (getNext_of hcell),
          bind_of_ok (getBody_of hcell), bind_of_ok (getChild_of hcell), bind_of_ok hrun₁,
          hchain.2.1, Option.or_none]
        exact hrun₂
      · rw [blocksOf_cons]
        exact hfreed₁.trans hfreed₂

end Freed

section Count
variable {m : Memory D} {r : Placed D}

lemma HasText.allocated {h : Heap (Cell D)} {b : Option ℕ} {str : Option CString} {vs : Set ℕ}
    (htext : HasText h b str vs) : ∀ b ∈ vs, h.cell b ≠ none := by
  cases htext with
  | null => exact fun b hb => absurd hb (Set.notMem_empty b)
  | text cell =>
    rintro b rfl
    rw [cell]
    exact Option.some_ne_none _

lemma HasName.allocated {h : Heap (Cell D)} {isConst : Bool} {name : Option Name}
    {str : Option CString} {ns : Set ℕ} (hname : HasName h isConst name str ns) :
    ∀ b ∈ ns, h.cell b ≠ none := by
  cases hname with
  | null => exact fun b hb => absurd hb (Set.notMem_empty b)
  | literal => exact fun b hb => absurd hb (Set.notMem_empty b)
  | copy cell =>
    rintro b rfl
    rw [cell]
    exact Option.some_ne_none _

/-- What belongs to an item is allocated. -/
lemma Owned.allocated (h : Owned m r) : ∀ b ∈ r.blocks, m.heap.cell b ≠ none := by
  induction h with
  | item cell fields_eq flag text notMem strings apart chain first owned ih =>
    rintro b (rfl | (hb | hb) | ⟨k, hk, hb⟩)
    · rw [cell]
      exact Option.some_ne_none _
    · exact text.allocated b hb
    · exact fields_eq.string.allocated b hb
    · exact ih k hk b hb
  | reference cell fields_eq =>
    rintro b (rfl | hb)
    · rw [cell]
      exact Option.some_ne_none _
    · exact fields_eq.string.allocated b hb

/-- Items that have no block in common have together as many different blocks. -/
lemma exists_nodup_all {kids : List (Placed D)} (hapart : Apart kids)
    (hkids : ∀ k ∈ kids, ∃ l : List ℕ, l.Nodup ∧ l.length = k.item.count ∧ ∀ b ∈ l, b ∈ k.blocks) :
    ∃ l : List ℕ, l.Nodup ∧ l.length = Entity.countAll (kids.map Placed.item) ∧
      ∀ b ∈ l, b ∈ blocksOf kids := by
  induction kids with
  | nil => exact ⟨[], List.nodup_nil, rfl, fun b hb => absurd hb List.not_mem_nil⟩
  | cons k kids ih =>
    obtain ⟨hfirst, hrest⟩ := List.pairwise_cons.mp hapart
    rw [List.forall_mem_cons] at hkids
    obtain ⟨l, hl, hlen, hmem⟩ := hkids.1
    obtain ⟨l', hl', hlen', hmem'⟩ := ih hrest hkids.2
    refine ⟨l ++ l', List.nodup_append.mpr ⟨hl, hl', ?_⟩, ?_, ?_⟩
    · rintro b hb c hc rfl
      obtain ⟨k', hk', hbk'⟩ := hmem' b hc
      exact Set.disjoint_left.mp (hfirst k' hk') (hmem b hb) hbk'
    · rw [List.length_append, hlen, hlen', List.map_cons, Entity.countAll]
    · intro b hb
      rw [blocksOf_cons]
      exact (List.mem_append.mp hb).imp (hmem b) (hmem' b)

lemma Owned.exists_nodup (h : Owned m r) :
    ∃ l : List ℕ, l.Nodup ∧ l.length = r.item.count ∧ ∀ b ∈ l, b ∈ r.blocks := by
  induction h with
  | @item p body fields vs ns kids cell fields_eq flag text notMem strings apart chain first
      owned ih =>
    obtain ⟨l, hl, hlen, hmem⟩ := exists_nodup_all apart ih
    refine ⟨p :: l, List.nodup_cons.mpr ⟨fun hp => notMem (.inr (hmem p hp)), hl⟩, ?_, ?_⟩
    · rw [List.length_cons, hlen, Entity.count]
    · rintro b hb
      exact (List.mem_cons.mp hb).imp id fun hb => .inr (hmem b hb)
  | @reference p =>
    exact ⟨[p], List.nodup_singleton p, rfl, fun b hb => .inl (List.mem_singleton.mp hb)⟩

/-- There are at most as many items as blocks were given out. -/
lemma Owned.count_le (h : Owned m r) : r.item.count ≤ m.heap.calls := by
  obtain ⟨l, hl, hlen, hmem⟩ := h.exists_nodup
  rw [← hlen]
  exact m.heap.length_le hl fun b hb => h.allocated b (hmem b hb)

/-- **Deleting an item** that is in no list frees exactly its blocks. -/
lemma delete_owned (h : Owned m r) (hnext : m.links.next r.ptr = none) :
    ∃ m', cJSONDelete (some r.ptr) m = .ok ((), m') ∧ Freed m m' r.blocks := by
  have hone : blocksOf [r] = r.blocks := by rw [blocksOf_cons, blocksOf_nil, Set.union_empty]
  have hchain : Chain m.links (m.links.prev r.ptr) ([r].map Placed.ptr) none :=
    ⟨rfl, hnext, trivial⟩
  have hfuel : Entity.countAll ([r].map Placed.item) ≤ m.heap.calls := h.count_le
  rw [← hone]
  exact delete_chain (by simpa using h) (List.pairwise_singleton _ r) hchain hfuel

end Count

end IpncRdk.CJson
