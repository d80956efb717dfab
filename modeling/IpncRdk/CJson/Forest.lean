import IpncRdk.CJson.Children
import IpncRdk.CJson.Ownership
import Mathlib.Data.List.Pairwise

/-!
# `cJSON.c`: all items that there are

* `Parts` — an item that is no reference, with its children;
* `OnlyAt` — what happened, happened to some blocks only;
* `Forest` — the memory holds some items that are in no list, and nothing else;
* `Forest.change` — some of the items become others;
* `Forest.relink` — the list of an item takes in other items, or gives some away.
-/

namespace IpncRdk.CJson

open Lib Heap

variable {D : Type}

/-! ## Items that have no block in common -/

section Apart
variable {m : Memory D} {ks ks' : List (Placed D)}

lemma Apart.perm (hapart : Apart ks) (hperm : ks.Perm ks') : Apart ks' :=
  hperm.pairwise hapart fun hd => hd.symm

lemma blocksOf_perm (hperm : ks.Perm ks') : blocksOf ks = blocksOf ks' := by
  ext b
  simp only [blocksOf, Set.mem_ofPred_eq, hperm.mem_iff]

lemma apart_append : Apart (ks ++ ks') ↔
    Apart ks ∧ Apart ks' ∧ Disjoint (blocksOf ks) (blocksOf ks') := by
  unfold Apart
  rw [List.pairwise_append]
  have hdisjoint : (∀ k ∈ ks, ∀ k' ∈ ks', Disjoint k.blocks k'.blocks) ↔
      Disjoint (blocksOf ks) (blocksOf ks') := by
    constructor
    · intro h
      rw [Set.disjoint_left]
      rintro b ⟨k, hk, hb⟩ ⟨k', hk', hb'⟩
      exact Set.disjoint_left.mp (h k hk k' hk') hb hb'
    · exact fun h k hk k' hk' => h.mono (subset_blocksOf hk) (subset_blocksOf hk')
  rw [hdisjoint]

lemma apart_cons {k : Placed D} :
    Apart (k :: ks) ↔ Apart ks ∧ Disjoint k.blocks (blocksOf ks) := by
  have h : Apart ([k] ++ ks) ↔ _ := apart_append
  rw [blocksOf_cons, blocksOf_nil, Set.union_empty] at h
  exact h.trans ⟨And.right, fun h => ⟨List.pairwise_singleton _ k, h⟩⟩

/-- A block belongs to one of the items only. -/
lemma Apart.eq_of_mem (hapart : Apart ks) {k k' : Placed D} (hk : k ∈ ks) (hk' : k' ∈ ks) {b : ℕ}
    (hb : b ∈ k.blocks) (hb' : b ∈ k'.blocks) : k = k' := by
  by_contra hne
  have : Std.Symm fun k k' : Placed D => Disjoint k.blocks k'.blocks := ⟨fun _ _ hd => hd.symm⟩
  exact Set.disjoint_left.mp (List.Pairwise.forall hapart hk hk' hne) hb hb'

/-- The items stand in different places. -/
lemma Apart.nodup_ptr (hapart : Apart ks) (howned : ∀ k ∈ ks, Owned m k) :
    (ks.map Placed.ptr).Nodup := by
  rw [List.Nodup, List.pairwise_map]
  refine hapart.imp_of_mem fun hk hk' hd heq => ?_
  exact Set.disjoint_left.mp hd (howned _ hk).ptr_mem (heq ▸ (howned _ hk').ptr_mem)

/-- The place of an item belongs to no other one. -/
lemma notMem_ptr {S : Set ℕ} (howned : ∀ k ∈ ks, Owned m k) (hdisjoint : Disjoint S (blocksOf ks))
    {b : ℕ} (hb : b ∈ S) : b ∉ ks.map Placed.ptr := by
  intro hmem
  obtain ⟨k, hk, rfl⟩ := List.mem_map.mp hmem
  exact Set.disjoint_left.mp hdisjoint hb (subset_blocksOf hk (howned k hk).ptr_mem)

end Apart

/-! ## Memories that differ in some blocks -/

/-- What happened, happened to the blocks in `S`. -/
structure OnlyAt (m m' : Memory D) (S : Set ℕ) : Prop where
  cell : ∀ b ∉ S, m'.heap.cell b = m.heap.cell b
  child : ∀ b ∉ S, m'.child b = m.child b
  next : ∀ b ∉ S, m'.links.next b = m.links.next b
  prev : ∀ b ∉ S, m'.links.prev b = m.links.prev b

section OnlyAt
variable {m m' m'' : Memory D} {S T : Set ℕ} {p : ℕ}

lemma OnlyAt.trans (h : OnlyAt m m' S) (h' : OnlyAt m' m'' S) : OnlyAt m m'' S where
  cell b hb := (h'.cell b hb).trans (h.cell b hb)
  child b hb := (h'.child b hb).trans (h.child b hb)
  next b hb := (h'.next b hb).trans (h.next b hb)
  prev b hb := (h'.prev b hb).trans (h.prev b hb)

lemma OnlyAt.mono (h : OnlyAt m m' S) (hsub : S ⊆ T) : OnlyAt m m' T where
  cell b hb := h.cell b fun hS => hb (hsub hS)
  child b hb := h.child b fun hS => hb (hsub hS)
  next b hb := h.next b fun hS => hb (hsub hS)
  prev b hb := h.prev b fun hS => hb (hsub hS)

lemma OnlyAt.same (h : OnlyAt m m' S) (hdisjoint : Disjoint S T) : Same m m' p T where
  cell b hb := h.cell b (Set.disjoint_right.mp hdisjoint hb)
  child b hb := h.child b (Set.disjoint_right.mp hdisjoint hb)
  next b hb _ := h.next b (Set.disjoint_right.mp hdisjoint hb)
  prev b hb _ := h.prev b (Set.disjoint_right.mp hdisjoint hb)

lemma Freed.onlyAt (h : Freed m m' S) : OnlyAt m m' S where
  cell := h.kept
  child b _ := by rw [h.child]
  next b _ := by rw [h.links]
  prev b _ := by rw [h.links]

lemma Relinked.onlyAt {xs : List ℕ} (h : Relinked m m' p xs) (hp : p ∈ S) (hxs : ∀ x ∈ xs, x ∈ S) :
    OnlyAt m m' S where
  cell b _ := by rw [h.heap]
  child b hb := h.child b fun heq => hb (heq ▸ hp)
  next b hb := h.next b fun hmem => hb (hxs b hmem)
  prev b hb := h.prev b fun hmem => hb (hxs b hmem)

end OnlyAt

/-! ## An item with its children -/

/-- An item that is no reference, with its children. -/
structure Parts (m : Memory D) (p : ℕ) (body : Body D) (fields : Fields D) (vs ns : Set ℕ)
    (kids : List (Placed D)) : Prop where
  cell : m.heap.cell p = some (.item body)
  fields_eq : Matches m.heap body fields vs ns
  flag : body.isReference = false
  text : HasText m.heap body.valuestring fields.valuestring vs
  notMem : p ∉ vs ∪ ns ∪ blocksOf kids
  strings : Disjoint (vs ∪ ns) (blocksOf kids)
  apart : Apart kids
  chain : Chain m.links none (kids.map Placed.ptr) none
  first : m.child p = (kids.map Placed.ptr).head?
  owned : ∀ k ∈ kids, Owned m k

/-- The item `p` with its children, and what belongs to it. -/
def whole (p : ℕ) (fields : Fields D) (vs ns : Set ℕ) (kids : List (Placed D)) : Placed D :=
  ⟨p, .node fields (kids.map Placed.item), insert p (vs ∪ ns ∪ blocksOf kids)⟩

/-- The item `p` and its strings alone. -/
def trunk (p : ℕ) (fields : Fields D) (vs ns : Set ℕ) : Placed D :=
  ⟨p, .node fields [], insert p (vs ∪ ns)⟩

section Parts
variable {m m' : Memory D} {p : ℕ} {body : Body D} {fields : Fields D} {vs ns bs : Set ℕ}
  {kids kids' others others' rest : List (Placed D)}

lemma Parts.toOwned (h : Parts m p body fields vs ns kids) :
    Owned m (whole p fields vs ns kids) :=
  .item h.cell h.fields_eq h.flag h.text h.notMem h.strings h.apart h.chain h.first h.owned

lemma Owned.parts {child : List (Entity D)} (h : Owned m ⟨p, .node fields child, bs⟩)
    (href : fields.isReference = false) :
    ∃ body vs ns kids, Parts m p body fields vs ns kids ∧ kids.map Placed.item = child ∧
      whole p fields vs ns kids = ⟨p, .node fields child, bs⟩ := by
  cases h with
  | item cell fields_eq flag text notMem strings apart chain first owned =>
    exact ⟨_, _, _, _, ⟨cell, fields_eq, flag, text, notMem, strings, apart, chain, first, owned⟩,
      rfl, rfl⟩
  | reference cell fields_eq flag =>
    rw [fields_eq.isReference, flag] at href
    cases href

lemma isItem_map (howned : ∀ k ∈ kids, Owned m k) : ∀ q ∈ kids.map Placed.ptr, m.IsItem q := by
  intro q hq
  obtain ⟨k, hk, rfl⟩ := List.mem_map.mp hq
  exact (howned k hk).exists_body

lemma Parts.listOf (h : Parts m p body fields vs ns kids) : ListOf m p (kids.map Placed.ptr) :=
  ⟨⟨body, h.cell⟩, isItem_map h.owned, h.apart.nodup_ptr h.owned, h.chain, h.first⟩

lemma blocks_whole : (whole p fields vs ns kids).blocks =
    (trunk p fields vs ns).blocks ∪ blocksOf kids := by
  show insert p (vs ∪ ns ∪ blocksOf kids) = insert p (vs ∪ ns) ∪ blocksOf kids
  rw [Set.insert_union]

/-- The item is apart from others when it, its children and the others are. -/
lemma apart_whole :
    Apart (whole p fields vs ns kids :: rest) ∧ Apart kids ∧
      Disjoint (trunk p fields vs ns).blocks (blocksOf kids) ↔
    Apart (trunk p fields vs ns :: (kids ++ rest)) := by
  rw [apart_cons, apart_cons, apart_append, blocksOf_append, blocks_whole, Set.disjoint_union_left,
    Set.disjoint_union_right]
  tauto

lemma Parts.disjoint_trunk (h : Parts m p body fields vs ns kids) :
    Disjoint (trunk p fields vs ns).blocks (blocksOf kids) := by
  rw [Set.disjoint_left]
  rintro b (rfl | hb) hbk
  · exact h.notMem (.inr hbk)
  · exact Set.disjoint_left.mp h.strings hb hbk

/-- Another list of children, from items that are apart from the item. -/
lemma Parts.relist (h : Parts m p body fields vs ns kids)
    (hcell : ∀ b ∈ (trunk p fields vs ns).blocks, m'.heap.cell b = m.heap.cell b)
    (hapart : Apart (trunk p fields vs ns :: kids')) (howned : ∀ k ∈ kids', Owned m' k)
    (hlist : ListOf m' p (kids'.map Placed.ptr)) : Parts m' p body fields vs ns kids' := by
  rw [apart_cons] at hapart
  have hstrings : ∀ b ∈ vs ∪ ns, m'.heap.cell b = m.heap.cell b := fun b hb => hcell b (.inr hb)
  refine ⟨(hcell p (.inl rfl)).trans h.cell, h.fields_eq.congr fun b hb => hstrings b (.inr hb),
    h.flag, h.text.congr fun b hb => hstrings b (.inl hb), ?_, ?_, hapart.1, hlist.chain,
    hlist.first, howned⟩
  · rintro (hb | hb)
    · exact h.notMem (.inl hb)
    · exact Set.disjoint_left.mp hapart.2 (.inl rfl) hb
  · exact hapart.2.mono_left fun b hb => .inr hb

end Parts

/-! ## Forests -/

/-- The memory holds these items, each in no list, and nothing else. -/
structure Forest (m : Memory D) (ks : List (Placed D)) : Prop where
  owned : ∀ k ∈ ks, Owned m k
  apart : Apart ks
  loose : ∀ k ∈ ks, m.Loose k.ptr
  only : ∀ b, m.heap.cell b ≠ none → b ∈ blocksOf ks

section Forest
variable {m m' : Memory D} {p : ℕ} {body : Body D} {fields : Fields D} {vs ns S : Set ℕ}
  {ks ks' rest kids : List (Placed D)}

lemma Forest.perm (h : Forest m ks) (hperm : ks.Perm ks') : Forest m ks' where
  owned k hk := h.owned k (hperm.mem_iff.mpr hk)
  apart := h.apart.perm hperm
  loose k hk := h.loose k (hperm.mem_iff.mpr hk)
  only b hb := by
    rw [← blocksOf_perm hperm]
    exact h.only b hb

/-- **Some items become others**, and nothing happens to the rest. -/
lemma Forest.change (olds news : List (Placed D)) (h : Forest m (olds ++ rest))
    (hat : OnlyAt m m' S) (hS : Disjoint S (blocksOf rest)) (howned : ∀ k ∈ news, Owned m' k)
    (hapart : Apart news) (hloose : ∀ k ∈ news, m'.Loose k.ptr) (hsub : blocksOf news ⊆ S)
    (honly : ∀ b, b ∈ S ∨ b ∈ blocksOf olds → m'.heap.cell b ≠ none → b ∈ blocksOf news) :
    Forest m' (news ++ rest) := by
  have hrest : ∀ k ∈ rest, Disjoint S k.blocks := fun k hk => hS.mono_right (subset_blocksOf hk)
  have hin : ∀ k ∈ rest, k ∈ olds ++ rest := fun k hk => List.mem_append_right olds hk
  refine ⟨fun k hk => ?_, ?_, fun k hk => ?_, fun b hb => ?_⟩
  · rcases List.mem_append.mp hk with hk | hk
    · exact howned k hk
    · exact (h.owned k (hin k hk)).frame (hat.same (hrest k hk))
  · exact apart_append.mpr ⟨hapart, (apart_append.mp h.apart).2.1, hS.mono_left hsub⟩
  · rcases List.mem_append.mp hk with hk | hk
    · exact hloose k hk
    · have hptr : k.ptr ∉ S :=
        Set.disjoint_right.mp (hrest k hk) (h.owned k (hin k hk)).ptr_mem
      have := h.loose k (hin k hk)
      exact ⟨(hat.next _ hptr).trans this.1, (hat.prev _ hptr).trans this.2⟩
  · rw [blocksOf_append]
    by_cases hbS : b ∈ S
    · exact .inl (honly b (.inl hbS) hb)
    · have := h.only b (hat.cell b hbS ▸ hb)
      rw [blocksOf_append] at this
      exact this.imp (fun hbo => honly b (.inr hbo) hb) id

/-- **The list of an item** takes in other items, or gives some away. -/
lemma Forest.relink (kids' others others' : List (Placed D))
    (h : Forest m (whole p fields vs ns kids :: (others ++ rest)))
    (hparts : Parts m p body fields vs ns kids) (hperm : (kids' ++ others').Perm (kids ++ others))
    (hrelinked : Relinked m m' p ((kids ++ others).map Placed.ptr))
    (hlist : ListOf m' p (kids'.map Placed.ptr)) (hloose : ∀ k ∈ others', m'.Loose k.ptr) :
    Parts m' p body fields vs ns kids' ∧
      Forest m' (whole p fields vs ns kids' :: (others' ++ rest)) := by
  have hflat : Apart (trunk p fields vs ns :: ((kids ++ others) ++ rest)) := by
    rw [List.append_assoc]
    exact apart_whole.mp ⟨h.apart, hparts.apart, hparts.disjoint_trunk⟩
  obtain ⟨hall, htrunk⟩ := apart_cons.mp hflat
  rw [blocksOf_append, Set.disjoint_union_right] at htrunk
  obtain ⟨hall, -, hrest⟩ := apart_append.mp hall
  have howned : ∀ k ∈ kids ++ others, Owned m k := by
    intro k hk
    rcases List.mem_append.mp hk with hk | hk
    · exact hparts.owned k hk
    · exact h.owned k (by simp [hk])
  have hp : p ∉ (kids ++ others).map Placed.ptr := notMem_ptr howned htrunk.1 (.inl rfl)
  have hptr : ∀ {k b}, k ∈ kids ++ others → b ∈ k.blocks → b ≠ k.ptr →
      b ∉ (kids ++ others).map Placed.ptr := by
    intro k b hk hb hne hmem
    obtain ⟨k', hk', rfl⟩ := List.mem_map.mp hmem
    exact hne (congrArg Placed.ptr (hall.eq_of_mem hk' hk (howned k' hk').ptr_mem hb))
  -- an item of the list keeps all but its links
  have hsame : ∀ k ∈ kids ++ others, Owned m' k := by
    intro k hk
    refine (howned k hk).frame ⟨fun b _ => by rw [hrelinked.heap], fun b hb => ?_,
      fun b hb hne => ?_, fun b hb hne => ?_⟩
    · exact hrelinked.child b fun heq =>
        Set.disjoint_left.mp htrunk.1 (.inl heq) (subset_blocksOf hk hb)
    · exact hrelinked.next b (hptr hk hb hne)
    · exact hrelinked.prev b (hptr hk hb hne)
  have hblocks : blocksOf kids' ∪ blocksOf others' = blocksOf (kids ++ others) := by
    rw [← blocksOf_append, blocksOf_perm hperm]
  have hall' := apart_append.mp (hall.perm hperm.symm)
  have htrunk' := htrunk.1
  rw [← hblocks, Set.disjoint_union_right] at htrunk'
  have hparts' : Parts m' p body fields vs ns kids' :=
    hparts.relist (fun b _ => by rw [hrelinked.heap]) (apart_cons.mpr ⟨hall'.1, htrunk'.1⟩)
      (fun k hk => hsame k (hperm.mem_iff.mp (List.mem_append_left _ hk))) hlist
  have hnews : blocksOf (whole p fields vs ns kids' :: others') =
      (trunk p fields vs ns).blocks ∪ blocksOf (kids ++ others) := by
    rw [blocksOf_cons, blocks_whole, Set.union_assoc, hblocks]
  have holds : blocksOf (whole p fields vs ns kids :: others) =
      (trunk p fields vs ns).blocks ∪ blocksOf (kids ++ others) := by
    rw [blocksOf_cons, blocks_whole, Set.union_assoc, blocksOf_append]
  refine ⟨hparts', h.change (whole p fields vs ns kids :: others) _
    (S := (trunk p fields vs ns).blocks ∪ blocksOf (kids ++ others))
    (hrelinked.onlyAt (.inl (.inl rfl)) fun q hq => ?_)
    (Set.disjoint_union_left.mpr ⟨htrunk.2, hrest⟩) ?_ ?_ ?_ hnews.subset fun b hb _ => ?_⟩
  · obtain ⟨k, hk, rfl⟩ := List.mem_map.mp hq
    exact .inr (subset_blocksOf hk (howned k hk).ptr_mem)
  · exact List.forall_mem_cons.mpr ⟨hparts'.toOwned, fun k hk =>
      hsame k (hperm.mem_iff.mp (List.mem_append_right _ hk))⟩
  · have hflat' : Apart (trunk p fields vs ns :: (kids' ++ others')) := by
      rw [apart_cons, blocksOf_append, Set.disjoint_union_right]
      exact ⟨hall.perm hperm.symm, htrunk'⟩
    exact (apart_whole.mpr hflat').1
  · refine List.forall_mem_cons.mpr ⟨?_, hloose⟩
    obtain ⟨hnext, hprev⟩ := h.loose _ List.mem_cons_self
    exact ⟨(hrelinked.next p hp).trans hnext, (hrelinked.prev p hp).trans hprev⟩
  · rw [hnews]
    rw [holds] at hb
    exact hb.elim id id

end Forest

end IpncRdk.CJson
