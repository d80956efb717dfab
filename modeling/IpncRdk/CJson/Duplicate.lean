import IpncRdk.CJson.Creation

/-!
# `cJSON.c`: copies of items

* `Kept` — what was allocated stays as it is;
* `Copied` — a function that makes an item of new blocks, or leaves nothing behind;
* `copyFields_of`, `copyChildren_of` — the item with its strings, and the loop over the children;
* `duplicate_of` — `cJSON_Duplicate`.
-/

namespace IpncRdk.CJson

open Lib Heap

variable {D : Type}

/-- What was allocated stays as it is. -/
def Kept (m m' : Memory D) : Prop := OnlyAt m m' {b | m.heap.cell b = none}

section Kept
variable {m m' m'' : Memory D} {S : Set ℕ} {p : ℕ} {body : Body D} {fields : Fields D}
  {vs ns : Set ℕ} {kids : List (Placed D)}

lemma OnlyAt.kept (h : OnlyAt m m' S) (hS : ∀ b ∈ S, m.heap.cell b = none) : Kept m m' := h.mono hS

lemma Kept.fresh (h : Kept m m') {b : ℕ} (hb : m'.heap.cell b = none) : m.heap.cell b = none := by
  by_contra hne
  exact hne (h.cell b hne ▸ hb)

/-- What happens to new blocks does not matter. -/
lemma Kept.and_then (h : Kept m m') (h' : OnlyAt m' m'' S) (hS : ∀ b ∈ S, m.heap.cell b = none) :
    Kept m m'' :=
  h.trans (h'.mono hS)

lemma Kept.trans (h : Kept m m') (h' : Kept m' m'') : Kept m m'' :=
  h.and_then h' fun _ hb => h.fresh hb

lemma Owned.kept {r : Placed D} (hr : Owned m r) (h : Kept m m') : Owned m' r :=
  hr.frame ⟨fun b hb => h.cell b (hr.allocated b hb), fun b hb => h.child b (hr.allocated b hb),
    fun b hb _ => h.next b (hr.allocated b hb), fun b hb _ => h.prev b (hr.allocated b hb)⟩

lemma Parts.kept (hparts : Parts m p body fields vs ns kids) (h : Kept m m') :
    Parts m' p body fields vs ns kids := by
  have halloc : ∀ b ∈ (whole p fields vs ns kids).blocks, m.heap.cell b ≠ none :=
    hparts.toOwned.allocated
  rw [blocks_whole] at halloc
  have hptr : ∀ q ∈ kids.map Placed.ptr, m.heap.cell q ≠ none := by
    intro q hq
    obtain ⟨k, hk, rfl⟩ := List.mem_map.mp hq
    exact halloc _ (.inr (subset_blocksOf hk (hparts.owned k hk).ptr_mem))
  have howned : ∀ k ∈ kids, Owned m' k := fun k hk => (hparts.owned k hk).kept h
  refine hparts.relist (fun b hb => h.cell b (halloc b (.inl hb)))
    (apart_cons.mpr ⟨hparts.apart, hparts.disjoint_trunk⟩) howned
    ⟨⟨body, ?_⟩, isItem_map howned, hparts.listOf.nodup, hparts.chain.congr
      (fun q hq => h.next q (hptr q hq)) (fun q hq => h.prev q (hptr q hq)), ?_⟩
  · rw [h.cell p (halloc p (.inl (.inl rfl))), hparts.cell]
  · rw [h.child p (halloc p (.inl (.inl rfl))), hparts.first]

end Kept

namespace Entity

/-- No item is a reference, and no name is the program's. -/
def Plain (t : Entity D) : Prop :=
  t.All fun fields _ => fields.isReference = false ∧ fields.stringIsConst = false

end Entity

/-- The function makes an item `t` of new blocks, or it returns `NULL` and leaves nothing behind. -/
def Copied (x : Mem D (Option ℕ)) (m : Memory D) (ks : List (Placed D)) (t : Entity D) : Prop :=
  (∃ m', x m = .ok (none, m') ∧ Forest m' ks ∧ Kept m m') ∨
    ∃ m' q bs, x m = .ok (some q, m') ∧ Forest m' (⟨q, t, bs⟩ :: ks) ∧ Kept m m' ∧
      ∀ b ∈ bs, m.heap.cell b = none

/-! ## The fields -/

section Fields
variable {grant : ℕ → Bool} {zero : D} {m m₁ : Memory D} {r : Placed D} {p : ℕ} {body : Body D}
  {ks : List (Placed D)} {vs ns : Set ℕ}

/-- An item in a new block, with its text in other new blocks, and still without a name. -/
structure Unnamed (m m' : Memory D) (p : ℕ) (body : Body D) (str : Option CString) (vs : Set ℕ) :
    Prop where
  fresh : m.heap.cell p = none
  only : OnlyAt m m' (insert p vs)
  cell : m'.heap.cell p = some (.item body)
  text : HasText m'.heap body.valuestring str vs
  strings : ∀ c ∈ vs, m.heap.cell c = none
  notMem : p ∉ vs
  loose : m'.Loose p
  child : m'.child p = none

lemma Unnamed.kept {m' : Memory D} {str : Option CString} (h : Unnamed m m' p body str vs) :
    Kept m m' :=
  h.only.kept fun c hc => by
    rcases hc with rfl | hc
    · exact h.fresh
    · exact h.strings c hc

/-- With a name in further new blocks, or without one, the item is one of its own. -/
lemma Unnamed.named {m₃ m' : Memory D} (fields : Fields D) {name : Option Name}
    (hitem : Unnamed m m₃ p body fields.valuestring vs) (h : Forest m ks)
    (hcell : m'.heap.cell p = some (.item { body with string := name }))
    (hplain : body.isReference = false)
    (hmatches : Matches m'.heap { body with string := name } fields ∅ ns)
    (hat : OnlyAt m₃ m' (insert p ns)) (hfresh : ∀ c ∈ ns, m₃.heap.cell c = none)
    (hlinks : m'.links = m₃.links) (hchild : m'.child = m₃.child) :
    Kept m m' ∧ (∀ c ∈ (whole p fields vs ns []).blocks, m.heap.cell c = none) ∧
      Parts m' p { body with string := name } fields vs ns [] ∧
      Forest m' (whole p fields vs ns [] :: ks) := by
  have hns : ∀ c ∈ ns, m.heap.cell c = none := fun c hc => hitem.kept.fresh (hfresh c hc)
  have hpns : p ∉ ns := by
    intro hmem
    have := hfresh p hmem
    rw [hitem.cell] at this
    cases this
  have hvsns : Disjoint vs ns := by
    rw [Set.disjoint_left]
    exact fun c hc hcn => hitem.text.allocated c hc (hfresh c hcn)
  have htext : HasText m'.heap body.valuestring fields.valuestring vs :=
    hitem.text.congr fun c hc => hat.cell c fun hmem => by
      rcases hmem with rfl | hmem
      · exact hitem.notMem hc
      · exact Set.disjoint_left.mp hvsns hc hmem
  have hleaf : Parts m' p { body with string := name } fields vs ns [] :=
    .leaf hcell { hmatches with apart := hvsns } hplain htext
      (fun hc => hc.elim hitem.notMem hpns) (by rw [hchild, hitem.child])
  have hblocks : ∀ c ∈ (whole p fields vs ns ([] : List (Placed D))).blocks,
      m.heap.cell c = none := by
    rw [whole_nil]
    rintro c (rfl | hc | hc)
    · exact hitem.fresh
    · exact hitem.strings c hc
    · exact hns c hc
  have honly : OnlyAt m m' (whole p fields vs ns ([] : List (Placed D))).blocks := by
    rw [whole_nil]
    exact (hitem.only.mono fun c hc => hc.imp id .inl).trans (hat.mono fun c hc => hc.imp id .inr)
  have hloose : m'.Loose p := by
    unfold Memory.Loose
    rw [hlinks]
    exact hitem.loose
  exact ⟨honly.kept hblocks, hblocks, hleaf, h.add_new honly hblocks hleaf.toOwned hloose⟩

end Fields

/-! ## The children -/

section Children
variable {grant : ℕ → Bool} {zero : D} {m m₀ : Memory D} {p : ℕ} {body : Body D}
  {fields : Fields D} {vs ns : Set ℕ} {ks kids cs : List (Placed D)}

end Children

/-! ## The item -/

section Item
variable {grant : ℕ → Bool} {zero : D} {m : Memory D} {r : Placed D} {ks : List (Placed D)}

end Item

end IpncRdk.CJson
