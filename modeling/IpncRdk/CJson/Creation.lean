import IpncRdk.CJson.Operations

/-!
# `cJSON.c`: new items and new names

* `New`, `newItem_cases`, `strdupText_cases` — what the two allocations do;
* `Forest.add_new` — there is one item more;
* `Created` — a function that creates an item, or fails and leaves nothing behind;
* `Owned.rename`, `Forest.rename` — an item gets another name.
-/

namespace IpncRdk.CJson

open Lib Heap

variable {D : Type}

/-! ## Allocations -/

/-- At `p` there is a new item of zeros. -/
structure New (zero : D) (m m' : Memory D) (p : ℕ) : Prop where
  only : OnlyAt m m' {p}
  fresh : m.heap.cell p = none
  cell : m'.heap.cell p = some (.item (zeroBody zero))
  child : m'.child p = none
  loose : m'.Loose p

section Allocation
variable {grant : ℕ → Bool} {zero : D} {m m' : Memory D} {p : ℕ}

lemma OnlyAt.refl (m : Memory D) (S : Set ℕ) : OnlyAt m m S :=
  ⟨fun _ _ => rfl, fun _ _ => rfl, fun _ _ => rfl, fun _ _ => rfl⟩

lemma onHeap_malloc_cases (grant : ℕ → Bool) (a : Cell D) (m : Memory D) :
    onHeap (malloc grant a) m = .ok (none, { m with heap := m.heap.skip }) ∨
      onHeap (malloc grant a) m = .ok (some m.heap.calls, { m with heap := m.heap.push a }) := by
  unfold onHeap
  cases hgrant : grant m.heap.calls with
  | false =>
    rw [malloc_of_refused (by rw [hgrant]; exact Bool.false_ne_true)]
    exact .inl rfl
  | true =>
    rw [malloc_of_granted hgrant]
    exact .inr rfl

lemma push_onlyAt (a : Cell D) (m : Memory D) :
    OnlyAt m { m with heap := m.heap.push a } {m.heap.calls} where
  cell _ hb := Function.update_of_ne hb _ _
  child _ _ := rfl
  next _ _ := rfl
  prev _ _ := rfl

lemma push_cell (a : Cell D) (h : Heap (Cell D)) : (h.push a).cell h.calls = some a :=
  Function.update_self _ _ _

lemma newItem_cases (grant : ℕ → Bool) (zero : D) (m : Memory D) :
    (∃ m', newItem grant zero m = .ok (none, m') ∧ OnlyAt m m' ∅) ∨
      ∃ m' p, newItem grant zero m = .ok (some p, m') ∧ New zero m m' p := by
  unfold newItem
  rcases onHeap_malloc_cases grant (.item (zeroBody zero)) m with hrun | hrun
  · refine .inl ⟨{ m with heap := m.heap.skip }, ?_, ⟨fun _ _ => rfl, fun _ _ => rfl,
      fun _ _ => rfl, fun _ _ => rfl⟩⟩
    rw [bind_of_ok hrun]
    rfl
  · have hcell : (m.heap.push (.item (zeroBody zero))).cell m.heap.calls =
        some (.item (zeroBody zero)) := push_cell _ _
    refine .inr ⟨⟨m.heap.push (.item (zeroBody zero)),
      (m.links.setNext (some m.heap.calls) none).setPrev (some m.heap.calls) none,
      Function.update m.child m.heap.calls none⟩, m.heap.calls, ?_,
      ⟨⟨fun b hb => ?_, fun b hb => ?_, fun b hb => ?_, fun b hb => ?_⟩, ?_, hcell,
        Function.update_self _ _ _, ?_, ?_⟩⟩
    · rw [bind_of_ok hrun]
      simp only
      rw [bind_of_ok (setNext_of hcell none), bind_of_ok (setPrev_of hcell none),
        bind_of_ok (setChild_of hcell none), pure_eq]
    · exact Function.update_of_ne hb _ _
    · exact Function.update_of_ne hb _ _
    · have hne : some m.heap.calls ≠ some b := fun heq => hb (Option.some.inj heq).symm
      rw [Links.next_setPrev, Links.next_setNext_of_ne hne]
    · have hne : some m.heap.calls ≠ some b := fun heq => hb (Option.some.inj heq).symm
      rw [Links.prev_setPrev_of_ne hne, Links.prev_setNext]
    · exact m.heap.unused _ le_rfl
    · rw [Links.next_setPrev]
      exact Links.next_setNext_self
    · exact Links.prev_setPrev_self

/-- A copy of a text in a new block, or nothing. -/
lemma strdupText_cases (grant : ℕ → Bool) (text : CString) (m : Memory D) :
    ∃ m' b bs, strdupText grant text m = .ok (b, m') ∧ OnlyAt m m' bs ∧
      (∀ b ∈ bs, m.heap.cell b = none) ∧ HasText m'.heap b (b.map fun _ => text) bs ∧
      m'.links = m.links ∧ m'.child = m.child := by
  unfold strdupText
  rcases onHeap_malloc_cases grant (.text text) m with hrun | hrun
  · exact ⟨_, none, ∅, hrun, ⟨fun _ _ => rfl, fun _ _ => rfl, fun _ _ => rfl, fun _ _ => rfl⟩,
      fun b hb => absurd hb (Set.notMem_empty b), .null, rfl, rfl⟩
  · refine ⟨_, some m.heap.calls, {m.heap.calls}, hrun, push_onlyAt _ m, ?_, .text (push_cell _ _),
      rfl, rfl⟩
    rintro b rfl
    exact m.heap.unused _ le_rfl

lemma setBody_cases {body : Body D} (hcell : m.heap.cell p = some (.item body)) (body' : Body D) :
    ∃ m', setBody p body' m = .ok ((), m') ∧ OnlyAt m m' {p} ∧
      m'.heap.cell p = some (.item body') ∧ m'.links = m.links ∧ m'.child = m.child := by
  obtain ⟨hne, hrun⟩ := setBody_of hcell body'
  exact ⟨_, hrun, ⟨fun b hb => Function.update_of_ne hb _ _, fun _ _ => rfl, fun _ _ => rfl,
    fun _ _ => rfl⟩, Function.update_self _ _ _, rfl, rfl⟩

end Allocation

/-! ## New items -/

section New
variable {grant : ℕ → Bool} {zero : D} {m m' : Memory D} {p : ℕ} {ks : List (Placed D)}

/-- An item without children. -/
lemma Parts.leaf {body : Body D} {fields : Fields D} {vs ns : Set ℕ}
    (hcell : m.heap.cell p = some (.item body)) (hfields : Matches m.heap body fields vs ns)
    (hflag : body.isReference = false)
    (htext : HasText m.heap body.valuestring fields.valuestring vs) (hp : p ∉ vs ∪ ns)
    (hchild : m.child p = none) : Parts m p body fields vs ns [] := by
  refine ⟨hcell, hfields, hflag, htext, ?_, ?_, List.Pairwise.nil, trivial, hchild,
    fun k hk => absurd hk List.not_mem_nil⟩
  · rw [blocksOf_nil, Set.union_empty]
    exact hp
  · rw [blocksOf_nil]
    exact Set.disjoint_empty _

lemma whole_nil {fields : Fields D} {vs ns : Set ℕ} :
    whole p fields vs ns [] = trunk p fields vs ns := by
  unfold whole trunk
  rw [blocksOf_nil, Set.union_empty]
  rfl

lemma Owned.leaf {body : Body D} {fields : Fields D} {vs ns : Set ℕ}
    (hcell : m.heap.cell p = some (.item body)) (hfields : Matches m.heap body fields vs ns)
    (hflag : body.isReference = false)
    (htext : HasText m.heap body.valuestring fields.valuestring vs) (hp : p ∉ vs ∪ ns)
    (hchild : m.child p = none) : Owned m (trunk p fields vs ns) := by
  rw [← whole_nil]
  exact (Parts.leaf hcell hfields hflag htext hp hchild).toOwned

lemma Forest.of_only (h : Forest m ks) (hat : OnlyAt m m' ∅) : Forest m' ks := by
  refine h.change [] [] hat (Set.empty_disjoint _)
    (fun k hk => absurd hk List.not_mem_nil) List.Pairwise.nil
    (fun k hk => absurd hk List.not_mem_nil) ?_ fun b hb _ => ?_
  · rw [blocksOf_nil]
  · rw [blocksOf_nil] at hb ⊢
    exact hb.elim id id

/-- **There is one item more.** -/
lemma Forest.add_new {r : Placed D} (h : Forest m ks) (hat : OnlyAt m m' r.blocks)
    (hfresh : ∀ b ∈ r.blocks, m.heap.cell b = none) (howned : Owned m' r)
    (hloose : m'.Loose r.ptr) : Forest m' (r :: ks) := by
  refine h.change [] [r] hat ?_ (by simpa using howned)
    (List.pairwise_singleton _ r) (by simpa using hloose) ?_ fun b hb _ => ?_
  · rw [Set.disjoint_left]
    rintro b hb ⟨k, hk, hbk⟩
    exact (h.owned k hk).allocated b hbk (hfresh b hb)
  · rw [blocksOf_cons, blocksOf_nil, Set.union_empty]
  · rw [blocksOf_nil] at hb
    rw [blocksOf_cons, blocksOf_nil, Set.union_empty]
    exact hb.elim id fun hb => absurd hb (Set.notMem_empty b)

/-- The function creates such an item, or it returns `NULL` and leaves nothing behind. -/
def Created (x : Mem D (Option ℕ)) (m : Memory D) (ks : List (Placed D)) (T : Entity D → Prop) :
    Prop :=
  (∃ m', x m = .ok (none, m') ∧ Forest m' ks) ∨
    ∃ m' p t bs, x m = .ok (some p, m') ∧ T t ∧ Forest m' (⟨p, t, bs⟩ :: ks)

/-- A new item without children. -/
def newEntity (kind : Kind) (valuestring : Option CString) (valueint : BitVec 32)
    (valuedouble : D) : Entity D :=
  .node ⟨kind, false, false, valuestring, valueint, valuedouble, none⟩ []

/-- An item without strings is new. -/
lemma New.forest {m₁ : Memory D} (hnew : New zero m m₁ p) (h : Forest m ks) (body : Body D)
    (hstring : body.string = none) (htext : body.valuestring = none)
    (hflag : body.isReference = false) :
    ∃ m' bs, setBody p body m₁ = .ok ((), m') ∧
      Forest m' (⟨p, .node ⟨body.kind, false, body.stringIsConst, none, body.valueint,
        body.valuedouble, none⟩ [], bs⟩ :: ks) := by
  obtain ⟨m', hset, hat, hcell, hlinks, hchild⟩ := setBody_cases hnew.cell body
  refine ⟨m', insert p (∅ ∪ ∅), hset, h.add_new (r := trunk p _ ∅ ∅) ?_ ?_ (Owned.leaf hcell
    ⟨rfl, hflag.symm, rfl, rfl, rfl, by rw [hstring]; exact .null, Set.empty_disjoint _⟩ hflag
    (by rw [htext]; exact .null) ?_ ?_) ?_⟩
  · exact (hnew.only.trans hat).mono fun b hb => .inl hb
  · rintro b (rfl | hb | hb)
    · exact hnew.fresh
    · exact absurd hb (Set.notMem_empty b)
    · exact absurd hb (Set.notMem_empty b)
  · rw [Set.union_empty]
    exact Set.notMem_empty p
  · rw [hchild, hnew.child]
  · unfold Memory.Loose
    rw [hlinks]
    exact hnew.loose

/-- `cJSON_CreateNull` and the others without arguments -/
lemma Forest.createKind (h : Forest m ks) (kind : Kind) :
    Created (createKind grant zero kind) m ks (· = newEntity kind none 0 zero) := by
  unfold Created CJson.createKind
  rcases newItem_cases grant zero m with ⟨m', hrun, hat⟩ | ⟨m₁, p, hrun, hnew⟩
  · refine .inl ⟨m', ?_, h.of_only hat⟩
    rw [bind_of_ok hrun]
    rfl
  · obtain ⟨m', bs, hset, hforest⟩ := hnew.forest h { zeroBody zero with kind := kind }
      rfl rfl rfl
    refine .inr ⟨m', p, _, bs, ?_, rfl, hforest⟩
    rw [bind_of_ok hrun]
    simp only
    rw [bind_of_ok hset, pure_eq]

/-- `cJSON_CreateNumber` -/
lemma Forest.createNumber (h : Forest m ks) (num : D) (int : BitVec 32) :
    Created (createNumber grant zero num int) m ks (· = newEntity .number none int num) := by
  unfold Created CJson.createNumber
  rcases newItem_cases grant zero m with ⟨m', hrun, hat⟩ | ⟨m₁, p, hrun, hnew⟩
  · refine .inl ⟨m', ?_, h.of_only hat⟩
    rw [bind_of_ok hrun]
    rfl
  · obtain ⟨m', bs, hset, hforest⟩ := hnew.forest h
      { zeroBody zero with kind := .number, valuedouble := num, valueint := int }
      rfl rfl rfl
    refine .inr ⟨m', p, _, bs, ?_, rfl, hforest⟩
    rw [bind_of_ok hrun]
    simp only
    rw [bind_of_ok hset, pure_eq]

/-- `cJSON_CreateString`, whose item has no string where the copy failed. -/
lemma Forest.createString (h : Forest m ks) (string : CString) :
    Created (createString grant zero string) m ks fun t =>
      ∃ valuestring, (valuestring = none ∨ valuestring = some string) ∧
        t = newEntity .string valuestring 0 zero := by
  unfold Created CJson.createString
  rcases newItem_cases grant zero m with ⟨m', hrun, hat⟩ | ⟨m₁, p, hrun, hnew⟩
  · refine .inl ⟨m', ?_, h.of_only hat⟩
    rw [bind_of_ok hrun]
    rfl
  · obtain ⟨m₂, b, vs, hcopy, hat₂, hfresh₂, htext, hlinks₂, hchild₂⟩ :=
      strdupText_cases grant string m₁
    have hp : p ∉ vs := by
      intro hp
      have := hfresh₂ p hp
      rw [hnew.cell] at this
      cases this
    have hcell₂ : m₂.heap.cell p = some (.item (zeroBody zero)) := by
      rw [hat₂.cell p hp, hnew.cell]
    obtain ⟨m', hset, hat, hcell, hlinks, hchild⟩ := setBody_cases hcell₂
      { zeroBody zero with kind := .string, valuestring := b }
    have hvs : ∀ c ∈ vs, m.heap.cell c = none := fun c hc => by
      rw [← hnew.only.cell c fun heq => hp (heq ▸ hc), hfresh₂ c hc]
    refine .inr ⟨m', p, newEntity .string (b.map fun _ => string) 0 zero, insert p (vs ∪ ∅), ?_,
      ⟨_, ?_, rfl⟩, h.add_new (r := trunk p ⟨.string, false, false, b.map fun _ => string, 0, zero,
        none⟩ vs ∅) ?_ ?_ (Owned.leaf hcell ⟨rfl, rfl, rfl, rfl, rfl, .null, Set.disjoint_empty _⟩
        rfl (htext.congr fun c hc => hat.cell c fun heq => hp (heq ▸ hc)) ?_ ?_) ?_⟩
    · rw [bind_of_ok hrun]
      simp only
      rw [bind_of_ok hcopy, bind_of_ok hset, pure_eq]
    · cases b
      · exact .inl rfl
      · exact .inr rfl
    · have hall : OnlyAt m m' (insert p vs) :=
        ((hnew.only.mono fun c hc => .inl hc).trans (hat₂.mono fun c hc => .inr hc)).trans
          (hat.mono fun c hc => .inl hc)
      exact hall.mono fun c hc => hc.imp id .inl
    · rintro c (rfl | hc | hc)
      · exact hnew.fresh
      · exact hvs c hc
      · exact absurd hc (Set.notMem_empty c)
    · rw [Set.union_empty]
      exact hp
    · rw [hchild, hchild₂, hnew.child]
    · unfold Memory.Loose
      rw [hlinks, hlinks₂]
      exact hnew.loose

/-- `create_reference`: the reference shares the children and the text, which it does not own. -/
lemma Forest.createReference (grant : ℕ → Bool) (zero : D) {i : Placed D} (h : Forest m ks)
    (hi : i ∈ ks) :
    Created (createReference grant zero i.ptr) m ks (· = i.item.reference) := by
  unfold Created CJson.createReference
  rcases newItem_cases grant zero m with ⟨m', hrun, hat⟩ | ⟨m₁, p, hrun, hnew⟩
  · refine .inl ⟨m', ?_, h.of_only hat⟩
    rw [bind_of_ok hrun]
    rfl
  · obtain ⟨body, vs, ns, hbody, hfields⟩ := (h.owned i hi).exists_matches
    have hip : i.ptr ≠ p := by
      rintro rfl
      rw [hnew.fresh] at hbody
      cases hbody
    have hbody₁ : m₁.heap.cell i.ptr = some (.item body) := by
      rw [hnew.only.cell _ hip, hbody]
    obtain ⟨m₂, hset, hat₂, hcell, hlinks, hchild⟩ := setBody_cases hnew.cell
      { body with string := none, isReference := true }
    generalize hchild' : Function.update m₂.child p (m₁.child i.ptr) = child'
    generalize hm' : (⟨m₂.heap, (m₂.links.setNext (some p) none).setPrev (some p) none,
      child'⟩ : Memory D) = m'
    have hhere : ∀ b ∉ ({p} : Set ℕ), some p ≠ some b := fun b hb heq =>
      hb (Option.some.inj heq).symm
    have hat₃ : OnlyAt m₂ m' {p} := by
      subst hm'
      refine ⟨fun _ _ => rfl, fun b hb => ?_, fun b hb => ?_, fun b hb => ?_⟩
      · show child' b = m₂.child b
        rw [← hchild', Function.update_of_ne hb]
      · rw [Links.next_setPrev, Links.next_setNext_of_ne (hhere b hb)]
      · rw [Links.prev_setPrev_of_ne (hhere b hb), Links.prev_setNext]
    have hloose : m'.Loose p := by
      subst hm'
      refine ⟨?_, Links.prev_setPrev_self⟩
      rw [Links.next_setPrev]
      exact Links.next_setNext_self
    have hcell' : m'.heap.cell p =
        some (.item { body with string := none, isReference := true }) := by
      subst hm'
      exact hcell
    have howned : Owned m' ⟨p, i.item.reference, insert p ∅⟩ := by
      obtain ⟨q, ⟨fields, child⟩, blocks⟩ := i
      exact .reference hcell' ⟨hfields.kind, rfl, hfields.stringIsConst, hfields.valueint,
        hfields.valuedouble, .null, Set.disjoint_empty _⟩ rfl rfl (Set.notMem_empty p)
    refine .inr ⟨m', p, i.item.reference, insert p ∅, ?_, rfl, h.add_new ?_ ?_ howned hloose⟩
    · rw [bind_of_ok hrun]
      simp only
      rw [bind_of_ok (getBody_of hbody₁), bind_of_ok (getChild_of hbody₁), bind_of_ok hset,
        bind_of_ok (setChild_of hcell _), hchild',
        bind_of_ok (setNext_of (m := ⟨m₂.heap, m₂.links, child'⟩) hcell _),
        bind_of_ok (setPrev_of (m := ⟨m₂.heap, m₂.links.setNext (some p) none, child'⟩) hcell _),
        pure_eq, hm']
    · exact ((hnew.only.trans hat₂).trans hat₃).mono fun b hb => .inl hb
    · rintro b (rfl | hb)
      · exact hnew.fresh
      · exact absurd hb (Set.notMem_empty b)

end New

/-! ## New names -/

section Rename
variable {grant : ℕ → Bool} {m : Memory D} {i : Placed D} {rest : List (Placed D)}

/-- **An item under another name**: its own blocks without those of the name stay. -/
lemma Owned.rename (h : Owned m i) : ∃ body ns core,
    m.heap.cell i.ptr = some (.item body) ∧
    HasName m.heap body.stringIsConst body.string i.item.fields.string ns ∧
    body.stringIsConst = i.item.fields.stringIsConst ∧ i.blocks = ns ∪ core ∧ Disjoint ns core ∧
    i.ptr ∈ core ∧
    ∀ m' name isConst str ns',
      m'.heap.cell i.ptr = some (.item { body with string := name, stringIsConst := isConst }) →
      HasName m'.heap isConst name str ns' → Disjoint ns' core →
      (∀ b ∈ core, b ≠ i.ptr → m'.heap.cell b = m.heap.cell b) → m'.links = m.links →
      m'.child = m.child → Owned m' ⟨i.ptr, i.item.named str isConst, ns' ∪ core⟩ := by
  cases h with
  | @item p body fields vs ns kids cell fields_eq flag text notMem strings apart chain first
      owned =>
    have hset : ∀ ns' : Set ℕ, insert p (vs ∪ ns' ∪ blocksOf kids) =
        ns' ∪ insert p (vs ∪ blocksOf kids) := by
      intro ns'
      ext b
      simp only [Set.mem_insert_iff, Set.mem_union]
      tauto
    have hns : Disjoint ns (insert p (vs ∪ blocksOf kids)) := by
      rw [Set.disjoint_left]
      rintro b hb (rfl | hbv | hbk)
      · exact notMem (.inl (.inr hb))
      · exact Set.disjoint_left.mp fields_eq.apart hbv hb
      · exact Set.disjoint_left.mp strings (.inr hb) hbk
    refine ⟨body, ns, insert p (vs ∪ blocksOf kids), cell, fields_eq.string,
      fields_eq.stringIsConst.symm, hset ns, hns, .inl rfl, ?_⟩
    intro m' name isConst str ns' cell' hname hdisjoint hcore hlinks hchild
    rw [Set.disjoint_left] at hdisjoint
    have hkids : ∀ k ∈ kids, Owned m' k := by
      intro k hk
      refine (owned k hk).frame ⟨fun b hb => hcore b (.inr (.inr ⟨k, hk, hb⟩)) ?_,
        fun b _ => by rw [hchild], fun b _ _ => by rw [hlinks], fun b _ _ => by rw [hlinks]⟩
      rintro rfl
      exact notMem (.inr ⟨k, hk, hb⟩)
    have hvs : ∀ b ∈ vs, m'.heap.cell b = m.heap.cell b := by
      intro b hb
      refine hcore b (.inr (.inl hb)) ?_
      rintro rfl
      exact notMem (.inl (.inl hb))
    show Owned m' ⟨p, .node _ (kids.map Placed.item), _⟩
    rw [← hset]
    refine .item cell' ⟨fields_eq.kind, fields_eq.isReference, rfl, fields_eq.valueint,
      fields_eq.valuedouble, hname, Set.disjoint_right.mpr fun b hb hbv =>
        hdisjoint hb (.inr (.inl hbv))⟩ flag (text.congr hvs) ?_ ?_ apart ?_ ?_ hkids
    · rintro ((hb | hb) | hb)
      · exact notMem (.inl (.inl hb))
      · exact hdisjoint hb (.inl rfl)
      · exact notMem (.inr hb)
    · rw [Set.disjoint_left]
      rintro b (hb | hb) hbk
      · exact Set.disjoint_left.mp strings (.inl hb) hbk
      · exact hdisjoint hb (.inr (.inr hbk))
    · rw [hlinks]
      exact chain
    · rw [hchild]
      exact first
  | @reference p body fields ns cell fields_eq flag text notMem =>
    have hset : ∀ ns' : Set ℕ, insert p ns' = ns' ∪ {p} := fun ns' => by
      rw [Set.insert_eq, Set.union_comm]
    refine ⟨body, ns, {p}, cell, fields_eq.string, fields_eq.stringIsConst.symm, hset ns,
      Set.disjoint_singleton_right.mpr notMem, rfl, ?_⟩
    intro m' name isConst str ns' cell' hname hdisjoint hcore hlinks hchild
    show Owned m' ⟨p, .node _ [], _⟩
    rw [← hset]
    exact .reference cell' ⟨fields_eq.kind, fields_eq.isReference, rfl, fields_eq.valueint,
      fields_eq.valuedouble, hname, Set.empty_disjoint _⟩ flag text
      (Set.disjoint_singleton_right.mp hdisjoint)

/-- **One of the items gets another name.** -/
lemma Forest.rename (h : Forest m (i :: rest)) : ∃ body ns,
    m.heap.cell i.ptr = some (.item body) ∧
    HasName m.heap body.stringIsConst body.string i.item.fields.string ns ∧
    body.stringIsConst = i.item.fields.stringIsConst ∧ i.ptr ∉ ns ∧
    ∀ m' name isConst str ns',
      (∀ b ∉ insert i.ptr (ns ∪ ns'), m'.heap.cell b = m.heap.cell b) →
      (∀ b ∈ ns, b ∉ ns' → m'.heap.cell b = none) →
      (∀ b ∈ ns', m.heap.cell b = none ∨ b ∈ ns) →
      m'.heap.cell i.ptr = some (.item { body with string := name, stringIsConst := isConst }) →
      HasName m'.heap isConst name str ns' → m'.links = m.links → m'.child = m.child →
      ∃ bs, Forest m' (⟨i.ptr, i.item.named str isConst, bs⟩ :: rest) := by
  have hi := h.owned i List.mem_cons_self
  obtain ⟨body, ns, core, hcell, hname, hconst, hblocks, hdisjoint, hptr, hrename⟩ := hi.rename
  have hnot : i.ptr ∉ ns := Set.disjoint_right.mp hdisjoint hptr
  refine ⟨body, ns, hcell, hname, hconst, hnot, ?_⟩
  intro m' name isConst str ns' helse hgone hnew hcell' hname' hlinks hchild
  have halloc : ∀ b ∈ i.blocks, m.heap.cell b ≠ none := hi.allocated
  rw [hblocks] at halloc
  have hcore : Disjoint ns' core := by
    rw [Set.disjoint_left]
    intro b hb hbc
    rcases hnew b hb with hnone | hbn
    · exact halloc b (.inr hbc) hnone
    · exact Set.disjoint_left.mp hdisjoint hbn hbc
  have howned := hrename m' name isConst str ns' hcell' hname' hcore (fun b hb hne => by
    refine helse b ?_ 
    rintro (rfl | hbn | hbn)
    · exact hne rfl
    · exact Set.disjoint_left.mp hdisjoint hbn hb
    · exact Set.disjoint_left.mp hcore hbn hb) hlinks hchild
  refine ⟨ns' ∪ core, h.change [i] [⟨i.ptr, i.item.named str isConst, ns' ∪ core⟩]
    (S := ns ∪ (ns' ∪ core)) ⟨fun b hb => helse b ?_, fun b _ => by rw [hchild],
      fun b _ => by rw [hlinks], fun b _ => by rw [hlinks]⟩ ?_ (by simpa using howned)
    (List.pairwise_singleton _ _) ?_ ?_ fun b hb hne => ?_⟩
  · rintro (rfl | hbn | hbn)
    · exact hb (.inr (.inr hptr))
    · exact hb (.inl hbn)
    · exact hb (.inr (.inl hbn))
  · have hrest := (apart_cons.mp h.apart).2
    rw [hblocks, Set.disjoint_union_left] at hrest
    refine Set.disjoint_union_left.mpr ⟨hrest.1, Set.disjoint_union_left.mpr ⟨?_, hrest.2⟩⟩
    rw [Set.disjoint_left]
    rintro b hb ⟨k, hk, hbk⟩
    rcases hnew b hb with hnone | hbn
    · exact (h.owned k (List.mem_cons_of_mem i hk)).allocated b hbk hnone
    · exact Set.disjoint_left.mp hrest.1 hbn ⟨k, hk, hbk⟩
  · have := h.loose i List.mem_cons_self
    unfold Memory.Loose at this ⊢
    simpa [hlinks] using this
  · rw [blocksOf_cons, blocksOf_nil, Set.union_empty]
    exact Set.subset_union_right
  · rw [blocksOf_cons, blocksOf_nil, Set.union_empty, hblocks] at hb
    rw [blocksOf_cons, blocksOf_nil, Set.union_empty]
    by_cases hbn : b ∈ ns'
    · exact .inl hbn
    · rcases hb with (hb | hb) | hb | hb
      · exact absurd (hgone b hb hbn) hne
      · exact hb
      · exact absurd (hgone b hb hbn) hne
      · exact .inr hb

/-- An item gets a copy of a name, or none where the copy fails. -/
lemma copyName_cases (grant : ℕ → Bool) {body : Body D} {p : ℕ}
    (hcell : m.heap.cell p = some (.item body)) (string : CString) :
    ∃ m₁ m' b ns, strdupText grant string m = .ok (b, m₁) ∧
      m₁.heap.cell p = some (.item body) ∧
      setBody p { body with string := b.map .copy } m₁ = .ok ((), m') ∧
      m'.heap.cell p = some (.item { body with string := b.map .copy }) ∧
      HasName m'.heap false (b.map .copy) (b.map fun _ => string) ns ∧
      (∀ c, c ≠ p → c ∉ ns → m'.heap.cell c = m.heap.cell c) ∧
      (∀ c ∈ ns, m.heap.cell c = none) ∧ m'.links = m.links ∧ m'.child = m.child := by
  obtain ⟨m₁, b, ns, hcopy, hat₁, hfresh, htext, hlinks₁, hchild₁⟩ :=
    strdupText_cases grant string m
  have hnot : p ∉ ns := by
    intro hmem
    have := hfresh _ hmem
    rw [hcell] at this
    cases this
  have hcell₁ : m₁.heap.cell p = some (.item body) := by rw [hat₁.cell _ hnot, hcell]
  obtain ⟨m', hset, hat, hcell', hlinks, hchild⟩ := setBody_cases hcell₁
    { body with string := b.map .copy }
  have hname : HasName m'.heap false (b.map .copy) (b.map fun _ => string) ns := by
    cases htext with
    | null => exact .null
    | @text c _ cell =>
      exact .copy (by rw [hat.cell c fun heq => hnot (heq ▸ rfl), cell]) rfl
  exact ⟨m₁, m', b, ns, hcopy, hcell₁, hset, hcell', hname,
    fun c hc hcn => by rw [hat.cell c hc, hat₁.cell c hcn], hfresh, hlinks.trans hlinks₁,
    hchild.trans hchild₁⟩

/-- `cJSON_AddItemToObject` gives the item a copy of the name, or none where the copy fails. -/
lemma Forest.addItemToObject (grant : ℕ → Bool) (h : Forest m (i :: rest))
    (hconst : i.item.fields.stringIsConst = false) (string : CString) :
    ∃ m' bs name, (name = none ∨ name = some string) ∧
      (∀ object, addItemToObject grant object string (some i.ptr) m =
        CJson.addItemToArray object (some i.ptr) m') ∧
      Forest m' (⟨i.ptr, i.item.named name false, bs⟩ :: rest) := by
  obtain ⟨body, ns, hcell, hname, hbody, hnot, hrename⟩ := h.rename
  rw [hconst] at hbody
  obtain ⟨m₁, hfree, hfreed⟩ := freed_freeName hname
  rw [hbody, if_neg Bool.false_ne_true] at hfree
  have hcell₁ : m₁.heap.cell i.ptr = some (.item body) := by rw [hfreed.kept _ hnot, hcell]
  obtain ⟨m₂, m', b, ns', hcopy, hcell₂, hset, hcell', hname', hkept, hfresh, hlinks, hchild⟩ :=
    copyName_cases grant hcell₁ string
  obtain ⟨bs, hforest⟩ := hrename m' (b.map .copy) false (b.map fun _ => string) ns'
    (fun c hc => by
      rw [hkept c (fun heq => hc (.inl heq)) fun hcn => hc (.inr (.inr hcn)),
        hfreed.kept c fun hcn => hc (.inr (.inl hcn))])
    (fun c hc hcn => by rw [hkept c (fun heq => hnot (heq ▸ hc)) hcn, hfreed.gone c hc])
    (fun c hc => by
      by_cases hcn : c ∈ ns
      · exact .inr hcn
      · rw [← hfreed.kept c hcn]
        exact .inl (hfresh c hc))
    (by rw [hcell', ← hbody]) hname' (by rw [hlinks, hfreed.links]) (by rw [hchild, hfreed.child])
  refine ⟨m', bs, _, ?_, fun object => ?_, hforest⟩
  · cases b
    · exact .inl rfl
    · exact .inr rfl
  · unfold CJson.addItemToObject
    simp only
    rw [bind_of_ok (getBody_of hcell), bind_of_ok hfree, bind_of_ok hcopy,
      bind_of_ok (getBody_of hcell₂), bind_of_ok hset]

/-- `cJSON_ReplaceItemInObject` gives a name to an item without one. -/
lemma Forest.copyName (grant : ℕ → Bool) (h : Forest m (i :: rest))
    (hconst : i.item.fields.stringIsConst = false) (hnone : i.item.fields.string = none)
    (string : CString) :
    ∃ m₁ m' b body bs name, (name = none ∨ name = some string) ∧
      strdupText grant string m = .ok (b, m₁) ∧ m₁.heap.cell i.ptr = some (.item body) ∧
      setBody i.ptr { body with string := b.map .copy } m₁ = .ok ((), m') ∧
      Forest m' (⟨i.ptr, i.item.named name false, bs⟩ :: rest) := by
  obtain ⟨body, ns, hcell, hname, hbody, hnot, hrename⟩ := h.rename
  rw [hconst] at hbody
  rw [hnone] at hname
  obtain rfl := hname.eq_empty
  obtain ⟨m₁, m', b, ns', hcopy, hcell₁, hset, hcell', hname', hkept, hfresh, hlinks, hchild⟩ :=
    copyName_cases grant hcell string
  obtain ⟨bs, hforest⟩ := hrename m' (b.map .copy) false (b.map fun _ => string) ns'
    (fun c hc => hkept c (fun heq => hc (.inl heq)) fun hcn => hc (.inr (.inr hcn)))
    (fun c hc => absurd hc (Set.notMem_empty c)) (fun c hc => .inl (hfresh c hc))
    (by rw [hcell', ← hbody]) hname' hlinks hchild
  refine ⟨m₁, m', b, body, bs, _, ?_, hcopy, hcell₁, hset, hforest⟩
  cases b
  · exact .inl rfl
  · exact .inr rfl

/-- `cJSON_AddItemToObjectCS` gives the item a name of the program. -/
lemma Forest.addItemToObjectCS (h : Forest m (i :: rest)) (string : CString) :
    ∃ m' bs, (∀ object, addItemToObjectCS object string (some i.ptr) m =
        CJson.addItemToArray object (some i.ptr) m') ∧
      Forest m' (⟨i.ptr, i.item.named (some string) true, bs⟩ :: rest) := by
  obtain ⟨body, ns, hcell, hname, hbody, hnot, hrename⟩ := h.rename
  obtain ⟨m₁, hfree, hfreed⟩ := freed_freeName hname
  have hcell₁ : m₁.heap.cell i.ptr = some (.item body) := by rw [hfreed.kept _ hnot, hcell]
  obtain ⟨m', hset, hat, hcell', hlinks, hchild⟩ := setBody_cases hcell₁
    { body with string := some (.literal string), stringIsConst := true }
  obtain ⟨bs, hforest⟩ := hrename m' (some (.literal string)) true (some string) ∅
    (fun c hc => by
      rw [hat.cell c fun heq => hc (.inl heq), hfreed.kept c fun hcn => hc (.inr (.inl hcn))])
    (fun c hc _ => by rw [hat.cell c fun heq => hnot (heq ▸ hc), hfreed.gone c hc])
    (fun c hc => absurd hc (Set.notMem_empty c)) hcell' (.literal rfl)
    (by rw [hlinks, hfreed.links]) (by rw [hchild, hfreed.child])
  refine ⟨m', bs, fun object => ?_, hforest⟩
  unfold CJson.addItemToObjectCS
  simp only
  rw [bind_of_ok (getBody_of hcell), bind_of_ok hfree, bind_of_ok hset]

/-- `cJSON_ReplaceItemInObject`; where there is no such name the new item stays as it is. -/
lemma Forest.replaceItemInObject (grant : ℕ → Bool) {a : Placed D} (h : Forest m (a :: i :: rest))
    (href : a.item.fields.isReference = false) (hconst : i.item.fields.stringIsConst = false)
    (hnone : i.item.fields.string = none) (string : CString) :
    Exchanged (CJson.replaceItemInObject grant a.ptr string i.ptr) m a rest (a.item.indexOf string)
      fun e => ∃ name, (name = none ∨ name = some string) ∧ e = i.item.named name false := by
  obtain ⟨body, fields, vs, ns, kids, hparts, hwhole⟩ := h.exists_parts href
  have hfind := hparts.findChild string
  have hindex : (kids.map Placed.item).findIdx (Entity.hasName string) =
      a.item.indexOf string := by rw [hwhole]; rfl
  have hchild : a.item.child = kids.map Placed.item := by rw [hwhole]; rfl
  rw [hindex] at hfind
  unfold Exchanged CJson.replaceItemInObject
  rw [bind_of_ok hfind]
  by_cases hlt : a.item.indexOf string < kids.length
  · obtain ⟨m₁, m₂, b, ibody, bs, name, hor, hcopy, hcell, hset, hforest⟩ :=
      (h.perm (List.Perm.swap i a rest)).copyName grant hconst hnone string
    have hget : a.item.child[a.item.indexOf string]? ≠ none := by
      rw [hchild]
      simpa using hlt
    rcases (hforest.perm (List.Perm.swap a _ rest)).replaceItemInArray href
      (a.item.indexOf string) with ⟨hout, -⟩ | ⟨m', bs', _, rfl, -, hrun, hforest'⟩
    · exact absurd hout hget
    · refine .inr ⟨m', bs', _, ⟨name, hor, rfl⟩, hget, ?_, hforest'⟩
      rw [List.getElem?_eq_getElem (by rw [List.length_map]; exact hlt)]
      simp only
      rw [bind_of_ok hcopy, bind_of_ok (getBody_of hcell), bind_of_ok hset]
      exact hrun
  · refine .inl ⟨?_, ?_⟩
    · rw [hchild]
      simpa using hlt
    · rw [List.getElem?_eq_none (by rw [List.length_map]; exact not_lt.mp hlt)]
      rfl

end Rename

end IpncRdk.CJson
