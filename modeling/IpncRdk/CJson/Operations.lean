import IpncRdk.CJson.Forest

/-!
# `cJSON.c`: what the functions do to all items

* `Forest.cJSONDelete` — an item is gone;
* `Forest.addItemToArray`, `Forest.insertItemInArray`, `Forest.detachItemFromArray`,
  `Forest.replaceItemInArray` — the list of an item is changed;
* `Detached`, `Exchanged` — what the functions do that look for a child first;
* `Forest.rename` — an item gets another name;
* `Forest.createKind`, `Forest.createString`, `Forest.createReference` — there is one item more.
-/

namespace IpncRdk.CJson

open Lib Heap

variable {D : Type}

namespace Entity

/-- The item with another list of children. -/
def mapChild (f : List (Entity D) → List (Entity D)) : Entity D → Entity D
  | node fields child => node fields (f child)

/-- The item under another name. -/
def named (string : Option CString) (isConst : Bool) : Entity D → Entity D
  | node fields child => node { fields with string := string, stringIsConst := isConst } child

/-- A reference to the item, which has nothing of its own. -/
def reference : Entity D → Entity D
  | node fields _ =>
    node { fields with string := none, isReference := true, valuestring := none } []

/-- Whether the item has this name, in lower or upper case. -/
def hasName (string : CString) (t : Entity D) : Bool :=
  t.fields.string.any fun name => strcasecmpEq name.bytes string.bytes

/-- Where the first child with this name stands, or the number of children. -/
def indexOf (string : CString) (t : Entity D) : ℕ := t.child.findIdx (hasName string)

end Entity

/-! ## The list of an item -/

section Lists
variable {m : Memory D} {a i r : Placed D} {rest : List (Placed D)} {p : ℕ} {body : Body D}
  {fields : Fields D} {vs ns : Set ℕ} {kids kids' : List (Placed D)}

/-- `cJSON_Delete` -/
lemma Forest.cJSONDelete (h : Forest m (r :: rest)) :
    ∃ m', cJSONDelete (some r.ptr) m = .ok ((), m') ∧ Forest m' rest ∧ OnlyAt m m' r.blocks := by
  obtain ⟨m', hrun, hfreed⟩ := delete_owned (h.owned r List.mem_cons_self)
    (h.loose r List.mem_cons_self).1
  refine ⟨m', hrun, h.change [r] [] hfreed.onlyAt (apart_cons.mp h.apart).2
    (fun k hk => absurd hk List.not_mem_nil) List.Pairwise.nil
    (fun k hk => absurd hk List.not_mem_nil) ?_ fun b hb hne => ?_, hfreed.onlyAt⟩
  · rw [blocksOf_nil]
    exact Set.empty_subset _
  · rw [blocksOf_cons, blocksOf_nil, Set.union_empty, or_self] at hb
    exact absurd (hfreed.gone b hb) hne

lemma Forest.exists_parts (h : Forest m (a :: rest)) (href : a.item.fields.isReference = false) :
    ∃ body fields vs ns kids, Parts m a.ptr body fields vs ns kids ∧
      a = whole a.ptr fields vs ns kids := by
  obtain ⟨p, ⟨fields, child⟩, bs⟩ := a
  obtain ⟨body, vs, ns, kids, hparts, -, hwhole⟩ := (h.owned _ List.mem_cons_self).parts href
  exact ⟨body, fields, vs, ns, kids, hparts, hwhole.symm⟩

/-- Another item is none of the children. -/
lemma Forest.other (h : Forest m (whole p fields vs ns kids :: i :: rest))
    (hparts : Parts m p body fields vs ns kids) :
    m.IsItem i.ptr ∧ i.ptr ∉ kids.map Placed.ptr ∧ m.Loose i.ptr := by
  have hi : i ∈ whole p fields vs ns kids :: i :: rest := by simp
  refine ⟨(h.owned i hi).exists_body, fun hmem => ?_, h.loose i hi⟩
  have hflat := apart_whole.mp ⟨h.apart, hparts.apart, hparts.disjoint_trunk⟩
  obtain ⟨-, -, hdisjoint⟩ := apart_append.mp (apart_cons.mp hflat).1
  exact notMem_ptr hparts.owned hdisjoint.symm
    (subset_blocksOf List.mem_cons_self (h.owned i hi).ptr_mem) hmem

lemma Forest.of_whole (h : Forest m (whole p fields vs ns kids' :: rest))
    (kids : List (Placed D)) (f : List (Entity D) → List (Entity D))
    (hmap : f (kids.map Placed.item) = kids'.map Placed.item) :
    ∃ bs, Forest m (⟨p, (whole p fields vs ns kids).item.mapChild f, bs⟩ :: rest) := by
  refine ⟨(whole p fields vs ns kids').blocks, ?_⟩
  show Forest m (⟨p, .node fields (f (kids.map Placed.item)), _⟩ :: rest)
  rw [hmap]
  exact h

lemma exists_split {α : Type} {l : List α} {n : ℕ} (h : n < l.length) :
    ∃ xs c ys, l = xs ++ c :: ys ∧ xs.length = n := by
  refine ⟨l.take n, l[n], l.drop (n + 1), ?_, ?_⟩
  · rw [List.getElem_cons_drop, List.take_append_drop]
  · rw [List.length_take, min_eq_left h.le]

lemma Relinked.and_other {m' : Memory D} (h : Relinked m m' p (i.ptr :: kids.map Placed.ptr)) :
    Relinked m m' p ((kids ++ [i]).map Placed.ptr) := by
  rw [List.map_append]
  exact h.mono (List.perm_append_singleton i.ptr _).symm.subset

/-- `cJSON_AddItemToArray` -/
lemma Forest.addItemToArray (h : Forest m (a :: i :: rest))
    (href : a.item.fields.isReference = false) :
    ∃ m' bs, addItemToArray a.ptr (some i.ptr) m = .ok ((), m') ∧
      Forest m' (⟨a.ptr, a.item.mapChild (· ++ [i.item]), bs⟩ :: rest) := by
  obtain ⟨body, fields, vs, ns, kids, hparts, hwhole⟩ := h.exists_parts href
  rw [hwhole] at h ⊢
  obtain ⟨hi, hmem, hloose⟩ := h.other hparts
  obtain ⟨m', hrun, hlist, hrelinked⟩ := addItemToArray_of hparts.listOf hi hmem hloose
  obtain ⟨-, hforest⟩ := Forest.relink (kids ++ [i]) [i] [] h hparts
    (by simp) hrelinked.and_other (by simpa using hlist) (by simp)
  obtain ⟨bs, hforest⟩ := hforest.of_whole kids (· ++ [i.item]) (by simp)
  exact ⟨m', bs, hrun, hforest⟩

/-- `cJSON_InsertItemInArray`, at the end of a list that is too short. -/
lemma Forest.insertItemInArray (h : Forest m (a :: i :: rest))
    (href : a.item.fields.isReference = false) (which : ℤ) :
    ∃ m' bs, insertItemInArray a.ptr which i.ptr m = .ok ((), m') ∧
      Forest m' (⟨a.ptr, a.item.mapChild fun child =>
        child.take which.toNat ++ i.item :: child.drop which.toNat, bs⟩ :: rest) := by
  obtain ⟨body, fields, vs, ns, kids, hparts, hwhole⟩ := h.exists_parts href
  by_cases hlt : which.toNat < kids.length
  · rw [hwhole] at h ⊢
    obtain ⟨hi, hmem, -⟩ := h.other hparts
    obtain ⟨xs, c, ys, rfl, hlen⟩ := exists_split hlt
    have hwhich : which.toNat = (xs.map Placed.ptr).length := by rw [List.length_map, hlen]
    have hlist := hparts.listOf
    rw [List.map_append, List.map_cons] at hlist hmem
    obtain ⟨m', hrun, hlist', hrelinked⟩ := insertItemInArray_of hlist hi hmem hwhich
    obtain ⟨-, hforest⟩ := Forest.relink (xs ++ i :: c :: ys) [i] [] h
      hparts (by
        rw [List.append_nil]
        exact List.perm_middle.trans (List.perm_append_singleton i _).symm)
      (Relinked.and_other (by simpa using hrelinked)) (by simpa using hlist') (by simp)
    obtain ⟨bs, hforest⟩ := hforest.of_whole (xs ++ c :: ys)
      (fun child => child.take which.toNat ++ i.item :: child.drop which.toNat)
      (by simp [← hlen])
    exact ⟨m', bs, hrun, hforest⟩
  · obtain ⟨m', bs, hrun, hforest⟩ := h.addItemToArray href
    refine ⟨m', bs, ?_, ?_⟩
    · rw [← hrun]
      exact insertItemInArray_end hparts.listOf (by rw [List.length_map]; exact not_lt.mp hlt) i.ptr
    · have hmap : a.item.mapChild (fun child =>
          child.take which.toNat ++ i.item :: child.drop which.toNat) =
          a.item.mapChild (· ++ [i.item]) := by
        have hlen : (kids.map Placed.item).length ≤ which.toNat := by
          rw [List.length_map]
          exact not_lt.mp hlt
        rw [hwhole]
        show Entity.node fields ((kids.map Placed.item).take which.toNat ++
          i.item :: (kids.map Placed.item).drop which.toNat) = _
        rw [List.take_of_length_le hlen, List.drop_of_length_le hlen]
        rfl
      rw [hmap]
      exact hforest

/-- The function takes the `n`th child out of the list of an item, if there is one. -/
def Detached (x : Mem D (Option ℕ)) (m : Memory D) (a : Placed D) (rest : List (Placed D))
    (n : ℕ) : Prop :=
  (a.item.child[n]? = none ∧ x m = .ok (none, m)) ∨
    ∃ m' bs c, a.item.child[n]? = some c.item ∧ x m = .ok (some c.ptr, m') ∧
      Forest m' (⟨a.ptr, a.item.mapChild (·.eraseIdx n), bs⟩ :: c :: rest)

/-- The function puts an item in the place of the `n`th child, which it deletes, if there is one. -/
def Exchanged (x : Mem D Unit) (m : Memory D) (a : Placed D) (rest : List (Placed D)) (n : ℕ)
    (given : Entity D → Prop) : Prop :=
  (a.item.child[n]? = none ∧ x m = .ok ((), m)) ∨
    ∃ m' bs e, given e ∧ a.item.child[n]? ≠ none ∧ x m = .ok ((), m') ∧
      Forest m' (⟨a.ptr, a.item.mapChild (·.set n e), bs⟩ :: rest)

/-- `cJSON_DetachItemFromArray` -/
lemma Forest.detachItemFromArray (h : Forest m (a :: rest))
    (href : a.item.fields.isReference = false) (which : ℤ) :
    Detached (CJson.detachItemFromArray a.ptr which) m a rest which.toNat := by
  obtain ⟨body, fields, vs, ns, kids, hparts, hwhole⟩ := h.exists_parts href
  rw [hwhole] at h ⊢
  by_cases hlt : which.toNat < kids.length
  · obtain ⟨xs, c, ys, rfl, hlen⟩ := exists_split hlt
    have hwhich : which.toNat = (xs.map Placed.ptr).length := by rw [List.length_map, hlen]
    have hlist := hparts.listOf
    rw [List.map_append, List.map_cons] at hlist
    obtain ⟨m', hrun, hlist', hrelinked, hloose⟩ := detachItemFromArray_of hlist hwhich
    obtain ⟨-, hforest⟩ := Forest.relink (xs ++ ys) [] [c] h hparts
      (by
        rw [List.append_nil]
        exact (List.perm_append_singleton c _).trans List.perm_middle.symm)
      (by simpa using hrelinked) (by simpa using hlist') (by simpa using hloose)
    obtain ⟨bs, hforest⟩ := hforest.of_whole (xs ++ c :: ys)
      (fun child => child.eraseIdx which.toNat)
      (by simp [← hlen, List.eraseIdx_append_of_length_le])
    refine .inr ⟨m', bs, c, ?_, hrun, hforest⟩
    show ((xs ++ c :: ys).map Placed.item)[which.toNat]? = some c.item
    simp [← hlen]
  · refine .inl ⟨?_, detachItemFromArray_none hparts.listOf ?_⟩
    · refine List.getElem?_eq_none ?_
      show (kids.map Placed.item).length ≤ _
      rw [List.length_map]
      exact not_lt.mp hlt
    · rw [List.length_map]
      exact not_lt.mp hlt

/-- `cJSON_ReplaceItemInArray`; where there is no such item the new one stays as it is. -/
lemma Forest.replaceItemInArray (h : Forest m (a :: i :: rest))
    (href : a.item.fields.isReference = false) (which : ℤ) :
    Exchanged (CJson.replaceItemInArray a.ptr which i.ptr) m a rest which.toNat (· = i.item) := by
  obtain ⟨body, fields, vs, ns, kids, hparts, hwhole⟩ := h.exists_parts href
  rw [hwhole] at h ⊢
  by_cases hlt : which.toNat < kids.length
  · obtain ⟨hi, hmem, -⟩ := h.other hparts
    obtain ⟨xs, c, ys, rfl, hlen⟩ := exists_split hlt
    have hwhich : which.toNat = (xs.map Placed.ptr).length := by rw [List.length_map, hlen]
    have hlist := hparts.listOf
    rw [List.map_append, List.map_cons] at hlist hmem
    obtain ⟨m₁, hrun, hlist', hrelinked, hloose⟩ := replaceItemInArray_of hlist hi hmem hwhich
    obtain ⟨-, hforest⟩ := Forest.relink (xs ++ i :: ys) [i] [c] h hparts
      (by
        refine (List.perm_append_singleton c _).trans ?_
        refine (List.perm_middle.cons c).trans ((List.Perm.swap i c _).trans ?_)
        exact (List.perm_middle.symm.cons i).trans (List.perm_append_singleton i _).symm)
      (Relinked.and_other (by simpa using hrelinked)) (by simpa using hlist')
      (by simpa using hloose)
    obtain ⟨bs, hforest⟩ := hforest.of_whole (xs ++ c :: ys)
      (fun child => child.set which.toNat i.item) (by simp [← hlen])
    obtain ⟨m', hdelete, hforest, -⟩ := (hforest.perm (List.Perm.swap _ _ _)).cJSONDelete
    refine .inr ⟨m', bs, _, rfl, ?_, hrun.trans hdelete, hforest⟩
    show ((xs ++ c :: ys).map Placed.item)[which.toNat]? ≠ none
    simp [← hlen]
  · refine .inl ⟨?_, replaceItemInArray_none hparts.listOf ?_⟩
    · refine List.getElem?_eq_none ?_
      show (kids.map Placed.item).length ≤ _
      rw [List.length_map]
      exact not_lt.mp hlt
    · rw [List.length_map]
      exact not_lt.mp hlt

end Lists

/-! ## Children by their names -/

section Names
variable {m : Memory D} {a : Placed D} {rest : List (Placed D)} {p : ℕ} {body : Body D}
  {fields : Fields D} {vs ns : Set ℕ} {kids : List (Placed D)}

lemma strcasecmp_of {isConst : Bool} {name : Option Name} {str : Option CString}
    (hname : HasName m.heap isConst name str ns) (string : CString) :
    strcasecmp name string m =
      .ok (!(str.any fun name => strcasecmpEq name.bytes string.bytes), m) := by
  cases hname with
  | null => rfl
  | literal => rfl
  | @copy b str cell =>
    unfold strcasecmp getName
    simp only
    rw [bind_of_ok (getText_of cell)]
    rfl

lemma find_chain {q : Option ℕ} (howned : ∀ k ∈ kids, Owned m k)
    (hchain : Chain m.links q (kids.map Placed.ptr) none) (string : CString) {fuel : ℕ}
    (hfuel : kids.length ≤ fuel) (i : ℕ) :
    find string fuel i (kids.map Placed.ptr).head? m =
      .ok ((i + (kids.map Placed.item).findIdx (Entity.hasName string),
        (kids.map Placed.ptr)[(kids.map Placed.item).findIdx (Entity.hasName string)]?), m) := by
  induction kids generalizing q fuel i with
  | nil => cases fuel <;> rfl
  | cons k kids ih =>
    obtain ⟨fuel, rfl⟩ := Nat.exists_eq_succ_of_ne_zero (Nat.ne_zero_of_lt hfuel)
    rw [List.forall_mem_cons] at howned
    obtain ⟨body, vs, ns, hcell, hfields⟩ := howned.1.exists_matches
    rw [List.map_cons, List.map_cons, List.head?_cons, find, bind_of_ok (getBody_of hcell),
      bind_of_ok (strcasecmp_of hfields.string string), List.findIdx_cons]
    change (if !k.item.hasName string then _ else _ : Mem D _) m = _
    cases k.item.hasName string with
    | true => rfl
    | false =>
      rw [Bool.not_false, if_pos rfl, bind_of_ok (getNext_of hcell), hchain.2.1, Option.or_none,
        ih howned.2 hchain.2.2 (Nat.le_of_succ_le_succ hfuel), cond_false,
        List.getElem?_cons_succ, Nat.add_right_comm i 1, Nat.add_assoc]

lemma Parts.findChild (h : Parts m p body fields vs ns kids) (string : CString) :
    findChild p string m = .ok (((kids.map Placed.item).findIdx (Entity.hasName string),
      (kids.map Placed.ptr)[(kids.map Placed.item).findIdx (Entity.hasName string)]?), m) := by
  have hlist := h.listOf
  have hfuel : kids.length ≤ m.heap.calls := by
    rw [← List.length_map Placed.ptr]
    exact hlist.length_le
  have hfind := find_chain h.owned h.chain string hfuel 0
  rw [Nat.zero_add] at hfind
  unfold CJson.findChild
  rw [bind_of_ok (hlist.walk 0).1]
  exact hfind

/-- `cJSON_DetachItemFromObject` is `cJSON_DetachItemFromArray` at the place of the name. -/
lemma Forest.detachItemFromObject (h : Forest m (a :: rest))
    (href : a.item.fields.isReference = false) (string : CString) :
    Detached (CJson.detachItemFromObject a.ptr string) m a rest (a.item.indexOf string) := by
  have harray := h.detachItemFromArray href (a.item.indexOf string)
  obtain ⟨body, fields, vs, ns, kids, hparts, hwhole⟩ := h.exists_parts href
  have hindex : a.item.indexOf string =
      (kids.map Placed.item).findIdx (Entity.hasName string) := by rw [hwhole]; rfl
  have hsame : CJson.detachItemFromObject a.ptr string m =
      CJson.detachItemFromArray a.ptr (a.item.indexOf string) m := by
    rw [hindex]
    unfold CJson.detachItemFromObject
    rw [bind_of_ok (hparts.findChild string)]
    cases hget : (kids.map Placed.ptr)[(kids.map Placed.item).findIdx (Entity.hasName string)]? with
    | none =>
      symm
      refine detachItemFromArray_none hparts.listOf ?_
      exact List.getElem?_eq_none_iff.mp hget
    | some c => rfl
  unfold Detached
  rw [hsame]
  exact harray

end Names

end IpncRdk.CJson
