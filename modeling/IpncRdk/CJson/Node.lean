import IpncRdk.CJson.Entity
import IpncRdk.Lib.Blocks
import IpncRdk.Lib.Chain

/-!
# `cJSON.c`: items in memory

An item is a block with the fields of `struct cJSON`, its strings are blocks of their own. The
pointers `next`, `prev` and `child` of all items stand beside the blocks.

* `Memory`, `Mem` — the blocks and the pointers, and code that uses them;
* `getBody`, `getNext`, … — the fields of an item, which must be allocated;
* `delete`, `duplicate` — the two functions over whole items;
* `addItemToArray`, `detachItemFromArray`, … — the functions over the list of children.
-/

namespace IpncRdk.CJson

open Lib Heap

/-- `char *string`: a copy in a block, or a text that the program holds. -/
inductive Name
  | copy (block : ℕ)
  | literal (text : CString)

/-- The fields of an item other than its pointers to items. -/
structure Body (D : Type) where
  kind : Kind
  isReference : Bool
  stringIsConst : Bool
  valuestring : Option ℕ
  valueint : BitVec 32
  valuedouble : D
  string : Option Name

/-- What stands in a block. -/
inductive Cell (D : Type)
  | item (body : Body D)
  | text (str : CString)

structure Memory (D : Type) where
  heap : Heap (Cell D)
  links : Links ℕ
  child : ℕ → Option ℕ

abbrev Mem (D : Type) := StateT (Memory D) (Except HeapFault)

variable {D : Type} {α : Type}

/-! ## Fields -/

/-- Code that uses the blocks only. -/
def onHeap (x : Alloc (Cell D) α) : Mem D α := fun m =>
  (x m.heap).map fun r => (r.1, { m with heap := r.2 })

def getBody (p : ℕ) : Mem D (Body D) := fun m =>
  match m.heap.cell p with
  | some (.item body) => .ok (body, m)
  | _ => .error .dangling

def setBody (p : ℕ) (body : Body D) : Mem D Unit := do
  let _ ← getBody p
  onHeap (store p (.item body))

/-- The text of a block. -/
def getText (b : ℕ) : Mem D CString := fun m =>
  match m.heap.cell b with
  | some (.text str) => .ok (str, m)
  | _ => .error .dangling

/-- The text of a name. -/
def getName : Name → Mem D CString
  | .copy b => getText b
  | .literal str => pure str

def getNext (p : ℕ) : Mem D (Option ℕ) := do
  let _ ← getBody p
  fun m => .ok (m.links.next p, m)

def getPrev (p : ℕ) : Mem D (Option ℕ) := do
  let _ ← getBody p
  fun m => .ok (m.links.prev p, m)

def getChild (p : ℕ) : Mem D (Option ℕ) := do
  let _ ← getBody p
  fun m => .ok (m.child p, m)

def setNext (p : ℕ) (q : Option ℕ) : Mem D Unit := do
  let _ ← getBody p
  fun m => .ok ((), { m with links := m.links.setNext (some p) q })

def setPrev (p : ℕ) (q : Option ℕ) : Mem D Unit := do
  let _ ← getBody p
  fun m => .ok ((), { m with links := m.links.setPrev (some p) q })

/-- `if (p) p->next=q` -/
def setNextOf : Option ℕ → Option ℕ → Mem D Unit
  | none, _ => pure ()
  | some p, q => setNext p q

/-- `if (p) p->prev=q` -/
def setPrevOf : Option ℕ → Option ℕ → Mem D Unit
  | none, _ => pure ()
  | some p, q => setPrev p q

def setChild (p : ℕ) (q : Option ℕ) : Mem D Unit := do
  let _ ← getBody p
  fun m => .ok ((), { m with child := Function.update m.child p q })

section Known
variable {m : Memory D} {p : ℕ} {body : Body D} (hcell : m.heap.cell p = some (.item body))
include hcell

lemma getBody_of : getBody p m = .ok (body, m) := by
  unfold getBody
  rw [hcell]

lemma getNext_of : getNext p m = .ok (m.links.next p, m) := by
  unfold getNext
  rw [bind_of_ok (getBody_of hcell)]

lemma getPrev_of : getPrev p m = .ok (m.links.prev p, m) := by
  unfold getPrev
  rw [bind_of_ok (getBody_of hcell)]

lemma getChild_of : getChild p m = .ok (m.child p, m) := by
  unfold getChild
  rw [bind_of_ok (getBody_of hcell)]

lemma setNext_of (q : Option ℕ) :
    setNext p q m = .ok ((), { m with links := m.links.setNext (some p) q }) := by
  unfold setNext
  rw [bind_of_ok (getBody_of hcell)]

lemma setPrev_of (q : Option ℕ) :
    setPrev p q m = .ok ((), { m with links := m.links.setPrev (some p) q }) := by
  unfold setPrev
  rw [bind_of_ok (getBody_of hcell)]

lemma setChild_of (q : Option ℕ) :
    setChild p q m = .ok ((), { m with child := Function.update m.child p q }) := by
  unfold setChild
  rw [bind_of_ok (getBody_of hcell)]

lemma setBody_of (body' : Body D) : ∃ hne, setBody p body' m =
    .ok ((), { m with heap := m.heap.write p (.item body') hne }) := by
  have hne : m.heap.cell p ≠ none := by
    rw [hcell]
    exact Option.some_ne_none _
  refine ⟨hne, ?_⟩
  have hstore : store p (.item body') m.heap = .ok ((), m.heap.write p (.item body') hne) :=
    dif_pos hne
  unfold setBody
  rw [bind_of_ok (getBody_of hcell)]
  unfold onHeap
  rw [hstore]
  rfl

end Known

lemma getText_of {m : Memory D} {b : ℕ} {str : CString} (hcell : m.heap.cell b = some (.text str)) :
    getText b m = .ok (str, m) := by
  unfold getText
  rw [hcell]

/-! ## Items -/

variable (grant : ℕ → Bool) (zero : D)

/-- The body of an item of zeros. -/
def zeroBody : Body D := ⟨.false, false, false, none, 0, zero, none⟩

/-- `cJSON_New_Item` -/
def newItem : Mem D (Option ℕ) := do
  match ← onHeap (malloc grant (.item (zeroBody zero))) with
  | none => pure none
  | some node => do
    setNext node none
    setPrev node none
    setChild node none
    pure (some node)

/-- `cJSON_strdup` -/
def strdupText (text : CString) : Mem D (Option ℕ) := onHeap (malloc grant (.text text))

/-- A block that a field points to is freed. -/
def freeText : Option ℕ → Mem D Unit
  | none => pure ()
  | some b => onHeap (free b)

def freeName : Option Name → Mem D Unit
  | none => pure ()
  | some (.copy b) => onHeap (free b)
  | some (.literal _) => fun _ => .error .dangling

/-- `cJSON_Delete`; an item below or behind another one lies deeper by one level of fuel. -/
def delete : ℕ → Option ℕ → Mem D Unit
  | _, none => pure ()
  | 0, some _ => fun _ => .error .diverges
  | fuel + 1, some c => do
    let next ← getNext c
    let body ← getBody c
    let child ← getChild c
    (if body.isReference then pure () else delete fuel child)
    (if body.isReference then pure () else freeText body.valuestring)
    (if body.stringIsConst then pure () else freeName body.string)
    onHeap (free c)
    delete fuel next

/-- `cJSON_Delete` with as much fuel as there are blocks. -/
def cJSONDelete (c : Option ℕ) : Mem D Unit := fun m => delete m.heap.calls c m

/-- `cJSON_CreateNull`, `cJSON_CreateTrue`, `cJSON_CreateFalse`, `cJSON_CreateArray` and
`cJSON_CreateObject` -/
def createKind (kind : Kind) : Mem D (Option ℕ) := do
  match ← newItem grant zero with
  | none => pure none
  | some item => do
    setBody item { zeroBody zero with kind := kind }
    pure (some item)

/-- `cJSON_CreateNumber` of a number and the `int` that it is cast to. -/
def createNumber (num : D) (int : BitVec 32) : Mem D (Option ℕ) := do
  match ← newItem grant zero with
  | none => pure none
  | some item => do
    setBody item { zeroBody zero with kind := .number, valuedouble := num, valueint := int }
    pure (some item)

/-- `cJSON_CreateString` -/
def createString (string : CString) : Mem D (Option ℕ) := do
  match ← newItem grant zero with
  | none => pure none
  | some item => do
    let valuestring ← strdupText grant string
    setBody item { zeroBody zero with kind := .string, valuestring := valuestring }
    pure (some item)

/-! ## The list of children -/

/-- `while (c && which>0) c=c->next,which--` -/
def walk : ℕ → Option ℕ → Mem D (Option ℕ)
  | 0, c => pure c
  | _ + 1, none => pure none
  | which + 1, some c => do
    let next ← getNext c
    walk which next

/-- `while (c->next) c=c->next` -/
def last : ℕ → ℕ → Mem D ℕ
  | 0, _ => fun _ => .error .diverges
  | fuel + 1, c => do
    match ← getNext c with
    | none => pure c
    | some next => last fuel next

/-- `while(c)i++,c=c->next` -/
def arraySize : ℕ → Option ℕ → Mem D ℕ
  | _, none => pure 0
  | 0, some _ => fun _ => .error .diverges
  | fuel + 1, some c => do
    let next ← getNext c
    let i ← arraySize fuel next
    pure (i + 1)

/-- `cJSON_GetArraySize` -/
def getArraySize (array : ℕ) : Mem D ℕ := do
  let c ← getChild array
  fun m => arraySize m.heap.calls c m

/-- `cJSON_GetArrayItem` -/
def getArrayItem (array : ℕ) (item : ℤ) : Mem D (Option ℕ) := do
  let c ← getChild array
  walk item.toNat c

/-- `suffix_object` -/
def suffixObject (prev item : ℕ) : Mem D Unit := do
  setNext prev (some item)
  setPrev item (some prev)

/-- `cJSON_AddItemToArray` -/
def addItemToArray (array : ℕ) (item : Option ℕ) : Mem D Unit := do
  let c ← getChild array
  match item, c with
  | none, _ => pure ()
  | some item, none => setChild array (some item)
  | some item, some c => do
    let c ← fun m => last m.heap.calls c m
    suffixObject c item

/-- `cJSON_AddItemToObject` -/
def addItemToObject (object : ℕ) (string : CString) : Option ℕ → Mem D Unit
  | none => pure ()
  | some item => do
    let body ← getBody item
    freeName body.string
    let copy ← strdupText grant string
    let body ← getBody item
    setBody item { body with string := copy.map .copy }
    addItemToArray object (some item)

/-- `cJSON_AddItemToObjectCS` -/
def addItemToObjectCS (object : ℕ) (string : CString) : Option ℕ → Mem D Unit
  | none => pure ()
  | some item => do
    let body ← getBody item
    (if body.stringIsConst then pure () else freeName body.string)
    setBody item { body with string := some (.literal string), stringIsConst := true }
    addItemToArray object (some item)

/-- `create_reference` -/
def createReference (item : ℕ) : Mem D (Option ℕ) := do
  match ← newItem grant zero with
  | none => pure none
  | some ref => do
    let body ← getBody item
    let child ← getChild item
    setBody ref { body with string := none, isReference := true }
    setChild ref child
    setNext ref none
    setPrev ref none
    pure (some ref)

/-- `cJSON_AddItemReferenceToArray` -/
def addItemReferenceToArray (array item : ℕ) : Mem D Unit := do
  let ref ← createReference grant zero item
  addItemToArray array ref

/-- `cJSON_AddItemReferenceToObject` -/
def addItemReferenceToObject (object : ℕ) (string : CString) (item : ℕ) : Mem D Unit := do
  let ref ← createReference grant zero item
  addItemToObject grant object string ref

/-- `cJSON_DetachItemFromArray` -/
def detachItemFromArray (array : ℕ) (which : ℤ) : Mem D (Option ℕ) := do
  let first ← getChild array
  match ← walk which.toNat first with
  | none => pure none
  | some c => do
    let next ← getNext c
    let prev ← getPrev c
    setNextOf prev next
    setPrevOf next prev
    (if first = some c then setChild array next else pure ())
    setPrev c none
    setNext c none
    pure (some c)

/-- `cJSON_DeleteItemFromArray` -/
def deleteItemFromArray (array : ℕ) (which : ℤ) : Mem D Unit := do
  let c ← detachItemFromArray array which
  cJSONDelete c

/-- Whether `cJSON_strcasecmp(name,string)` is not zero. -/
def strcasecmp (name : Option Name) (string : CString) : Mem D Bool :=
  match name with
  | none => pure true
  | some name => do
    let text ← getName name
    pure (!strcasecmpEq text.bytes string.bytes)

/-- `while (c && cJSON_strcasecmp(c->string,string)) i++,c=c->next` -/
def find (string : CString) : ℕ → ℕ → Option ℕ → Mem D (ℕ × Option ℕ)
  | _, i, none => pure (i, none)
  | 0, _, some _ => fun _ => .error .diverges
  | fuel + 1, i, some c => do
    let body ← getBody c
    let other ← strcasecmp body.string string
    if other then do
      let next ← getNext c
      find string fuel (i + 1) next
    else pure (i, some c)

/-- The loop from the first child on. -/
def findChild (object : ℕ) (string : CString) : Mem D (ℕ × Option ℕ) := do
  let c ← getChild object
  fun m => find string m.heap.calls 0 c m

/-- `cJSON_GetObjectItem` -/
def Mem.getObjectItem (object : ℕ) (string : CString) : Mem D (Option ℕ) := do
  let (_, c) ← findChild object string
  pure c

/-- `cJSON_DetachItemFromObject` -/
def detachItemFromObject (object : ℕ) (string : CString) : Mem D (Option ℕ) := do
  let (i, c) ← findChild object string
  match c with
  | none => pure none
  | some _ => detachItemFromArray object i

/-- `cJSON_DeleteItemFromObject` -/
def deleteItemFromObject (object : ℕ) (string : CString) : Mem D Unit := do
  let c ← detachItemFromObject object string
  cJSONDelete c

/-- `if (c==array->child) array->child=newitem; else newitem->prev->next=newitem` -/
def linkFrom (array : ℕ) (first : Bool) (prev : Option ℕ) (newitem : ℕ) : Mem D Unit :=
  if first then setChild array (some newitem)
  else match prev with
    | none => fun _ => .error .nullDeref
    | some prev => setNext prev (some newitem)

/-- `cJSON_InsertItemInArray` -/
def insertItemInArray (array : ℕ) (which : ℤ) (newitem : ℕ) : Mem D Unit := do
  let first ← getChild array
  match ← walk which.toNat first with
  | none => addItemToArray array (some newitem)
  | some c => do
    let prev ← getPrev c
    setNext newitem (some c)
    setPrev newitem prev
    setPrev c (some newitem)
    linkFrom array (first = some c) prev newitem

/-- `cJSON_ReplaceItemInArray` -/
def replaceItemInArray (array : ℕ) (which : ℤ) (newitem : ℕ) : Mem D Unit := do
  let first ← getChild array
  match ← walk which.toNat first with
  | none => pure ()
  | some c => do
    let next ← getNext c
    let prev ← getPrev c
    setNext newitem next
    setPrev newitem prev
    setPrevOf next (some newitem)
    linkFrom array (first = some c) prev newitem
    setPrev c none
    setNext c none
    cJSONDelete (some c)

/-- `cJSON_ReplaceItemInObject` -/
def replaceItemInObject (object : ℕ) (string : CString) (newitem : ℕ) : Mem D Unit := do
  let (i, c) ← findChild object string
  match c with
  | none => pure ()
  | some _ => do
    let copy ← strdupText grant string
    let body ← getBody newitem
    setBody newitem { body with string := copy.map .copy }
    replaceItemInArray object i newitem

/-! ## Copies -/

/-- `newitem->valuestring=cJSON_strdup(item->valuestring)`, if there is one, and whether it
succeeded. -/
def dupValuestring (newitem : ℕ) : Option ℕ → Mem D Bool
  | none => pure true
  | some b => do
    let text ← getText b
    let copy ← strdupText grant text
    let body ← getBody newitem
    setBody newitem { body with valuestring := copy }
    pure copy.isSome

/-- `newitem->string=cJSON_strdup(item->string)`, if there is one, and whether it succeeded. -/
def dupString (newitem : ℕ) : Option Name → Mem D Bool
  | none => pure true
  | some name => do
    let text ← getName name
    let copy ← strdupText grant text
    let body ← getBody newitem
    setBody newitem { body with string := copy.map .copy }
    pure copy.isSome

/-- All fields of an item are copied; the strings are those that may be missing. -/
def copyFields (item newitem : ℕ) : Mem D Bool := do
  let body ← getBody item
  setBody newitem { zeroBody zero with
    kind := body.kind, stringIsConst := body.stringIsConst, valueint := body.valueint,
    valuedouble := body.valuedouble }
  let copied ← dupValuestring grant newitem body.valuestring
  if copied then dupString grant newitem body.string else pure false

/-- `newchild` becomes the child behind `nptr`, or the first one. -/
def linkBehind (newitem : ℕ) (nptr : Option ℕ) (newchild : ℕ) : Mem D Unit :=
  match nptr with
  | none => setChild newitem (some newchild)
  | some nptr => suffixObject nptr newchild

/-- The loop over the children, which are copied by `dup`, and whether it succeeded. -/
def copyChildren (dup : ℕ → Mem D (Option ℕ)) (newitem : ℕ) :
    ℕ → Option ℕ → Option ℕ → Mem D Bool
  | _, _, none => pure true
  | 0, _, some _ => fun _ => .error .diverges
  | fuel + 1, nptr, some cptr => do
    match ← dup cptr with
    | none => pure false
    | some newchild => do
      linkBehind newitem nptr newchild
      let cptr ← getNext cptr
      copyChildren dup newitem fuel (some newchild) cptr

/-- `cJSON_Duplicate` of an item; an item below another one lies deeper by one level of fuel. -/
def duplicate : ℕ → ℕ → Bool → Mem D (Option ℕ)
  | 0, _, _ => fun _ => .error .diverges
  | fuel + 1, item, recurse => do
    match ← newItem grant zero with
    | none => pure none
    | some newitem => do
      let copied ← copyFields grant zero item newitem
      let copied ←
        (if copied && recurse then do
          let cptr ← getChild item
          copyChildren (fun c => duplicate fuel c true) newitem fuel none cptr
        else pure copied)
      if copied then pure (some newitem)
      else do
        cJSONDelete (some newitem)
        pure none

/-- `cJSON_Duplicate` with as much fuel as there are blocks. -/
def cJSONDuplicate (item : Option ℕ) (recurse : Bool) : Mem D (Option ℕ) := fun m =>
  match item with
  | none => .ok (none, m)
  | some item => duplicate grant zero m.heap.calls item recurse m

/-! ## What they do on a list of items -/

/-- At `p` there is an item. -/
def Memory.IsItem (m : Memory D) (p : ℕ) : Prop := ∃ body, m.heap.cell p = some (.item body)

section Lists
variable {m : Memory D} {p q : Option ℕ} {xs ys : List ℕ}

lemma setNextOf_of (hp : ∀ x, p = some x → m.IsItem x) (q : Option ℕ) :
    setNextOf p q m = .ok ((), { m with links := m.links.setNext p q }) := by
  cases p with
  | none => rfl
  | some x =>
    obtain ⟨body, hcell⟩ := hp x rfl
    exact setNext_of hcell q

lemma setPrevOf_of (hp : ∀ x, p = some x → m.IsItem x) (q : Option ℕ) :
    setPrevOf p q m = .ok ((), { m with links := m.links.setPrev p q }) := by
  cases p with
  | none => rfl
  | some x =>
    obtain ⟨body, hcell⟩ := hp x rfl
    exact setPrev_of hcell q

/-- The loop comes to the item with this number, or to the end of the list. -/
lemma walk_chain (hchain : Chain m.links p xs none) (hitems : ∀ x ∈ xs, m.IsItem x)
    (which : ℕ) : walk which xs.head? m = .ok (xs[which]?, m) := by
  induction which generalizing p xs with
  | zero => rw [List.head?_eq_getElem?, walk, pure_eq]
  | succ which ih =>
    cases xs with
    | nil => rfl
    | cons x xs =>
      rw [List.forall_mem_cons] at hitems
      obtain ⟨body, hcell⟩ := hitems.1
      rw [List.head?_cons, walk, bind_of_ok (getNext_of hcell), hchain.2.1, Option.or_none,
        ih hchain.2.2 hitems.2, List.getElem?_cons_succ]

lemma walk_to {c : ℕ} (hchain : Chain m.links p (xs ++ c :: ys) none)
    (hitems : ∀ x ∈ xs ++ c :: ys, m.IsItem x) :
    walk xs.length (xs ++ c :: ys).head? m = .ok (some c, m) := by
  rw [walk_chain hchain hitems, List.getElem?_append_right le_rfl, Nat.sub_self,
    List.getElem?_cons_zero]

lemma last_chain {x : ℕ} (hchain : Chain m.links p (x :: xs) none)
    (hitems : ∀ y ∈ x :: xs, m.IsItem y) {fuel : ℕ} (hfuel : xs.length < fuel) :
    ∃ y, (x :: xs).getLast? = some y ∧ last fuel x m = .ok (y, m) := by
  induction xs generalizing p x fuel with
  | nil =>
    obtain ⟨fuel, rfl⟩ := Nat.exists_eq_succ_of_ne_zero (Nat.ne_zero_of_lt hfuel)
    obtain ⟨body, hcell⟩ := hitems x List.mem_cons_self
    refine ⟨x, rfl, ?_⟩
    rw [last, bind_of_ok (getNext_of hcell), hchain.2.1]
    rfl
  | cons y xs ih =>
    obtain ⟨fuel, rfl⟩ := Nat.exists_eq_succ_of_ne_zero (Nat.ne_zero_of_lt hfuel)
    rw [List.forall_mem_cons] at hitems
    obtain ⟨body, hcell⟩ := hitems.1
    obtain ⟨z, hz, hrun⟩ := ih hchain.2.2 hitems.2 (Nat.lt_of_succ_lt_succ hfuel)
    refine ⟨z, by rw [List.getLast?_cons_cons, hz], ?_⟩
    rw [last, bind_of_ok (getNext_of hcell), hchain.2.1]
    exact hrun

/-- The new item is linked from the one before it, or from the array. -/
lemma linkFrom_of {array c i : ℕ} (harray : m.IsItem array) (hitems : ∀ x ∈ xs, m.IsItem x)
    (hfirst : m.child array = (xs ++ c :: ys).head?) (hc : c ∉ xs) :
    ∃ child', linkFrom array ((xs ++ c :: ys).head? = some c) xs.getLast? i m =
        .ok ((), { m with links := m.links.setNext xs.getLast? (some i), child := child' }) ∧
      (∀ zs, child' array = (xs ++ i :: zs).head?) ∧ ∀ b, b ≠ array → child' b = m.child b := by
  unfold linkFrom
  cases xs with
  | nil =>
    obtain ⟨body, hcell⟩ := harray
    refine ⟨Function.update m.child array (some i), ?_, fun _ => Function.update_self _ _ _,
      fun b hb => Function.update_of_ne hb _ _⟩
    rw [if_pos (by simp)]
    exact setChild_of hcell (some i)
  | cons x xs =>
    have hne : ¬ (x :: xs ++ c :: ys).head? = some c := fun heq =>
      hc (Option.some.inj heq ▸ List.mem_cons_self)
    refine ⟨m.child, ?_, fun _ => hfirst, fun _ _ => rfl⟩
    rw [if_neg (by simpa using hne), List.getLast?_cons]
    obtain ⟨body, hcell⟩ := hitems (xs.getLast?.getD x) (by
      cases hlast : xs.getLast? with
      | none => exact List.mem_cons_self
      | some y => exact List.mem_cons_of_mem x (List.mem_of_getLast? hlast))
    exact setNext_of hcell (some i)

end Lists

end IpncRdk.CJson
