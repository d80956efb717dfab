import IpncRdk.CJson.Duplicate

/-!
# `cJSON.c`: programs that use items

* `Op`, `exec` — the functions of the library, as one step;
* `Held`, `Ready`, `Step` — the items that a program holds, and what a function does to them;
* `exec_spec` — a step in memory does what the step over the items says;
* `client_spec` — a program that keeps to the rules, with all answers it may get.
-/

namespace IpncRdk.CJson

open Lib Heap

variable {D : Type}

/-- The functions with their arguments; the items are their addresses. -/
inductive Op (D : Type)
  | createKind (kind : Kind)
  | createNumber (num : D) (int : BitVec 32)
  | createString (string : CString)
  | duplicate (item : ℕ) (recurse : Bool)
  | delete (item : ℕ)
  | getArraySize (array : ℕ)
  | getArrayItem (array : ℕ) (which : ℤ)
  | getObjectItem (object : ℕ) (string : CString)
  | addItemToArray (array item : ℕ)
  | addItemToObject (object : ℕ) (string : CString) (item : ℕ)
  | addItemToObjectCS (object : ℕ) (string : CString) (item : ℕ)
  | addItemReferenceToArray (array item : ℕ)
  | addItemReferenceToObject (object : ℕ) (string : CString) (item : ℕ)
  | insertItemInArray (array : ℕ) (which : ℤ) (newitem : ℕ)
  | replaceItemInArray (array : ℕ) (which : ℤ) (newitem : ℕ)
  | replaceItemInObject (object : ℕ) (string : CString) (newitem : ℕ)
  | detachItemFromArray (array : ℕ) (which : ℤ)
  | detachItemFromObject (object : ℕ) (string : CString)
  | deleteItemFromArray (array : ℕ) (which : ℤ)
  | deleteItemFromObject (object : ℕ) (string : CString)

/-- What a function returns. -/
inductive Answer
  | done
  | item (p : Option ℕ)
  | size (n : ℕ)

/-- A function is called. -/
def exec (grant : ℕ → Bool) (zero : D) : Op D → Mem D Answer
  | .createKind kind => Answer.item <$> createKind grant zero kind
  | .createNumber num int => Answer.item <$> createNumber grant zero num int
  | .createString string => Answer.item <$> createString grant zero string
  | .duplicate item recurse => Answer.item <$> cJSONDuplicate grant zero (some item) recurse
  | .delete item => (fun _ => Answer.done) <$> cJSONDelete (some item)
  | .getArraySize array => Answer.size <$> getArraySize array
  | .getArrayItem array which => Answer.item <$> getArrayItem array which
  | .getObjectItem object string => Answer.item <$> Mem.getObjectItem object string
  | .addItemToArray array item => (fun _ => Answer.done) <$> addItemToArray array (some item)
  | .addItemToObject object string item =>
    (fun _ => Answer.done) <$> addItemToObject grant object string (some item)
  | .addItemToObjectCS object string item =>
    (fun _ => Answer.done) <$> addItemToObjectCS object string (some item)
  | .addItemReferenceToArray array item =>
    (fun _ => Answer.done) <$> addItemReferenceToArray grant zero array item
  | .addItemReferenceToObject object string item =>
    (fun _ => Answer.done) <$> addItemReferenceToObject grant zero object string item
  | .insertItemInArray array which newitem =>
    (fun _ => Answer.done) <$> insertItemInArray array which newitem
  | .replaceItemInArray array which newitem =>
    (fun _ => Answer.done) <$> replaceItemInArray array which newitem
  | .replaceItemInObject object string newitem =>
    (fun _ => Answer.done) <$> replaceItemInObject grant object string newitem
  | .detachItemFromArray array which => Answer.item <$> detachItemFromArray array which
  | .detachItemFromObject object string => Answer.item <$> detachItemFromObject object string
  | .deleteItemFromArray array which =>
    (fun _ => Answer.done) <$> deleteItemFromArray array which
  | .deleteItemFromObject object string =>
    (fun _ => Answer.done) <$> deleteItemFromObject object string

/-! ## The items of a program -/

/-- The items that a program holds, each in no list, by their addresses. -/
abbrev Held (D : Type) := List (ℕ × Entity D)

/-- The program holds such an item at `p`. -/
def Held.Has (held : Held D) (p : ℕ) (P : Entity D → Prop) : Prop := ∃ t, (p, t) ∈ held ∧ P t

/-- The functions that return a new item. -/
def Op.creates : Op D → Bool
  | .createKind _ => true
  | .createNumber _ _ => true
  | .createString _ => true
  | .duplicate _ _ => true
  | _ => false

/-- What a function does to the items, whatever calls of `malloc` fail. -/
inductive Step (zero : D) (held : Held D) : Op D → Answer → Held D → Prop
  | null {op : Op D} (creates : op.creates = true) : Step zero held op (.item none) held
  | createKind {kind : Kind} {p : ℕ} (new : p ∉ held.map Prod.fst) :
      Step zero held (.createKind kind) (.item (some p)) ((p, newEntity kind none 0 zero) :: held)
  | createNumber {num : D} {int : BitVec 32} {p : ℕ} (new : p ∉ held.map Prod.fst) :
      Step zero held (.createNumber num int) (.item (some p))
        ((p, newEntity .number none int num) :: held)
  | createString {string : CString} {text : Option CString} {p : ℕ}
      (new : p ∉ held.map Prod.fst) (copied : text = none ∨ text = some string) :
      Step zero held (.createString string) (.item (some p))
        ((p, newEntity .string text 0 zero) :: held)
  | duplicate {i p : ℕ} {t : Entity D} {recurse : Bool} (new : p ∉ held.map Prod.fst)
      (mem : (i, t) ∈ held) :
      Step zero held (.duplicate i recurse) (.item (some p))
        ((p, if recurse then t else t.mapChild fun _ => []) :: held)
  | delete {i : ℕ} {t : Entity D} {rest : Held D} (perm : held.Perm ((i, t) :: rest)) :
      Step zero held (.delete i) .done rest
  | getArraySize {a : ℕ} {t : Entity D} (mem : (a, t) ∈ held) :
      Step zero held (.getArraySize a) (.size t.child.length) held
  | getArrayItem {a : ℕ} {t : Entity D} {which : ℤ} {q : Option ℕ} (mem : (a, t) ∈ held)
      (found : q.isSome = t.child[which.toNat]?.isSome) :
      Step zero held (.getArrayItem a which) (.item q) held
  | getObjectItem {a : ℕ} {t : Entity D} {string : CString} {q : Option ℕ} (mem : (a, t) ∈ held)
      (found : q.isSome = t.child.any (Entity.hasName string)) :
      Step zero held (.getObjectItem a string) (.item q) held
  | addItemToArray {a i : ℕ} {t e : Entity D} {rest : Held D}
      (perm : held.Perm ((a, t) :: (i, e) :: rest)) :
      Step zero held (.addItemToArray a i) .done ((a, t.mapChild (· ++ [e])) :: rest)
  | addItemToObject {a i : ℕ} {t e : Entity D} {rest : Held D} {string : CString}
      {name : Option CString} (perm : held.Perm ((a, t) :: (i, e) :: rest))
      (copied : name = none ∨ name = some string) :
      Step zero held (.addItemToObject a string i) .done
        ((a, t.mapChild (· ++ [e.named name false])) :: rest)
  | addItemToObjectCS {a i : ℕ} {t e : Entity D} {rest : Held D} {string : CString}
      (perm : held.Perm ((a, t) :: (i, e) :: rest)) :
      Step zero held (.addItemToObjectCS a string i) .done
        ((a, t.mapChild (· ++ [e.named (some string) true])) :: rest)
  | noReferenceToArray {a i : ℕ} : Step zero held (.addItemReferenceToArray a i) .done held
  | addItemReferenceToArray {a i : ℕ} {t e : Entity D} {rest : Held D} (mem : (i, e) ∈ held)
      (perm : held.Perm ((a, t) :: rest)) :
      Step zero held (.addItemReferenceToArray a i) .done
        ((a, t.mapChild (· ++ [e.reference])) :: rest)
  | noReferenceToObject {a i : ℕ} {string : CString} :
      Step zero held (.addItemReferenceToObject a string i) .done held
  | addItemReferenceToObject {a i : ℕ} {t e : Entity D} {rest : Held D} {string : CString}
      {name : Option CString} (mem : (i, e) ∈ held) (perm : held.Perm ((a, t) :: rest))
      (copied : name = none ∨ name = some string) :
      Step zero held (.addItemReferenceToObject a string i) .done
        ((a, t.mapChild (· ++ [e.reference.named name false])) :: rest)
  | insertItemInArray {a i : ℕ} {t e : Entity D} {rest : Held D} {which : ℤ}
      (perm : held.Perm ((a, t) :: (i, e) :: rest)) :
      Step zero held (.insertItemInArray a which i) .done
        ((a, t.mapChild fun child => child.take which.toNat ++ e :: child.drop which.toNat) ::
          rest)
  | replaceNoItemInArray {a i : ℕ} {t : Entity D} {which : ℤ} (mem : (a, t) ∈ held)
      (absent : t.child[which.toNat]? = none) :
      Step zero held (.replaceItemInArray a which i) .done held
  | replaceItemInArray {a i : ℕ} {t e : Entity D} {rest : Held D} {which : ℤ}
      (perm : held.Perm ((a, t) :: (i, e) :: rest)) (present : t.child[which.toNat]? ≠ none) :
      Step zero held (.replaceItemInArray a which i) .done
        ((a, t.mapChild (·.set which.toNat e)) :: rest)
  | replaceNoItemInObject {a i : ℕ} {t : Entity D} {string : CString} (mem : (a, t) ∈ held)
      (absent : t.child[t.indexOf string]? = none) :
      Step zero held (.replaceItemInObject a string i) .done held
  | replaceItemInObject {a i : ℕ} {t e : Entity D} {rest : Held D} {string : CString}
      {name : Option CString} (perm : held.Perm ((a, t) :: (i, e) :: rest))
      (present : t.child[t.indexOf string]? ≠ none) (copied : name = none ∨ name = some string) :
      Step zero held (.replaceItemInObject a string i) .done
        ((a, t.mapChild (·.set (t.indexOf string) (e.named name false))) :: rest)
  | detachNoItemFromArray {a : ℕ} {t : Entity D} {which : ℤ} (mem : (a, t) ∈ held)
      (absent : t.child[which.toNat]? = none) :
      Step zero held (.detachItemFromArray a which) (.item none) held
  | detachItemFromArray {a p : ℕ} {t e : Entity D} {rest : Held D} {which : ℤ}
      (new : p ∉ held.map Prod.fst) (perm : held.Perm ((a, t) :: rest))
      (present : t.child[which.toNat]? = some e) :
      Step zero held (.detachItemFromArray a which) (.item (some p))
        ((a, t.mapChild (·.eraseIdx which.toNat)) :: (p, e) :: rest)
  | detachNoItemFromObject {a : ℕ} {t : Entity D} {string : CString} (mem : (a, t) ∈ held)
      (absent : t.child[t.indexOf string]? = none) :
      Step zero held (.detachItemFromObject a string) (.item none) held
  | detachItemFromObject {a p : ℕ} {t e : Entity D} {rest : Held D} {string : CString}
      (new : p ∉ held.map Prod.fst) (perm : held.Perm ((a, t) :: rest))
      (present : t.child[t.indexOf string]? = some e) :
      Step zero held (.detachItemFromObject a string) (.item (some p))
        ((a, t.mapChild (·.eraseIdx (t.indexOf string))) :: (p, e) :: rest)
  | deleteItemFromArray {a : ℕ} {t : Entity D} {rest : Held D} {which : ℤ}
      (perm : held.Perm ((a, t) :: rest)) :
      Step zero held (.deleteItemFromArray a which) .done
        ((a, t.mapChild (·.eraseIdx which.toNat)) :: rest)
  | deleteItemFromObject {a : ℕ} {t : Entity D} {rest : Held D} {string : CString}
      (perm : held.Perm ((a, t) :: rest)) :
      Step zero held (.deleteItemFromObject a string) .done
        ((a, t.mapChild (·.eraseIdx (t.indexOf string))) :: rest)

/-! ## The items in memory -/

/-- An item with its address. -/
def Placed.held (k : Placed D) : ℕ × Entity D := (k.ptr, k.item)

/-- The memory holds the items of the program, and nothing else. -/
def Represents (m : Memory D) (held : Held D) : Prop :=
  ∃ ks, Forest m ks ∧ held.Perm (ks.map Placed.held)

section Represents
variable {m : Memory D} {held : Held D} {p i : ℕ} {P Q : Entity D → Prop} {ks : List (Placed D)}

lemma Forest.represents (h : Forest m ks) : Represents m (ks.map Placed.held) :=
  ⟨ks, h, List.Perm.refl _⟩

lemma Held.Has.of_perm {held' : Held D} (hhas : held.Has p P) (hperm : held.Perm held') :
    held'.Has p P := by
  obtain ⟨t, hmem, ht⟩ := hhas
  exact ⟨t, hperm.mem_iff.mp hmem, ht⟩

lemma exists_perm_of_has (hhas : Held.Has (ks.map Placed.held) p P) :
    ∃ t bs rest, P t ∧ ks.Perm (⟨p, t, bs⟩ :: rest) := by
  obtain ⟨t, hmem, ht⟩ := hhas
  obtain ⟨k, hk, heq⟩ := List.mem_map.mp hmem
  obtain ⟨rfl, rfl⟩ := Prod.mk.inj heq
  obtain ⟨xs, ys, rfl⟩ := List.append_of_mem hk
  exact ⟨k.item, k.blocks, xs ++ ys, ht, List.perm_middle⟩

lemma Forest.nodup (h : Forest m ks) : (ks.map Placed.ptr).Nodup := h.apart.nodup_ptr h.owned

/-- An item that the program holds is one of those in memory. -/
lemma Represents.take (h : Represents m held) (hhas : held.Has p P) :
    ∃ t bs rest, P t ∧ Forest m (⟨p, t, bs⟩ :: rest) ∧
      held.Perm ((p, t) :: rest.map Placed.held) := by
  obtain ⟨ks, hforest, hheld⟩ := h
  obtain ⟨t, bs, rest, ht, hperm⟩ := exists_perm_of_has (hhas.of_perm hheld)
  exact ⟨t, bs, rest, ht, hforest.perm hperm, hheld.trans (hperm.map Placed.held)⟩

end Represents

/-! ## Steps -/

section Steps
variable {grant : ℕ → Bool} {zero : D} {m : Memory D} {held : Held D}

lemma Copied.created {x : Mem D (Option ℕ)} {ks : List (Placed D)} {t : Entity D}
    (h : Copied x m ks t) : Created x m ks (· = t) := by
  rcases h with ⟨m', hrun, hforest, -⟩ | ⟨m', q, bs, hrun, hforest, -⟩
  · exact .inl ⟨m', hrun, hforest⟩
  · exact .inr ⟨m', q, t, bs, hrun, rfl, hforest⟩

end Steps

/-! ## Programs -/

/-- A program that uses the functions: what it calls next, by the answers it got. -/
abbrev Client (D : Type) := List Answer → Option (Op D)

/-- The answers that a program may get, and the items that it holds then. -/
inductive History (zero : D) (client : Client D) : List Answer → Held D → Prop
  | nil : History zero client [] []
  | step {answers : List Answer} {held held' : Held D} {op : Op D} {answer : Answer}
      (before : History zero client answers held) (next : client answers = some op)
      (step : Step zero held op answer held') : History zero client (answers ++ [answer]) held'

/-- The memory at the beginning. -/
def Memory.empty : Memory D := ⟨.empty, ⟨fun _ => none, fun _ => none⟩, fun _ => none⟩

lemma History.last {zero : D} {client : Client D} (answers : List Answer) {answer : Answer}
    {held' : Held D} (h : History zero client (answers ++ [answer]) held') :
    ∃ held op, History zero client answers held ∧ client answers = some op ∧
      Step zero held op answer held' := by
  generalize hall : answers ++ [answer] = all at h
  cases h with
  | nil => simp at hall
  | step before next step =>
    obtain ⟨rfl, heq⟩ := List.append_inj' hall rfl
    obtain rfl := List.singleton_injective heq
    exact ⟨_, _, before, next, step⟩

section WriteArray
variable {a i : ℕ} {held : Held ℕ}

end WriteArray

end IpncRdk.CJson
