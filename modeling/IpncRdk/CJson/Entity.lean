import IpncRdk.Lib.CString
import IpncRdk.CJson.Parse

/-!
# `cJSON.h`: items and their children

An item with the fields of `struct cJSON`; the chain from `child` over the `next` pointers is the
list of its children.

* `Kind`, `Fields`, `Entity` — the type of an item, its fields, and the item with its children;
* `Entity.rec_child` — induction over the children;
* `Entity.All` — a condition on an item and all below it;
* `Entity.item` — the item that the parser builds for the same value.
-/

namespace IpncRdk.CJson

open Lib

/-- The types of an item, `item->type & 255`. -/
inductive Kind
  | false
  | true
  | null
  | number
  | string
  | array
  | object
  deriving DecidableEq, Repr

/-- The fields of an item. `D` stands for `double`; the flags are those in `type`. -/
structure Fields (D : Type) where
  kind : Kind
  isReference : Bool
  stringIsConst : Bool
  valuestring : Option CString
  valueint : BitVec 32
  valuedouble : D
  string : Option CString

/-- An item and its children. -/
inductive Entity (D : Type)
  | node (fields : Fields D) (child : List (Entity D))

namespace Entity
variable {D : Type}

def fields : Entity D → Fields D
  | node fields _ => fields

def child : Entity D → List (Entity D)
  | node _ child => child

/-- Induction with the hypothesis for all children. -/
@[induction_eliminator, elab_as_elim]
theorem rec_child {motive : Entity D → Prop}
    (node : ∀ fields child, (∀ c ∈ child, motive c) → motive (.node fields child)) :
    ∀ t, motive t
  | .node fields child => node fields child fun c _ => rec_child node c

/-- A condition on an item and on all items below it. -/
inductive All (p : Fields D → List (Entity D) → Prop) : Entity D → Prop
  | node {fields : Fields D} {child : List (Entity D)} (here : p fields child)
      (below : ∀ c ∈ child, All p c) : All p (.node fields child)

lemma all_node_iff {p : Fields D → List (Entity D) → Prop} {fields : Fields D}
    {child : List (Entity D)} :
    All p (.node fields child) ↔ p fields child ∧ ∀ c ∈ child, All p c := by
  constructor
  · intro h
    cases h with
    | node here below => exact ⟨here, below⟩
  · exact fun h => .node h.1 h.2

/-- A weaker condition on every item. -/
lemma All.mono {p q : Fields D → List (Entity D) → Prop} (hpq : ∀ fields child, p fields child →
    q fields child) {t : Entity D} (ht : t.All p) : t.All q := by
  induction t with
  | node fields child ih =>
    obtain ⟨hhere, hbelow⟩ := all_node_iff.mp ht
    exact .node (hpq _ _ hhere) fun c hc => ih c hc (hbelow c hc)

/-! ## The parser's items -/

/-- The bytes of a string that may be `NULL`. -/
def bytesOf (s : Option CString) : List UInt8 := s.elim [] CString.bytes

mutual

/-- The item that the parser builds for the same value. -/
def item : Entity D → Item D
  | node fields child =>
    match fields.kind with
    | .false => .false
    | .true => .true
    | .null => .null
    | .number => .number fields.valuedouble fields.valueint.toInt
    | .string => .string (bytesOf fields.valuestring)
    | .array => .array (items child)
    | .object => .object (members child)

def items : List (Entity D) → List (Item D)
  | [] => []
  | c :: child => c.item :: items child

def members : List (Entity D) → List (List UInt8 × Item D)
  | [] => []
  | c :: child => (bytesOf c.fields.string, c.item) :: members child

end

end Entity

end IpncRdk.CJson
