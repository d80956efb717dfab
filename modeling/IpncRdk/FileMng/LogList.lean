import IpncRdk.Lib.LinkedRing
import IpncRdk.Lib.Run
import Mathlib.Data.Finset.Basic

/-!
# `file_mng.c`: the list of log records

Threads append records to `gLogList`, and the file thread goes through it again and again, hands
each record to a callback and deletes its node. `list_add_tail` and `list_del` are done under a
lock; the traversal reads the pointers of the list outside of it.

* `State` — the nodes of the heap, and where the traversal is;
* `addListNode`, `listDel` — the operations under the lock;
* `foreach` — the next step of `list_foreach`;
* `step` — a step of the system.
-/

namespace IpncRdk.FileMng

open Lib

/-- `logListNode`, without its pointers. -/
structure LogListNode where
  id : ℤ
  text : List UInt8
  timeTamp : ℕ
  deriving DecidableEq

/-- `&gLogList` -/
abbrev gLogList : ℕ := 0

/-- Where `list_foreach` is, with the values of `entry` and `pos`. -/
inductive Pc
  /-- outside of `list_foreach` -/
  | idle
  /-- before `pos = entry->next` -/
  | readNext (entry : ℕ)
  /-- before the test of the loop -/
  | test (entry pos : ℕ)
  | callback (entry pos : ℕ)
  | del (entry pos : ℕ)
  | free (entry pos : ℕ)
  /-- before `entry = pos` -/
  | advance (pos : ℕ)
  deriving DecidableEq

/-- The heap, with the addresses of the nodes that are allocated, and the traversal. `appended` and
`passed` are the records given to `addListNode` and to the callback so far. -/
structure State where
  links : Links ℕ
  live : Finset ℕ
  node : ℕ → LogListNode
  pc : Pc
  appended : List LogListNode
  passed : List LogListNode

/-- `LIST_HEAD(gLogList)`, before any record. -/
def init : State where
  links := ⟨fun _ => some gLogList, fun _ => some gLogList⟩
  live := ∅
  node := fun _ => ⟨0, [], 0⟩
  pc := .idle
  appended := []
  passed := []

/-- The address can be read. -/
def State.Valid (s : State) (x : ℕ) : Prop := x = gLogList ∨ x ∈ s.live

instance (s : State) (x : ℕ) : Decidable (s.Valid x) := inferInstanceAs (Decidable (_ ∨ _))

/-- `addListNode`, for a node that `calloc` has given: `__list_add(cur, head->prev, head)`. -/
def addListNode (s : State) (cur : ℕ) : Option State :=
  match s.links.prev gLogList with
  | none => none
  | some prev =>
    if s.Valid prev then some { s with links := s.links.insert cur prev gLogList } else none

/-- `list_del` -/
def listDel (s : State) (entry : ℕ) : Option State :=
  if s.Valid entry then
    match s.links.prev entry, s.links.next entry with
    | some prev, some next =>
      if s.Valid prev ∧ s.Valid next then
        some { s with links := (s.links.unlink prev next).clear entry }
      else none
    | _, _ => none
  else none

/-- The next step of `list_foreach`; a pointer to a node that is freed is not followed. -/
def foreach (s : State) : Option State :=
  match s.pc with
  | .idle => (s.links.next gLogList).map fun entry => { s with pc := .readNext entry }
  | .readNext entry =>
    if s.Valid entry then (s.links.next entry).map fun pos => { s with pc := .test entry pos }
    else none
  | .test entry pos =>
    if entry ≠ gLogList then some { s with pc := .callback entry pos }
    else some { s with pc := .idle }
  | .callback entry pos =>
    if entry ∈ s.live then
      some { s with pc := .del entry pos, passed := s.passed ++ [s.node entry] }
    else none
  | .del entry pos => (listDel s entry).map fun s => { s with pc := .free entry pos }
  | .free entry pos =>
    if entry ∈ s.live then some { s with live := s.live.erase entry, pc := .advance pos } else none
  | .advance pos => some { s with pc := .readNext pos }

/-- A step: a thread appends a record, in a node at an address that is not in use, or the
traversal goes on. -/
inductive Event
  | add (cur : ℕ) (record : LogListNode)
  | foreach
  deriving DecidableEq

/-- The node of a record, filled and not yet in the list. -/
def State.alloc (s : State) (cur : ℕ) (record : LogListNode) : State :=
  { s with live := insert cur s.live, node := Function.update s.node cur record,
           appended := s.appended ++ [record] }

def step (s : State) : Event → Option State
  | .add cur record => if s.Valid cur then none else addListNode (s.alloc cur record) cur
  | .foreach => FileMng.foreach s

end IpncRdk.FileMng
