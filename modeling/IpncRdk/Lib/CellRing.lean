import Mathlib.Data.List.Basic
import Mathlib.Data.Nat.ModEq
import Mathlib.Logic.Function.Basic

/-!
# A ring of cells as a bounded queue

A ring is written at one cursor and read at another, and both start over behind the last cell.

* `CellRing` — the cells, the cursors and the counters;
* `contents` — the cells in use, oldest first;
* `WellFormed` — the cursors are in place, and `count` cells apart;
* `contents_put`, `contents_get` — a put appends to the contents, a get takes their head.
-/

namespace IpncRdk.Lib

structure CellRing (α : Type*) where
  curRd : ℕ
  curWr : ℕ
  len : ℕ
  count : ℕ
  queue : ℕ → α

namespace CellRing

variable {α : Type*}

/-- The cells in use, oldest first. -/
def contents (r : CellRing α) : List α :=
  (List.range r.count).map fun k => r.queue ((r.curRd + k) % r.len)

/-- The ring after a write of the cell at the write cursor. -/
def put (r : CellRing α) (a : α) : CellRing α :=
  { r with
    queue := Function.update r.queue r.curWr a
    curWr := (r.curWr + 1) % r.len
    count := r.count + 1 }

/-- The ring without the cell at the read cursor. -/
def get (r : CellRing α) : CellRing α :=
  { r with curRd := (r.curRd + 1) % r.len, count := r.count - 1 }

/-- The cell at the read cursor. -/
def head (r : CellRing α) : α := r.queue r.curRd

/-- A ring that nothing has been put into. -/
def empty (len : ℕ) (queue : ℕ → α) : CellRing α := ⟨0, 0, len, 0, queue⟩

/-- The cursors lie within the ring and `count` cells apart. -/
structure WellFormed (r : CellRing α) : Prop where
  rd_lt : r.curRd < r.len
  count_le : r.count ≤ r.len
  wr_eq : r.curWr = (r.curRd + r.count) % r.len

@[simp] lemma length_contents (r : CellRing α) : r.contents.length = r.count := by
  simp [contents]

@[simp] lemma contents_empty (len : ℕ) (queue : ℕ → α) : (empty len queue).contents = [] := rfl

@[simp] lemma len_put (r : CellRing α) (a : α) : (r.put a).len = r.len := rfl

@[simp] lemma count_put (r : CellRing α) (a : α) : (r.put a).count = r.count + 1 := rfl

@[simp] lemma len_get (r : CellRing α) : r.get.len = r.len := rfl

@[simp] lemma count_get (r : CellRing α) : r.get.count = r.count - 1 := rfl

lemma WellFormed.empty {len : ℕ} (h : 0 < len) (queue : ℕ → α) :
    (CellRing.empty len queue).WellFormed where
  rd_lt := h
  count_le := Nat.zero_le _
  wr_eq := (Nat.zero_mod len).symm

section
variable {r : CellRing α}

lemma WellFormed.wr_lt (h : r.WellFormed) : r.curWr < r.len := by
  rw [h.wr_eq]
  exact Nat.mod_lt _ (Nat.zero_lt_of_lt h.rd_lt)

/-- Two cells less than a whole ring apart are different. -/
lemma mod_ne {len rd k n : ℕ} (hk : k < n) (hn : n < len) : (rd + k) % len ≠ (rd + n) % len := by
  intro h
  have hmod : k ≡ n [MOD len] := Nat.ModEq.add_left_cancel' rd h
  have := Nat.ModEq.eq_of_lt_of_lt hmod (hk.trans hn) hn
  omega

lemma WellFormed.put (h : r.WellFormed) (hroom : r.count < r.len) (a : α) :
    (r.put a).WellFormed where
  rd_lt := h.rd_lt
  count_le := hroom
  wr_eq := by
    show (r.curWr + 1) % r.len = (r.curRd + (r.count + 1)) % r.len
    rw [h.wr_eq, Nat.mod_add_mod, Nat.add_assoc]

/-- A put appends to the contents. -/
lemma contents_put (h : r.WellFormed) (hroom : r.count < r.len) (a : α) :
    (r.put a).contents = r.contents ++ [a] := by
  unfold contents
  rw [count_put, List.range_succ, List.map_append]
  congr 1
  · refine List.map_congr_left fun k hk => ?_
    have hk' : k < r.count := List.mem_range.mp hk
    -- the cell written is none of those in use
    have hne : (r.curRd + k) % r.len ≠ r.curWr := by
      rw [h.wr_eq]
      exact mod_ne hk' hroom
    exact Function.update_of_ne hne a r.queue
  · show [Function.update r.queue r.curWr a ((r.curRd + r.count) % r.len)] = [a]
    rw [← h.wr_eq, Function.update_self]

lemma WellFormed.get (h : r.WellFormed) (hne : 0 < r.count) : r.get.WellFormed where
  rd_lt := Nat.mod_lt _ (Nat.zero_lt_of_lt h.rd_lt)
  count_le := (Nat.sub_le _ _).trans h.count_le
  wr_eq := by
    show r.curWr = ((r.curRd + 1) % r.len + (r.count - 1)) % r.len
    rw [h.wr_eq, Nat.mod_add_mod]
    congr 1
    omega

/-- A get takes the head of the contents. -/
lemma contents_get (h : r.WellFormed) (hne : 0 < r.count) :
    r.contents = r.head :: r.get.contents := by
  obtain ⟨n, hn⟩ : ∃ n, r.count = n + 1 := ⟨r.count - 1, by omega⟩
  unfold contents
  rw [count_get, hn, List.range_succ_eq_map, List.map_cons, List.map_map]
  congr 1
  · show r.queue ((r.curRd + 0) % r.len) = r.queue r.curRd
    rw [Nat.add_zero, Nat.mod_eq_of_lt h.rd_lt]
  · refine List.map_congr_left fun k _ => ?_
    show r.queue ((r.curRd + (k + 1)) % r.len) = r.queue (((r.curRd + 1) % r.len + k) % r.len)
    rw [Nat.mod_add_mod, Nat.add_assoc, Nat.add_comm 1 k]

end

end CellRing

end IpncRdk.Lib
