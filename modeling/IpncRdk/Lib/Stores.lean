import Mathlib.Data.List.Basic
import Mathlib.Logic.Function.Basic

/-!
# Stores in their order

A memory is a function from places, and a loop that stores one value after another leaves a memory
that holds the last value of each place.

* `stores` — the memory after some stores;
* `block` — the stores of a loop over rows and columns;
* `stores_block`, `stores_block_of_ne` — what such a loop leaves where no two of its places are
  the same.
-/

namespace IpncRdk.Lib

variable {ι β : Type} [DecidableEq ι]

/-- The memory after some stores, each a place and a value. -/
def stores (mem : ι → β) (ws : List (ι × β)) : ι → β :=
  ws.foldl (fun mem w => Function.update mem w.1 w.2) mem

section Stores
variable {mem : ι → β} {ws : List (ι × β)} {i : ι} {b : β}

lemma stores_append (mem : ι → β) (ws ws' : List (ι × β)) :
    stores mem (ws ++ ws') = stores (stores mem ws) ws' := List.foldl_append

/-- A place that nothing is stored at. -/
lemma stores_of_forall_ne (h : ∀ w ∈ ws, w.1 ≠ i) : stores mem ws i = mem i := by
  induction ws generalizing mem with
  | nil => rfl
  | cons w ws ih =>
    have hlater : ∀ w' ∈ ws, w'.1 ≠ i := fun w' hw' => h w' (List.mem_cons_of_mem w hw')
    exact (ih hlater).trans (Function.update_of_ne (h w List.mem_cons_self).symm _ _)

/-- A place that only one value is stored at, be it more than once. -/
lemma stores_of_mem (hmem : (i, b) ∈ ws) (hsame : ∀ w ∈ ws, w.1 = i → w.2 = b) :
    stores mem ws i = b := by
  induction ws generalizing mem with
  | nil => cases hmem
  | cons w ws ih =>
    have hsame' : ∀ w' ∈ ws, w'.1 = i → w'.2 = b := fun w' hw' =>
      hsame w' (List.mem_cons_of_mem w hw')
    by_cases hlater : (i, b) ∈ ws
    · exact ih hlater hsame'
    · have hnone : ∀ w' ∈ ws, w'.1 ≠ i := by
        rintro ⟨j, c⟩ hw' rfl
        obtain rfl : c = b := hsame' _ hw' rfl
        exact hlater hw'
      obtain rfl : (i, b) = w := (List.mem_cons.mp hmem).resolve_right hlater
      exact (stores_of_forall_ne hnone).trans (Function.update_self i b mem)

end Stores

/-! ## Rows and columns -/

/-- The stores of a loop over `h` rows of `w` columns. -/
def block (place : ℕ → ℕ → ι) (value : ℕ → ℕ → β) (h w : ℕ) : List (ι × β) :=
  (List.range h).flatMap fun i => (List.range w).map fun j => (place i j, value i j)

section Block
variable {place : ℕ → ℕ → ι} {value : ℕ → ℕ → β} {h w : ℕ} {mem : ι → β}

omit [DecidableEq ι] in
/-- One more row. -/
lemma block_succ (place : ℕ → ℕ → ι) (value : ℕ → ℕ → β) (h w : ℕ) :
    block place value (h + 1) w =
      block place value h w ++ (List.range w).map fun j => (place h j, value h j) := by
  unfold block
  rw [List.range_succ, List.flatMap_append, List.flatMap_singleton]

omit [DecidableEq ι] in
lemma mem_block {s : ι × β} :
    s ∈ block place value h w ↔ ∃ i < h, ∃ j < w, s = (place i j, value i j) := by
  unfold block
  simp only [List.mem_flatMap, List.mem_map, List.mem_range, eq_comm]

/-- A loop over rows and columns. -/
lemma foldl_block (place : ℕ → ℕ → ι) (value : ℕ → ℕ → β) (h w : ℕ) (mem : ι → β) :
    (List.range h).foldl (fun mem i => (List.range w).foldl (fun mem j =>
      Function.update mem (place i j) (value i j)) mem) mem =
      stores mem (block place value h w) := by
  unfold stores block
  rw [List.foldl_flatMap]
  simp only [List.foldl_map]

/-- What it stores, where no two of its places are the same. -/
lemma stores_block (hinj : ∀ i < h, ∀ j < w, ∀ i' < h, ∀ j' < w,
      place i j = place i' j' → i = i' ∧ j = j') {i j : ℕ} (hi : i < h) (hj : j < w) :
    stores mem (block place value h w) (place i j) = value i j := by
  refine stores_of_mem (mem_block.mpr ⟨i, hi, j, hj, rfl⟩) fun s hs heq => ?_
  obtain ⟨i', hi', j', hj', rfl⟩ := mem_block.mp hs
  obtain ⟨rfl, rfl⟩ := hinj i' hi' j' hj' i hi j hj heq
  rfl

lemma stores_block_of_ne {k : ι} (hne : ∀ i < h, ∀ j < w, place i j ≠ k) :
    stores mem (block place value h w) k = mem k := by
  refine stores_of_forall_ne fun s hs => ?_
  obtain ⟨i, hi, j, hj, rfl⟩ := mem_block.mp hs
  exact hne i hi j hj

end Block

end IpncRdk.Lib
