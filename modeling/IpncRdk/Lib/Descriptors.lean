import Mathlib.Data.Finset.Insert
import Mathlib.Data.Finset.Lattice.Fold
import Mathlib.Data.Fintype.EquivFin
import IpncRdk.Lib.Fallible

/-!
# The open descriptors of a process

The table of a process is the set of its open descriptors. A call that opens one takes the lowest
number that is free.

* `lowestFree` — that number;
* `pipe`, `close`, `closePair` — the system calls, with the outcomes that they can have;
* `Opens` — a table with two new descriptors, and nothing else that has changed;
* the rules of the calls for `Fallible.Ends`.
-/

namespace IpncRdk.Lib

open Fallible

/-- The lowest number that is not in the table. -/
def lowestFree (t : Finset ℕ) : ℕ := Nat.find (Infinite.exists_notMem_finset t)

section LowestFree
variable {t : Finset ℕ} {n : ℕ}

lemma lowestFree_notMem (t : Finset ℕ) : lowestFree t ∉ t :=
  Nat.find_spec (Infinite.exists_notMem_finset t)

lemma mem_of_lt_lowestFree (h : n < lowestFree t) : n ∈ t := by
  by_contra hn
  exact Nat.find_min (Infinite.exists_notMem_finset t) h hn

lemma lowestFree_le (hn : n ∉ t) : lowestFree t ≤ n :=
  Nat.find_min' (Infinite.exists_notMem_finset t) hn

/-- The number is at least `n` exactly if all below `n` are taken. -/
lemma le_lowestFree_iff : n ≤ lowestFree t ↔ ∀ m < n, m ∈ t := by
  constructor
  · intro h m hm
    exact mem_of_lt_lowestFree (lt_of_lt_of_le hm h)
  · intro h
    by_contra hlt
    exact lowestFree_notMem t (h _ (not_le.mp hlt))

/-- Numbers are given out upwards. -/
lemma lowestFree_lt_insert (t : Finset ℕ) :
    lowestFree t < lowestFree (insert (lowestFree t) t) := by
  refine lt_of_le_of_ne ?_ fun h => ?_
  · exact le_lowestFree_iff.mpr fun m hm => Finset.mem_insert_of_mem (mem_of_lt_lowestFree hm)
  · exact lowestFree_notMem (insert (lowestFree t) t) (h ▸ Finset.mem_insert_self _ _)

end LowestFree

/-! ## The system calls -/

/-- The outcome of a `close`. One that fails may have released the descriptor or not. -/
inductive Close
  | closed
  | failed (released : Bool)
  deriving DecidableEq, Repr

/-- `pipe`: the ends for reading and for writing. One that fails opens nothing. -/
def pipe (ok : Bool) : Fallible (Finset ℕ) (ℕ × ℕ) := do
  check ok
  let t ← get
  let readEnd := lowestFree t
  let writeEnd := lowestFree (insert readEnd t)
  set (insert writeEnd (insert readEnd t))
  pure (readEnd, writeEnd)

/-- `close` -/
def close (fd : ℕ) : Close → Fallible (Finset ℕ) Unit
  | .closed => modify fun t => t.erase fd
  | .failed released => do
    modify fun t => if released then t.erase fd else t
    failure

/-- Both ends of a pipe are closed, the end for reading first. -/
def closePair (pfd : ℕ × ℕ) (c : Close × Close) : Fallible (Finset ℕ) Unit := do
  close pfd.1 c.1
  close pfd.2 c.2

/-- Two descriptors that were free are open, and nothing else has changed. -/
structure Opens (t : Finset ℕ) (pfd : ℕ × ℕ) (t' : Finset ℕ) : Prop where
  fst : pfd.1 ∉ t
  snd : pfd.2 ∉ t
  lt : pfd.1 < pfd.2
  table : t' = insert pfd.2 (insert pfd.1 t)

section Rules
variable {t u v : Finset ℕ} {pfd pfd' : ℕ × ℕ} {R : Finset ℕ → Prop}

/-- A pipe takes the two lowest numbers. -/
lemma ends_pipe {ok : Bool} {Q : ℕ × ℕ → Finset ℕ → Prop}
    (hok : ok = true → ∀ pfd u, Opens t pfd u → pfd.1 = lowestFree t →
      pfd.2 = lowestFree (insert pfd.1 t) → Q pfd u)
    (hfail : ok = false → R t) : Ends (pipe ok) t Q R := by
  refine ends_bind.mpr (ends_check (fun h => ?_) hfail)
  refine hok h _ _ ⟨lowestFree_notMem t, fun hmem => ?_, lowestFree_lt_insert t, rfl⟩ rfl rfl
  exact lowestFree_notMem _ (Finset.mem_insert_of_mem hmem)

/-- A `close` leaves all other descriptors. -/
lemma ends_close {fd : ℕ} {c : Close} {Q : Unit → Finset ℕ → Prop}
    (hok : c = .closed → Q () (t.erase fd))
    (hfail : c ≠ .closed → ∀ u, t.erase fd ⊆ u → u ⊆ t → R u) : Ends (close fd c) t Q R := by
  cases c with
  | closed => exact hok rfl
  | failed released =>
    refine hfail (fun h => by cases h) (if released then t.erase fd else t) ?_ ?_
    · split
      · exact subset_rfl
      · exact Finset.erase_subset fd t
    · split
      · exact Finset.erase_subset fd t
      · exact subset_rfl

lemma Opens.subset (h : Opens t pfd u) : t ⊆ u := by
  rw [h.table]
  exact (Finset.subset_insert _ _).trans (Finset.subset_insert _ _)

/-- A table that has the new descriptors is not the old one. -/
lemma Opens.ne (h : Opens t pfd u) (huv : u ⊆ v) : v ≠ t := by
  intro hvt
  refine h.fst (hvt ▸ huv ?_)
  rw [h.table]
  exact Finset.mem_insert_of_mem (Finset.mem_insert_self _ _)

/-- Closing both ends undoes the opening. -/
lemma Opens.erase (h : Opens t pfd u) : (u.erase pfd.1).erase pfd.2 = t := by
  rw [h.table, Finset.erase_right_comm, Finset.erase_insert, Finset.erase_insert h.fst]
  rw [Finset.mem_insert]
  rintro (heq | hmem)
  · exact absurd h.lt (by omega)
  · exact h.snd hmem

lemma Opens.subset_erase (h : Opens t pfd u) (huv : u ⊆ v) :
    t ⊆ (v.erase pfd.1).erase pfd.2 := by
  rw [← h.erase]
  exact Finset.erase_subset_erase _ (Finset.erase_subset_erase _ huv)

/-- Whatever becomes of the two calls, all other descriptors stay. -/
lemma ends_closePair {c : Close × Close} {Q : Unit → Finset ℕ → Prop}
    (hok : c = (.closed, .closed) → Q () ((t.erase pfd.1).erase pfd.2))
    (hfail : c ≠ (.closed, .closed) → ∀ u, (t.erase pfd.1).erase pfd.2 ⊆ u → R u) :
    Ends (closePair pfd c) t Q R := by
  refine ends_bind.mpr (ends_close (fun hfst => ?_) fun hfst u hu _ => ?_)
  · refine ends_close (fun hsnd => ?_) fun hsnd u hu _ => ?_
    · exact hok (Prod.ext hfst hsnd)
    · exact hfail (fun hc => hsnd (congrArg Prod.snd hc)) u hu
  · exact hfail (fun hc => hfst (congrArg Prod.fst hc)) u ((Finset.erase_subset _ _).trans hu)

/-- Of two pipes, closing the first leaves the second. -/
lemma Opens.erase_older (h : Opens t pfd u) (h' : Opens u pfd' v) :
    Opens t pfd' ((v.erase pfd.1).erase pfd.2) := by
  have hfst := h'.fst
  have hsnd := h'.snd
  rw [h.table] at hfst hsnd
  simp only [Finset.mem_insert, not_or] at hfst hsnd
  refine ⟨hfst.2.2, hsnd.2.2, h'.lt, ?_⟩
  calc (v.erase pfd.1).erase pfd.2
      = insert pfd'.2 (insert pfd'.1 ((u.erase pfd.1).erase pfd.2)) := by
        rw [h'.table, Finset.erase_insert_of_ne hsnd.2.1, Finset.erase_insert_of_ne hfst.2.1,
          Finset.erase_insert_of_ne hsnd.1, Finset.erase_insert_of_ne hfst.1]
    _ = insert pfd'.2 (insert pfd'.1 t) := by rw [h.erase]

end Rules

end IpncRdk.Lib
