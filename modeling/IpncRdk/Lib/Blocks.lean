import Mathlib.Data.Finset.Basic
import Mathlib.Logic.Function.Basic

/-!
# Memory in blocks

Code that gets its memory from an allocator. Blocks have numbers that are given out once, and a
call of the allocator may be refused.

* `malloc`, `free`, `load`, `store` — the accesses; a block that is not allocated is `dangling`;
* `Granted` — no call of the allocator was refused;
* `Heap.Adds` — what a piece of code leaves behind: some new blocks, and the old ones as they
  were.
-/

namespace IpncRdk.Lib

/-- What stops code that uses an allocator. -/
inductive HeapFault
  | overrun
  | overflow
  | dangling
  | nullDeref
  | diverges
  deriving DecidableEq, Repr

/-- The allocated blocks and what they hold; blocks from `calls` on were never given out. -/
structure Heap (α : Type) where
  cell : ℕ → Option α
  calls : ℕ
  unused : ∀ b, calls ≤ b → cell b = none

abbrev Alloc (α : Type) := StateT (Heap α) (Except HeapFault)

namespace Heap

variable {α β γ : Type}

def empty : Heap α := ⟨fun _ => none, 0, fun _ _ => rfl⟩

/-- The heap with a new block. -/
def push (h : Heap α) (a : α) : Heap α where
  cell := Function.update h.cell h.calls (some a)
  calls := h.calls + 1
  unused b hb := by
    rw [Function.update_of_ne (by omega), h.unused b (by omega)]

/-- The heap after a call that was refused. -/
def skip (h : Heap α) : Heap α := ⟨h.cell, h.calls + 1, fun b hb => h.unused b (by omega)⟩

/-- The heap without a block. -/
def remove (h : Heap α) (b : ℕ) : Heap α where
  cell := Function.update h.cell b none
  calls := h.calls
  unused c hc := by
    by_cases hcb : c = b
    · rw [hcb, Function.update_self]
    · rw [Function.update_of_ne hcb, h.unused c hc]

/-- The heap with other contents of an allocated block. -/
def write (h : Heap α) (b : ℕ) (a : α) (hb : h.cell b ≠ none) : Heap α where
  cell := Function.update h.cell b (some a)
  calls := h.calls
  unused c hc := by
    have hcb : c ≠ b := by
      rintro rfl
      exact hb (h.unused c hc)
    rw [Function.update_of_ne hcb, h.unused c hc]

/-- There are no more blocks than were given out. -/
lemma length_le (h : Heap α) {l : List ℕ} (hnodup : l.Nodup) (hcell : ∀ b ∈ l, h.cell b ≠ none) :
    l.length ≤ h.calls := by
  have hsub : l ⊆ List.range h.calls := fun b hb =>
    List.mem_range.mpr (not_le.mp fun hge => hcell b hb (h.unused b hge))
  simpa using (List.subperm_of_subset hnodup hsub).length_le

/-! ## Accesses -/

/-- A block with contents `a`; the call may be refused. -/
def malloc (grant : ℕ → Bool) (a : α) : Alloc α (Option ℕ) := fun h =>
  if grant h.calls then .ok (some h.calls, h.push a) else .ok (none, h.skip)

def free (b : ℕ) : Alloc α Unit := fun h =>
  if h.cell b ≠ none then .ok ((), h.remove b) else .error .dangling

def load (b : ℕ) : Alloc α α := fun h =>
  match h.cell b with
  | some a => .ok (a, h)
  | none => .error .dangling

def store (b : ℕ) (a : α) : Alloc α Unit := fun h =>
  if hb : h.cell b ≠ none then .ok ((), h.write b a hb) else .error .dangling

def fault (f : HeapFault) : Alloc α β := fun _ => .error f

/-! ## Results of a sequence -/

section Results
variable {σ ε : Type} {x : StateT σ (Except ε) β} {f : β → StateT σ (Except ε) γ} {s s₁ : σ} {b : β}

lemma bind_of_ok (hx : x s = .ok (b, s₁)) : (x >>= f) s = f b s₁ := by
  show ((x s).bind fun r => f r.1 r.2) = f b s₁
  rw [hx]
  rfl

lemma pure_eq (b : β) (s : σ) : (pure b : StateT σ (Except ε) β) s = .ok (b, s) := rfl

end Results

lemma malloc_of_granted {grant : ℕ → Bool} {h : Heap α} (hgrant : grant h.calls = true) (a : α) :
    malloc grant a h = .ok (some h.calls, h.push a) := if_pos hgrant

lemma malloc_of_refused {grant : ℕ → Bool} {h : Heap α} (hgrant : ¬ grant h.calls = true) (a : α) :
    malloc grant a h = .ok (none, h.skip) := if_neg hgrant

lemma load_of_cell {h : Heap α} {b : ℕ} {a : α} (hcell : h.cell b = some a) :
    load b h = .ok (a, h) := by
  unfold load
  rw [hcell]

/-! ## What code leaves behind -/

/-- All calls of the allocator from `h` to `h'` were granted. -/
def Granted (grant : ℕ → Bool) (h h' : Heap α) : Prop :=
  ∀ k, h.calls ≤ k → k < h'.calls → grant k = true

section Granted
variable {grant : ℕ → Bool} {h h₁ h₂ : Heap α}

end Granted

/-- From `h` to `h'` exactly the blocks `bs` were added. -/
structure Adds (h h' : Heap α) (bs : Finset ℕ) : Prop where
  calls_le : h.calls ≤ h'.calls
  old : ∀ b < h.calls, h'.cell b = h.cell b
  new : ∀ b, h.calls ≤ b → (h'.cell b ≠ none ↔ b ∈ bs)
  ge : ∀ b ∈ bs, h.calls ≤ b

namespace Adds

variable {h h₁ h₂ : Heap α} {bs cs : Finset ℕ}

lemma refl (h : Heap α) : Adds h h ∅ := by
  refine ⟨le_rfl, fun _ _ => rfl, fun b hb => ?_, fun b hb => absurd hb (Finset.notMem_empty b)⟩
  rw [h.unused b hb]
  simp

lemma lt_calls (hadds : Adds h h₁ bs) {b : ℕ} (hb : b ∈ bs) : b < h₁.calls := by
  by_contra hge
  exact (hadds.new b (hadds.ge b hb)).mpr hb (h₁.unused b (not_lt.mp hge))

lemma trans (hfirst : Adds h h₁ bs) (hsecond : Adds h₁ h₂ cs) : Adds h h₂ (bs ∪ cs) := by
  refine ⟨hfirst.calls_le.trans hsecond.calls_le, fun b hb => ?_, fun b hb => ?_, fun b hb => ?_⟩
  · rw [hsecond.old b (hb.trans_le hfirst.calls_le), hfirst.old b hb]
  · rw [Finset.mem_union]
    by_cases hlt : b < h₁.calls
    · -- a block from before the second part
      have hnot : b ∉ cs := fun hmem => absurd (hsecond.ge b hmem) (not_le.mpr hlt)
      rw [hsecond.old b hlt, hfirst.new b hb]
      exact (or_iff_left hnot).symm
    · have hge : h₁.calls ≤ b := not_lt.mp hlt
      have hnot : b ∉ bs := fun hmem => hlt (hfirst.lt_calls hmem)
      rw [hsecond.new b hge]
      exact (or_iff_right hnot).symm
  · rcases Finset.mem_union.mp hb with hmem | hmem
    · exact hfirst.ge b hmem
    · exact hfirst.calls_le.trans (hsecond.ge b hmem)

lemma push (h : Heap α) (a : α) : Adds h (h.push a) {h.calls} := by
  refine ⟨Nat.le_succ _, fun b hb => ?_, fun b hb => ?_, fun b hb => ?_⟩
  · exact Function.update_of_ne hb.ne _ _
  · rw [Finset.mem_singleton]
    unfold Heap.push
    by_cases hbc : b = h.calls
    · simp [hbc]
    · simp only [Function.update_of_ne hbc, h.unused b hb]
      simp [hbc]
  · exact (Finset.mem_singleton.mp hb).ge

lemma skip (h : Heap α) : Adds h h.skip ∅ :=
  ⟨Nat.le_succ _, (refl h).old, (refl h).new, (refl h).ge⟩

/-- An added block is taken away again. -/
lemma remove (hadds : Adds h h₁ bs) {b : ℕ} (hb : b ∈ bs) :
    Adds h (h₁.remove b) (bs.erase b) := by
  refine ⟨hadds.calls_le, fun c hc => ?_, fun c hc => ?_, fun c hc => ?_⟩
  · have hcb : c ≠ b := (hc.trans_le (hadds.ge b hb)).ne
    exact (Function.update_of_ne hcb _ _).trans (hadds.old c hc)
  · rw [Finset.mem_erase, ← hadds.new c hc]
    unfold Heap.remove
    by_cases hcb : c = b
    · simp [hcb]
    · simp [hcb]
  · exact hadds.ge c (Finset.mem_of_mem_erase hc)

/-- An added block is written to. -/
lemma write (hadds : Adds h h₁ bs) {b : ℕ} (hb : b ∈ bs) (a : α) (hcell : h₁.cell b ≠ none) :
    Adds h (h₁.write b a hcell) bs := by
  refine ⟨hadds.calls_le, fun c hc => ?_, fun c hc => ?_, hadds.ge⟩
  · have hcb : c ≠ b := (hc.trans_le (hadds.ge b hb)).ne
    exact (Function.update_of_ne hcb _ _).trans (hadds.old c hc)
  · rw [← hadds.new c hc]
    unfold Heap.write
    by_cases hcb : c = b
    · simp [hcb, hcell]
    · simp [hcb]

end Adds

end Heap

end IpncRdk.Lib
