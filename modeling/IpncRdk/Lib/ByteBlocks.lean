import IpncRdk.Lib.Blocks
import IpncRdk.Lib.CString
import Mathlib.Data.List.OfFn

/-!
# Blocks of bytes

* `mallocBytes` — a block whose bytes are not set;
* `writeBytes`, `memcpy` — stores inside a block;
* `strlen` — the length of the string that begins at an index of a block.
-/

namespace IpncRdk.Lib.Heap

/-- The contents with `bytes` from `i` on. -/
def patch (i : ℕ) (bytes contents : List UInt8) : List UInt8 :=
  contents.take i ++ bytes ++ contents.drop (i + bytes.length)

section Patch
variable {text bytes tail : List UInt8}

end Patch

/-! ## Accesses -/

/-- What stands in a new block; `junk k` are the bytes that the `k`-th call of the allocator
finds. -/
def fresh (junk : ℕ → ℕ → UInt8) (k size : ℕ) : List UInt8 := List.ofFn fun i : Fin size => junk k i

/-- A new block of `size` bytes. -/
def mallocBytes (grant : ℕ → Bool) (junk : ℕ → ℕ → UInt8) (size : ℕ) :
    Alloc (List UInt8) (Option ℕ) := fun h => malloc grant (fresh junk h.calls size) h

/-- Stores from the index `i` of a block on. -/
def writeBytes (b i : ℕ) (bytes : List UInt8) : Alloc (List UInt8) Unit := do
  let contents ← load b
  if i + bytes.length ≤ contents.length then store b (patch i bytes contents) else fault .overrun

/-- `memcpy(dst, src, n)` -/
def memcpy (dst src n : ℕ) : Alloc (List UInt8) Unit := do
  let contents ← load src
  if n ≤ contents.length then writeBytes dst 0 (contents.take n) else fault .overrun

/-- `strlen` of the string at the index `i` of a block. -/
def strlen (b i : ℕ) : Alloc (List UInt8) ℕ := do
  let contents ← load b
  let len := (cstr (contents.drop i)).length
  if i + len < contents.length then pure len else fault .overrun

/-! ## What they do in an allocated block -/

section Known
variable {h : Heap (List UInt8)} {b : ℕ} {text tail : List UInt8}

/-- The string behind `text`. -/
lemma strlen_append {str : List UInt8} (hcell : h.cell b = some (text ++ (str ++ 0 :: tail)))
    (hstr : (0 : UInt8) ∉ str) : strlen b text.length h = .ok (str.length, h) := by
  unfold strlen
  rw [bind_of_ok (load_of_cell hcell), List.drop_left, cstr_append_nul hstr]
  simp only [List.length_append, List.length_cons]
  rw [if_pos (by omega)]
  rfl

end Known

end IpncRdk.Lib.Heap
