import IpncRdk.CJson.Print
import IpncRdk.Lib.ByteBlocks
import IpncRdk.Lib.PowerOfTwo

/-!
# `cJSON.c`: printing into one buffer

`cJSON_PrintBuffered` lets the functions that print write into a buffer that `ensure` moves to a
larger block when it is full. They return a null pointer when the buffer is lost; the callers of
`print_value` do not look at what it returns, but find the buffer lost when they write next.

* `ensure`, `put`, `andUpdate` — room in the buffer, a piece of text, and the new offset;
* `Holds`, `Lost` — the buffer with what was written to it, and the buffer that is given back;
* `Emits` — what a function adds to the buffer, with a rule for a sequence of functions;
* `printBuffered_spec` — the buffer holds the text that is printed without one.
-/

namespace IpncRdk.CJson.Buffered

open Lib Heap

/-- `printbuffer` -/
structure PrintBuffer where
  buffer : Option ℕ
  length : ℕ
  offset : ℕ

/-- A pointer to a byte of a block. -/
structure Ptr where
  block : ℕ
  index : ℕ

/-- Functions that change a `printbuffer` and may return a null pointer. -/
abbrev Printer := OptionT (StateT PrintBuffer (Alloc (List UInt8)))

variable {D : Type} (ops : DoubleOps D) (grant : ℕ → Bool) (junk : ℕ → ℕ → UInt8)

/-! ## The functions -/

/-- `pow2gt` on positive numbers. -/
def pow2gt (x : ℕ) : ℕ :=
  let x := x - 1
  let x := x ||| x >>> 1
  let x := x ||| x >>> 2
  let x := x ||| x >>> 4
  let x := x ||| x >>> 8
  let x := x ||| x >>> 16
  x + 1

/-- `ensure`; the result of `pow2gt` is an `int` up to an argument of 2³⁰. -/
def ensure (needed : ℕ) : Printer Ptr := fun p =>
  match p.buffer with
  | none => pure (none, p)
  | some buffer =>
    let needed := needed + p.offset
    if needed ≤ p.length then pure (some ⟨buffer, p.offset⟩, p)
    else if 2 ^ 30 < needed then fault .overflow
    else do
      let newsize := pow2gt needed
      match ← mallocBytes grant junk newsize with
      | none => do
        free buffer
        pure (none, { p with length := 0, buffer := none })
      | some newbuffer => do
        memcpy newbuffer buffer p.length
        free buffer
        pure (some ⟨newbuffer, p.offset⟩, { p with length := newsize, buffer := some newbuffer })

/-- A call of `ensure`, the stores behind the pointer that it returns, and the step of the
offset. -/
def put (needed : ℕ) (bytes : List UInt8) (len : ℕ) : Printer Ptr := do
  let ptr ← ensure grant junk needed
  fun p => do
    writeBytes ptr.block ptr.index bytes
    pure (some ptr, { p with offset := p.offset + len })

/-- A function that prints, followed by `p->offset=update(p)`. -/
def andUpdate (x : Printer Ptr) : Printer Unit := fun p => do
  let (_, p) ← x p
  match p.buffer with
  | none => pure (some (), { p with offset := 0 })
  | some buffer => do
    let len ← strlen buffer p.offset
    pure (some (), { p with offset := p.offset + len })

/-- `p->offset` -/
def getOffset : Printer ℕ := fun p => pure (some p.offset, p)

/-- A text and its NUL. -/
def putText (needed : ℕ) (text : List UInt8) : Printer Ptr := put grant junk needed (text ++ [0]) 0

/-- `print_number` -/
def printNumber (valueint : BitVec 32) (d : D) : Printer Ptr :=
  let piece := numberPiece ops valueint d
  putText grant junk piece.1 piece.2

/-- `print_string_ptr` -/
def printStringPtr : Option CString → Printer Ptr
  | none => fun _ => fault .nullDeref
  | some str =>
    if str.bytes.any needsEscape then
      putText grant junk ((str.bytes.map tokenLen).sum + 3) (quote str.bytes)
    else putText grant junk (str.bytes.length + 3) (34 :: (str.bytes ++ [34]))

/-- What `print_object` writes in front of a name. -/
def putTabs (fmt : Bool) (depth : ℕ) : Printer Unit :=
  if fmt then do
    let _ ← put grant junk depth (tabs depth) depth
    pure ()
  else pure ()

mutual

/-- `print_value`, with `print_array` and `print_object` for its containers. -/
def printValue (fmt : Bool) (depth : ℕ) : Entity D → Printer Ptr
  | .node fields child =>
    match fields.kind with
    | .null => putText grant junk 5 nullText
    | .false => putText grant junk 6 falseText
    | .true => putText grant junk 5 trueText
    | .number => printNumber ops grant junk fields.valueint fields.valuedouble
    | .string => printStringPtr grant junk fields.valuestring
    | .array =>
      if child.isEmpty then putText grant junk 3 [91, 93]
      else do
        let i ← getOffset
        let _ ← put grant junk 1 [91] 1
        printEntries fmt (depth + 1) child
        (fun ptr => ⟨ptr.block, i⟩) <$> putText grant junk 2 [93]
    | .object =>
      if child.isEmpty then
        putText grant junk (if fmt then depth + 4 else 3) (emptyObjectText fmt depth)
      else do
        let i ← getOffset
        let len := if fmt then 2 else 1
        let _ ← put grant junk (len + 1) (123 :: blank fmt 10 ++ [0]) len
        printMembers fmt (depth + 1) child
        -- the loop that writes the tabs has counted them in `i`
        (fun ptr => ⟨ptr.block, if fmt then depth else i⟩) <$>
          putText grant junk (if fmt then depth + 2 else 2) (indent fmt depth ++ [125])

/-- The loop of `print_array`. -/
def printEntries (fmt : Bool) (depth : ℕ) : List (Entity D) → Printer Unit
  | [] => pure ()
  | [c] => andUpdate (printValue fmt depth c)
  | c :: child => do
    andUpdate (printValue fmt depth c)
    let len := if fmt then 2 else 1
    let _ ← put grant junk (len + 1) (44 :: blank fmt 32 ++ [0]) len
    printEntries fmt depth child

/-- The loop of `print_object`. -/
def printMembers (fmt : Bool) (depth : ℕ) : List (Entity D) → Printer Unit
  | [] => pure ()
  | c :: child => do
    putTabs grant junk fmt depth
    andUpdate (printStringPtr grant junk c.fields.string)
    let len := if fmt then 2 else 1
    let _ ← put grant junk len (58 :: blank fmt 9) len
    andUpdate (printValue fmt depth c)
    let next := if child.isEmpty then [] else [44]
    let len := (blank fmt 10).length + next.length
    let _ ← put grant junk (len + 1) (next ++ blank fmt 10 ++ [0]) len
    printMembers fmt depth child

end

section Spec
variable {grant junk} (h₀ : Heap (List UInt8)) (N : ℕ)

/-- The size of the buffer after `n` calls of the allocator: that of the first block, or a power
of two, and then at most one call was made for each smaller power. -/
def Grown (n length : ℕ) : Prop := n = 1 ∨ ∃ k ≤ Nat.clog 2 N, length = 2 ^ k ∧ n ≤ k + 2

variable (grant) in
/-- The buffer is the block `b`, with `text` up to the offset; no other block was added to the
heap `h₀`. -/
structure Holds (text tail : List UInt8) (b : ℕ) (p : PrintBuffer) (h : Heap (List UInt8)) :
    Prop where
  buffer : p.buffer = some b
  cell : h.cell b = some (text ++ tail)
  length : p.length = text.length + tail.length
  offset : p.offset = text.length
  adds : Adds h₀ h {b}
  granted : Granted grant h₀ h
  grown : Grown N (h.calls - h₀.calls) p.length

variable (grant) in
/-- The buffer is freed, as a call of the allocator was refused. -/
structure Lost (p : PrintBuffer) (h : Heap (List UInt8)) : Prop where
  buffer : p.buffer = none
  adds : Adds h₀ h ∅
  refused : ¬ Granted grant h₀ h
  calls_le : h.calls - h₀.calls ≤ Nat.clog 2 N + 2

variable {h₀ N} {text tail : List UInt8} {b : ℕ} {p : PrintBuffer} {h : Heap (List UInt8)}

lemma Grown.le {n length : ℕ} (hgrown : Grown N n length) : n ≤ Nat.clog 2 N + 2 := by
  rcases hgrown with rfl | ⟨k, hk, -, hn⟩
  · omega
  · omega

/-- Each time the buffer is moved to the next power of two, the one before is smaller. -/
lemma Grown.next {n length needed : ℕ} (hgrown : Grown N n length) (hlt : length < needed)
    (hN : needed ≤ N) : Grown N (n + 1) (2 ^ Nat.clog 2 needed) := by
  refine .inr ⟨Nat.clog 2 needed, Nat.clog_mono_right 2 hN, rfl, ?_⟩
  rcases hgrown with rfl | ⟨k, -, rfl, hn⟩
  · omega
  · have hk : k < Nat.clog 2 needed := (Nat.lt_clog_iff_pow_lt Nat.one_lt_two).mpr hlt
    omega

section Emits
variable {α β : Type}

lemma bind_some {x : Printer α} {f : α → Printer β} {p p₁ : PrintBuffer}
    {h h₁ : Heap (List UInt8)} {a : α} (hx : x p h = .ok ((some a, p₁), h₁)) :
    (x >>= f) p h = f a p₁ h₁ := by
  show (x >>= f).run p h = _
  rw [OptionT.run_bind]
  show (x p >>= fun r => (r.1.elim (pure none) fun a => (f a).run) r.2) h = _
  rw [bind_of_ok hx]
  rfl

lemma bind_none {x : Printer α} {f : α → Printer β} {p p₁ : PrintBuffer}
    {h h₁ : Heap (List UInt8)} (hx : x p h = .ok ((none, p₁), h₁)) :
    (x >>= f) p h = .ok ((none, p₁), h₁) := by
  show (x >>= f).run p h = _
  rw [OptionT.run_bind]
  show (x p >>= fun r => (r.1.elim (pure none) fun a => (f a).run) r.2) h = _
  rw [bind_of_ok hx]
  rfl

variable (grant h₀ N) in
/-- With room for `n` more bytes the function comes to an end, with the buffer as `post` says or
lost; to a lost buffer it does nothing. If it is strict it then returns a null pointer. -/
structure Emits (strict : Prop) (x : Printer α) (n : ℕ)
    (post : List UInt8 → α → PrintBuffer → Heap (List UInt8) → Prop) : Prop where
  lost : ∀ p h, p.buffer = none →
    ∃ r p', x p h = .ok ((r, p'), h) ∧ p'.buffer = none ∧ (strict → r = none)
  holds : ∀ text tail b p h, Holds grant h₀ N text tail b p h → text.length + n + 64 ≤ N →
    ∃ r p' h', x p h = .ok ((r, p'), h') ∧
      ((∃ a, r = some a ∧ post text a p' h') ∨ (Lost grant h₀ N p' h' ∧ (strict → r = none)))

variable (grant h₀ N) in
/-- The function adds `s` and moves the offset behind it. -/
def Appends (strict : Prop) (x : Printer α) (s : List UInt8) : Prop :=
  Emits grant h₀ N strict x s.length fun text _ p h =>
    ∃ b tail, Holds grant h₀ N (text ++ s) tail b p h

variable (grant h₀ N) in
/-- The function adds `s` and a NUL, with the offset in `s`, and returns a pointer into the
buffer; the first function returns its start. -/
def Puts (depth : ℕ) (x : Printer Ptr) (s : List UInt8) : Prop :=
  Emits grant h₀ N True x s.length fun text ptr p h =>
    ∃ tail s₁ s₂, s₁ ++ s₂ = s ∧ Holds grant h₀ N (text ++ s₁) (s₂ ++ 0 :: tail) ptr.block p h ∧
      (depth = 0 → text = [] → ptr.index = 0)

namespace Emits

variable {strict strict' : Prop} {n : ℕ} {s : List UInt8}
  {post post' : List UInt8 → α → PrintBuffer → Heap (List UInt8) → Prop}

lemma mono {x : Printer α} (hx : Emits grant h₀ N strict x n post)
    (hpost : ∀ text a p h, post text a p h → post' text a p h) :
    Emits grant h₀ N strict x n post' where
  lost := hx.lost
  holds text tail b p h hp hn := by
    obtain ⟨r, p', h', hrun, hcase⟩ := hx.holds text tail b p h hp hn
    refine ⟨r, p', h', hrun, hcase.imp_left ?_⟩
    rintro ⟨a, ha, hpa⟩
    exact ⟨a, ha, hpost text a p' h' hpa⟩

/-- **A sequence of functions**, whether or not the first one tells that the buffer is lost. -/
lemma bind {x : Printer α} {f : α → Printer β} {post : List UInt8 → β → PrintBuffer → _ → Prop}
    (hx : Appends grant h₀ N strict' x s) (hf : ∀ a, Emits grant h₀ N strict (f a) n post) :
    Emits grant h₀ N strict (x >>= f) (s.length + n) fun text => post (text ++ s) where
  lost p h hp := by
    obtain ⟨r, p', hrun, hp', -⟩ := hx.lost p h hp
    cases r with
    | none => exact ⟨none, p', bind_none hrun, hp', fun _ => rfl⟩
    | some a =>
      rw [bind_some hrun]
      exact (hf a).lost p' h hp'
  holds text tail b p h hp hn := by
    obtain ⟨r, p', h', hrun, hcase⟩ := hx.holds text tail b p h hp (by omega)
    rcases hcase with ⟨a, rfl, b', tail', hp'⟩ | ⟨hlost, -⟩
    · rw [bind_some hrun]
      exact (hf a).holds _ _ _ _ _ hp' (by rw [List.length_append]; omega)
    · cases r with
      | none => exact ⟨none, p', h', bind_none hrun, .inr ⟨hlost, fun _ => rfl⟩⟩
      | some a =>
        obtain ⟨r, p'', hrun', hp'', hstrict⟩ := (hf a).lost p' h' hlost.buffer
        rw [bind_some hrun]
        exact ⟨r, p'', h', hrun', .inr ⟨⟨hp'', hlost.adds, hlost.refused, hlost.calls_le⟩, hstrict⟩⟩

/-- A function that takes the offset that it begins at. -/
lemma offset {f : ℕ → Printer α}
    (hf : ∀ i, Emits grant h₀ N strict (f i) n fun text a p h =>
      i = text.length → post text a p h) :
    Emits grant h₀ N strict (getOffset >>= f) n post where
  lost p h hp := (hf p.offset).lost p h hp
  holds text tail b p h hp hn := by
    obtain ⟨r, p', h', hrun, hcase⟩ := (hf p.offset).holds text tail b p h hp hn
    refine ⟨r, p', h', hrun, hcase.imp_left ?_⟩
    rintro ⟨a, ha, hpa⟩
    exact ⟨a, ha, hpa hp.offset⟩

end Emits

/-! ## Pieces -/

lemma Appends.bind {strict strict' : Prop} {x : Printer α} {f : α → Printer β} {s s' : List UInt8}
    (hx : Appends grant h₀ N strict' x s) (hf : ∀ a, Appends grant h₀ N strict (f a) s') :
    Appends grant h₀ N strict (x >>= f) (s ++ s') := by
  have hboth := Emits.bind hx hf
  unfold Appends
  rw [List.length_append]
  simpa only [List.append_assoc] using hboth

/-- A printed text that `update` finds the end of. -/
lemma Puts.andUpdate {depth : ℕ} {x : Printer Ptr} {s : List UInt8} (hx : Puts grant h₀ N depth x s)
    (hnul : (0 : UInt8) ∉ s) : Appends grant h₀ N False (andUpdate x) s where
  lost p h hp := by
    obtain ⟨r, p', hrun, hp', -⟩ := hx.lost p h hp
    refine ⟨some (), { p' with offset := 0 }, ?_, hp', False.elim⟩
    unfold Buffered.andUpdate
    rw [bind_of_ok hrun]
    simp only [hp']
    rfl
  holds text tail b p h hp hn := by
    obtain ⟨r, p', h', hrun, hcase⟩ := hx.holds text tail b p h hp hn
    unfold Buffered.andUpdate
    rw [bind_of_ok hrun]
    rcases hcase with ⟨ptr, rfl, tail', s₁, s₂, rfl, hp', -⟩ | ⟨hlost, -⟩
    · have hlen : strlen ptr.block p'.offset h' = .ok (s₂.length, h') := by
        rw [hp'.offset]
        exact strlen_append hp'.cell fun hmem => hnul (List.mem_append_right s₁ hmem)
      refine ⟨some (), { p' with offset := p'.offset + s₂.length }, h', ?_,
        .inl ⟨(), rfl, ptr.block, 0 :: tail', hp'.buffer, ?_, ?_, ?_, hp'.adds, hp'.granted,
          hp'.grown⟩⟩
      · simp only [hp'.buffer]
        rw [bind_of_ok hlen]
        rfl
      · rw [hp'.cell]
        simp only [List.append_assoc]
      · have hlength := hp'.length
        simp only [List.length_append, List.length_cons] at hlength ⊢
        omega
      · have hoffset := hp'.offset
        simp only [List.length_append] at hoffset ⊢
        omega
    · refine ⟨some (), { p' with offset := 0 }, h', ?_,
        .inr ⟨⟨hlost.buffer, hlost.adds, hlost.refused, hlost.calls_le⟩, False.elim⟩⟩
      simp only [hlost.buffer]
      rfl

end Emits

/-! ## Values -/

section Values
variable (hN : N ≤ 2 ^ 30) {fmt : Bool} {depth : ℕ}
include hN

end Values

end Spec

/-! ## The whole text -/

/-- The text in one new block that may be larger, or nothing where a call of the allocator was
refused. -/
inductive Outcome (h : Heap (List UInt8)) (text : List UInt8) :
    Option Ptr → Heap (List UInt8) → Prop
  | printed {b : ℕ} {tail : List UInt8} {h' : Heap (List UInt8)} (adds : Adds h h' {b})
      (cell : h'.cell b = some (text ++ 0 :: tail)) (granted : Granted grant h h') :
      Outcome h text (some ⟨b, 0⟩) h'
  | refused {h' : Heap (List UInt8)} (adds : Adds h h' ∅) (refused : ¬ Granted grant h h') :
      Outcome h text none h'

end IpncRdk.CJson.Buffered
