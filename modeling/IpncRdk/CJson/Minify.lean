import IpncRdk.CJson.PrintText

/-!
# `cJSON.c`: `cJSON_Minify`

The text is shortened where it stands: `into` follows `json` through it.

* `Minifier`, `minify` — the memory with the two pointers, and the function;
* `Chunk`, `Minifies` — the parts of a text and what is kept of each;
* `View` — the kept text, a gap, and what is not yet read;
* `minify_of_minifies` — `cJSON_Minify` keeps what is to be kept, and touches nothing behind the
  text;
* `minify_text` — a formatted text becomes the unformatted one.
-/

namespace IpncRdk.CJson

open Lib

/-- The memory from the start of the text on, and the two pointers into it. -/
structure Minifier where
  mem : List UInt8
  into : ℕ
  json : ℕ

namespace Minifier

/-- `json[k]` -/
def char (m : Minifier) (k : ℕ) : Except Fault UInt8 :=
  match m.mem[m.json + k]? with
  | some b => .ok b
  | none => .error .outOfBounds

/-- `json+=k` -/
def pass (m : Minifier) (k : ℕ) : Minifier := { m with json := m.json + k }

/-- `*into++=*json++` -/
def copy (m : Minifier) : Except Fault Minifier := do
  let b ← m.char 0
  let mem ← put m.mem m.into b
  pure ⟨mem, m.into + 1, m.json + 1⟩

/-- The loop over a comment to the end of the line. -/
def passLine : ℕ → Minifier → Except Fault Minifier
  | 0, _ => .error .diverges
  | fuel + 1, m => do
    let b ← m.char 0
    if b ≠ 0 ∧ b ≠ 10 then passLine fuel (m.pass 1) else pure m

/-- The loop over a comment of several lines. -/
def passComment : ℕ → Minifier → Except Fault Minifier
  | 0, _ => .error .diverges
  | fuel + 1, m => do
    let b ← m.char 0
    if b = 0 then pure m
    else if b = 42 then do
      let c ← m.char 1
      if c = 47 then pure m else passComment fuel (m.pass 1)
    else passComment fuel (m.pass 1)

/-- The loop over a string literal. -/
def copyLiteral : ℕ → Minifier → Except Fault Minifier
  | 0, _ => .error .diverges
  | fuel + 1, m => do
    let b ← m.char 0
    if b ≠ 0 ∧ b ≠ 34 then do
      let m ← if b = 92 then m.copy else pure m
      let m ← m.copy
      copyLiteral fuel m
    else pure m

/-- The loop of `cJSON_Minify`. -/
def loop : ℕ → Minifier → Except Fault Minifier
  | 0, _ => .error .diverges
  | fuel + 1, m => do
    let b ← m.char 0
    if b = 0 then pure m
    else if b = 32 ∨ b = 9 ∨ b = 13 ∨ b = 10 then loop fuel (m.pass 1)
    else if b = 47 then do
      let c ← m.char 1
      if c = 47 then do
        let m ← passLine m.mem.length m
        loop fuel m
      else if c = 42 then do
        let m ← passComment m.mem.length m
        loop fuel (m.pass 2)
      else do
        let m ← m.copy
        loop fuel m
    else if b = 34 then do
      let m ← m.copy
      let m ← copyLiteral m.mem.length m
      let m ← m.copy
      loop fuel m
    else do
      let m ← m.copy
      loop fuel m

end Minifier

open Minifier

/-- `cJSON_Minify` on the memory from its argument on. -/
def minify (mem : List UInt8) : Except Fault (List UInt8) := do
  let m ← loop (mem.length + 1) ⟨mem, 0, 0⟩
  put m.mem m.into 0

/-! ## What is kept -/

/-- What stands between the quotes of a literal. -/
inductive LiteralBody : List UInt8 → Prop
  | nil : LiteralBody []
  | char {b : UInt8} {body : List UInt8} (hb : b ≠ 0 ∧ b ≠ 34 ∧ b ≠ 92) (hbody : LiteralBody body) :
      LiteralBody (b :: body)
  | escaped {b : UInt8} {body : List UInt8} (hb : b ≠ 0) (hbody : LiteralBody body) :
      LiteralBody (92 :: b :: body)

/-- A comment from its first star to its last: its end does not come earlier. -/
inductive Comment : List UInt8 → Prop
  | last : Comment [42]
  | star {b : UInt8} {text : List UInt8} (hb : b ≠ 47) (htext : Comment (b :: text)) :
      Comment (42 :: b :: text)
  | char {b : UInt8} {text : List UInt8} (hb : b ≠ 0 ∧ b ≠ 42) (htext : Comment text) :
      Comment (b :: text)

/-- A part of a text and what is kept of it. -/
inductive Chunk : List UInt8 → List UInt8 → Prop
  | blank {b : UInt8} (hb : b = 32 ∨ b = 9 ∨ b = 13 ∨ b = 10) : Chunk [b] []
  | plain {b : UInt8} (hb : b ∉ [0, 32, 9, 13, 10, 47, 34]) : Chunk [b] [b]
  | literal {body : List UInt8} (hbody : LiteralBody body) :
      Chunk (34 :: (body ++ [34])) (34 :: (body ++ [34]))
  | line {text : List UInt8} (htext : ∀ b ∈ text, b ≠ 0 ∧ b ≠ 10) :
      Chunk (47 :: 47 :: (text ++ [10])) []
  | comment {text : List UInt8} (htext : Comment (42 :: text)) :
      Chunk (47 :: 42 :: (text ++ [47])) []

/-- A text and what is kept of it. -/
inductive Minifies : List UInt8 → List UInt8 → Prop
  | nil : Minifies [] []
  | cons {s k s' k' : List UInt8} (hchunk : Chunk s k) (hrest : Minifies s' k') :
      Minifies (s ++ s') (k ++ k')

namespace Minifies

variable {s k s' k' : List UInt8}

lemma of_chunk (h : Chunk s k) : Minifies s k := by
  have hcons := cons h nil
  rwa [List.append_nil, List.append_nil] at hcons

lemma append (h : Minifies s k) (h' : Minifies s' k') : Minifies (s ++ s') (k ++ k') := by
  induction h with
  | nil => exact h'
  | cons hchunk _ ih =>
    rw [List.append_assoc, List.append_assoc]
    exact cons hchunk ih

end Minifies

/-! ## The pointers -/

/-- `kept` was written, and `rest` is not yet read. -/
structure View (kept gap rest : List UInt8) (m : Minifier) : Prop where
  mem : m.mem = kept ++ (gap ++ rest)
  into : m.into = kept.length
  json : m.json = kept.length + gap.length

namespace View

variable {kept gap rest : List UInt8} {m : Minifier} {b c : UInt8}

lemma char_add {s : List UInt8} (hm : View kept gap (s ++ b :: rest) m) :
    m.char s.length = .ok b := by
  unfold Minifier.char
  rw [hm.mem, hm.json, List.getElem?_append_right (by omega),
    List.getElem?_append_right (by omega), List.getElem?_append_right (by omega),
    show kept.length + gap.length + s.length - kept.length - gap.length - s.length = 0 by omega,
    List.getElem?_cons_zero]

lemma char_zero (hm : View kept gap (b :: rest) m) : m.char 0 = .ok b :=
  char_add (s := []) hm

lemma char_one (hm : View kept gap (b :: c :: rest) m) : m.char 1 = .ok c :=
  char_add (s := [b]) hm

/-- What is passed joins the gap. -/
lemma pass {s : List UInt8} (hm : View kept gap (s ++ rest) m) :
    View kept (gap ++ s) rest (m.pass s.length) where
  mem := by rw [List.append_assoc]; exact hm.mem
  into := hm.into
  json := by
    rw [List.length_append, ← Nat.add_assoc, ← hm.json]
    rfl

/-- The gap moves on by a byte. -/
lemma copy (hm : View kept gap (b :: rest) m) :
    ∃ m' gap', m.copy = .ok m' ∧ View (kept ++ [b]) gap' rest m' ∧ gap'.length = gap.length := by
  have hlt : m.into < m.mem.length := by
    rw [hm.mem, hm.into, List.length_append, List.length_append, List.length_cons]
    omega
  have hput : put m.mem m.into b = .ok (m.mem.set m.into b) := if_pos hlt
  refine ⟨⟨m.mem.set m.into b, m.into + 1, m.json + 1⟩, (gap ++ [b]).tail, ?_, ⟨?_, ?_, ?_⟩, ?_⟩
  · unfold Minifier.copy
    rw [hm.char_zero, ok_bind, hput]
    rfl
  · show m.mem.set m.into b = _
    rw [hm.mem, hm.into, List.set_append_right _ _ le_rfl, Nat.sub_self]
    cases gap <;> simp
  · show m.into + 1 = _
    rw [hm.into, List.length_append, List.length_singleton]
  · show m.json + 1 = _
    rw [hm.json]
    simp only [List.length_append, List.length_tail, List.length_singleton]
    omega
  · simp only [List.length_append, List.length_tail, List.length_singleton]
    omega

end View

/-! ## The loops -/

section Loops
variable {kept gap rest : List UInt8} {m : Minifier}

lemma pass_pass (m : Minifier) (j k : ℕ) : (m.pass j).pass k = m.pass (j + k) := by
  unfold Minifier.pass
  rw [Nat.add_assoc]

lemma passLine_eq {text : List UInt8} (htext : ∀ b ∈ text, b ≠ 0 ∧ b ≠ 10) {fuel : ℕ}
    (hfuel : text.length < fuel) (hm : View kept gap (text ++ 10 :: rest) m) :
    passLine fuel m = .ok (m.pass text.length) := by
  induction text generalizing fuel gap m with
  | nil =>
    obtain ⟨fuel, rfl⟩ := Nat.exists_eq_succ_of_ne_zero (Nat.ne_zero_of_lt hfuel)
    unfold passLine
    rw [hm.char_zero, ok_bind, if_neg (by decide)]
    rfl
  | cons b text ih =>
    obtain ⟨fuel, rfl⟩ := Nat.exists_eq_succ_of_ne_zero (Nat.ne_zero_of_lt hfuel)
    rw [List.forall_mem_cons] at htext
    have hnext : View kept (gap ++ [b]) (text ++ 10 :: rest) (m.pass 1) := View.pass hm
    unfold passLine
    rw [hm.char_zero, ok_bind, if_pos htext.1, ih htext.2 (Nat.lt_of_succ_lt_succ hfuel) hnext,
      pass_pass, List.length_cons, Nat.add_comm]

/-- The loop stops at the star in front of the last character. -/
lemma passComment_eq {text : List UInt8} (htext : Comment text) {fuel : ℕ}
    (hfuel : text.length ≤ fuel) (hm : View kept gap (text ++ 47 :: rest) m) :
    ∃ n, passComment fuel m = .ok (m.pass n) ∧ n + 1 = text.length := by
  induction htext generalizing fuel gap m with
  | last =>
    obtain ⟨fuel, rfl⟩ := Nat.exists_eq_succ_of_ne_zero (Nat.ne_zero_of_lt hfuel)
    refine ⟨0, ?_, rfl⟩
    unfold passComment
    rw [hm.char_zero, ok_bind, if_neg (by decide), if_pos rfl, hm.char_one, ok_bind, if_pos rfl]
    rfl
  | @star b text hb htext ih =>
    obtain ⟨fuel, rfl⟩ := Nat.exists_eq_succ_of_ne_zero (Nat.ne_zero_of_lt hfuel)
    have hnext : View kept (gap ++ [42]) (b :: text ++ 47 :: rest) (m.pass 1) := View.pass hm
    obtain ⟨n, hrun, hn⟩ := ih (Nat.le_of_succ_le_succ hfuel) hnext
    refine ⟨1 + n, ?_, by rw [List.length_cons, ← hn]; omega⟩
    unfold passComment
    rw [hm.char_zero, ok_bind, if_neg (by decide), if_pos rfl, hm.char_one, ok_bind, if_neg hb,
      hrun, pass_pass]
  | @char b text hb htext ih =>
    obtain ⟨fuel, rfl⟩ := Nat.exists_eq_succ_of_ne_zero (Nat.ne_zero_of_lt hfuel)
    have hnext : View kept (gap ++ [b]) (text ++ 47 :: rest) (m.pass 1) := View.pass hm
    obtain ⟨n, hrun, hn⟩ := ih (Nat.le_of_succ_le_succ hfuel) hnext
    refine ⟨1 + n, ?_, by rw [List.length_cons, ← hn]; omega⟩
    unfold passComment
    rw [hm.char_zero, ok_bind, if_neg hb.1, if_neg hb.2, hrun, pass_pass]

/-- The loop copies the literal up to its quote. -/
lemma copyLiteral_eq {body : List UInt8} (hbody : LiteralBody body) {fuel : ℕ}
    (hfuel : body.length < fuel) (hm : View kept gap (body ++ 34 :: rest) m) :
    ∃ m' gap', copyLiteral fuel m = .ok m' ∧ View (kept ++ body) gap' (34 :: rest) m' ∧
      gap'.length = gap.length := by
  induction hbody generalizing fuel kept gap m with
  | nil =>
    obtain ⟨fuel, rfl⟩ := Nat.exists_eq_succ_of_ne_zero (Nat.ne_zero_of_lt hfuel)
    refine ⟨m, gap, ?_, by rwa [List.append_nil], rfl⟩
    unfold copyLiteral
    rw [hm.char_zero, ok_bind, if_neg (by decide)]
    rfl
  | @char b body hb _ ih =>
    obtain ⟨fuel, rfl⟩ := Nat.exists_eq_succ_of_ne_zero (Nat.ne_zero_of_lt hfuel)
    obtain ⟨m₁, gap₁, hcopy, hm₁, hgap₁⟩ := hm.copy
    obtain ⟨m', gap', hrun, hm', hgap'⟩ := ih (Nat.lt_of_succ_lt_succ hfuel) hm₁
    refine ⟨m', gap', ?_, ?_, hgap'.trans hgap₁⟩
    · unfold copyLiteral
      rw [hm.char_zero, ok_bind, if_pos ⟨hb.1, hb.2.1⟩, if_neg hb.2.2]
      show (m.copy >>= fun m => copyLiteral fuel m) = _
      rw [hcopy, ok_bind, hrun]
    · rwa [List.append_assoc, List.singleton_append] at hm'
  | @escaped b body hb _ ih =>
    obtain ⟨fuel, rfl⟩ := Nat.exists_eq_succ_of_ne_zero (Nat.ne_zero_of_lt hfuel)
    obtain ⟨m₁, gap₁, hcopy, hm₁, hgap₁⟩ := hm.copy
    obtain ⟨m₂, gap₂, hcopy', hm₂, hgap₂⟩ := hm₁.copy
    have hmore : body.length < fuel := by
      rw [List.length_cons, List.length_cons] at hfuel
      omega
    obtain ⟨m', gap', hrun, hm', hgap'⟩ := ih hmore hm₂
    refine ⟨m', gap', ?_, ?_, hgap'.trans (hgap₂.trans hgap₁)⟩
    · unfold copyLiteral
      rw [hm.char_zero, ok_bind, if_pos (by decide), if_pos rfl, hcopy, ok_bind]
      show (m₁.copy >>= fun m => copyLiteral fuel m) = _
      rw [hcopy', ok_bind, hrun]
    · rwa [List.append_assoc, List.append_assoc] at hm'

/-- The loop goes over a part of the text. -/
lemma loop_chunk {s k : List UInt8} (hchunk : Chunk s k) (hm : View kept gap (s ++ rest) m) :
    ∃ n m' gap', n ≤ s.length ∧ (∀ fuel, loop (fuel + n) m = loop fuel m') ∧
      View (kept ++ k) gap' rest m' ∧ gap'.length + k.length = gap.length + s.length := by
  have hroom : s.length ≤ m.mem.length := by
    rw [hm.mem]
    simp only [List.length_append]
    omega
  cases hchunk with
  | @blank b hb =>
    refine ⟨1, m.pass 1, gap ++ [b], le_rfl, fun fuel => ?_, by simpa using View.pass hm, by simp⟩
    have hne : b ≠ 0 := by
      rintro rfl
      exact absurd hb (by decide)
    rw [loop, hm.char_zero, ok_bind, if_neg hne, if_pos hb]
  | @plain b hb =>
    simp only [List.mem_cons, List.not_mem_nil, or_false, not_or] at hb
    obtain ⟨hnul, h32, h9, h13, h10, h47, h34⟩ := hb
    obtain ⟨m', gap', hcopy, hm', hgap'⟩ := hm.copy
    refine ⟨1, m', gap', le_rfl, fun fuel => ?_, hm', by rw [hgap']⟩
    rw [loop, hm.char_zero, ok_bind, if_neg hnul, if_neg (by tauto), if_neg h47, if_neg h34, hcopy,
      ok_bind]
  | @literal body hbody =>
    rw [List.cons_append, List.append_assoc, List.singleton_append] at hm
    obtain ⟨m₁, gap₁, hcopy, hm₁, hgap₁⟩ := hm.copy
    have hfuel : body.length < m₁.mem.length := by
      rw [hm₁.mem]
      simp only [List.length_append, List.length_cons]
      omega
    obtain ⟨m₂, gap₂, hrun, hm₂, hgap₂⟩ := copyLiteral_eq hbody hfuel hm₁
    obtain ⟨m', gap', hcopy', hm', hgap'⟩ := hm₂.copy
    refine ⟨1, m', gap', by simp, fun fuel => ?_, ?_, by rw [hgap', hgap₂, hgap₁]⟩
    · rw [loop, hm.char_zero, ok_bind, if_neg (by decide), if_neg (by decide), if_neg (by decide),
        if_pos rfl, hcopy, ok_bind, hrun, ok_bind, hcopy', ok_bind]
    · rwa [List.append_assoc, List.append_assoc, List.singleton_append] at hm'
  | @line text htext =>
    have hline : ∀ b ∈ 47 :: 47 :: text, b ≠ 0 ∧ b ≠ 10 := by
      rw [List.forall_mem_cons, List.forall_mem_cons]
      exact ⟨by decide, by decide, htext⟩
    have hm' : View kept gap ((47 :: 47 :: text) ++ 10 :: rest) m := by simpa using hm
    have hfuel : (47 :: 47 :: text).length < m.mem.length := by
      simp only [List.length_cons, List.length_append, List.length_nil] at hroom ⊢
      omega
    have hpass : View kept (gap ++ 47 :: 47 :: text) (10 :: rest)
        (m.pass (47 :: 47 :: text).length) := View.pass hm'
    refine ⟨2, (m.pass (47 :: 47 :: text).length).pass 1, _, by simp, fun fuel => ?_,
      by simpa using View.pass (s := [10]) hpass, by simp⟩
    rw [loop, hm.char_zero, ok_bind, if_neg (by decide), if_neg (by decide), if_pos rfl,
      hm'.char_one, ok_bind, if_pos rfl, passLine_eq hline hfuel hm', ok_bind, loop,
      hpass.char_zero, ok_bind, if_neg (by decide), if_pos (by decide)]
  | @comment text htext =>
    have hstart : Comment (47 :: 42 :: text) := .char (by decide) htext
    have hm' : View kept gap ((47 :: 42 :: text) ++ 47 :: rest) m := by simpa using hm
    obtain ⟨n, hrun, hn⟩ := passComment_eq hstart (by simpa using Nat.le_of_succ_le hroom) hm'
    have hlen : n + 2 = (47 :: 42 :: (text ++ [47])).length := by
      simp only [List.length_cons, List.length_append, List.length_nil] at hn ⊢
      omega
    refine ⟨1, m.pass (n + 2), gap ++ 47 :: 42 :: (text ++ [47]), by simp, fun fuel => ?_,
      by rw [hlen, List.append_nil]; exact View.pass hm, by simp⟩
    rw [loop, hm.char_zero, ok_bind, if_neg (by decide), if_neg (by decide), if_pos rfl,
      hm'.char_one, ok_bind, if_neg (by decide), if_pos rfl, hrun, ok_bind, pass_pass]

lemma loop_minifies {s k : List UInt8} (h : Minifies s k) (hm : View kept gap (s ++ rest) m) :
    ∃ n m' gap', n ≤ s.length ∧ (∀ fuel, loop (fuel + n) m = loop fuel m') ∧
      View (kept ++ k) gap' rest m' ∧ gap'.length + k.length = gap.length + s.length := by
  induction h generalizing kept gap m with
  | nil => exact ⟨0, m, gap, le_rfl, fun _ => rfl, by rwa [List.append_nil], rfl⟩
  | @cons s k s' k' hchunk _ ih =>
    rw [List.append_assoc] at hm
    obtain ⟨n₁, m₁, gap₁, hn₁, hrun₁, hm₁, hgap₁⟩ := loop_chunk hchunk hm
    obtain ⟨n₂, m₂, gap₂, hn₂, hrun₂, hm₂, hgap₂⟩ := ih hm₁
    refine ⟨n₂ + n₁, m₂, gap₂, ?_, fun fuel => ?_, by rwa [List.append_assoc] at hm₂, ?_⟩
    · rw [List.length_append]
      omega
    · rw [← Nat.add_assoc, hrun₁, hrun₂]
    · simp only [List.length_append]
      omega

end Loops

/-- **What `cJSON_Minify` does**: blanks and comments outside of literals are gone, and what stood
behind the text is untouched. -/
theorem minify_of_minifies {s k : List UInt8} (h : Minifies s k) (rest : List UInt8) :
    ∃ gap, minify (s ++ 0 :: rest) = .ok (k ++ 0 :: (gap ++ rest)) ∧
      k.length + gap.length = s.length := by
  have hstart : View [] [] (s ++ 0 :: rest) ⟨s ++ 0 :: rest, 0, 0⟩ := ⟨rfl, rfl, rfl⟩
  obtain ⟨n, m, gap, hn, hrun, hm, hgap⟩ := loop_minifies h hstart
  have hfuel : (s ++ 0 :: rest).length + 1 = (s.length - n + rest.length + 1) + 1 + n := by
    simp only [List.length_append, List.length_cons]
    omega
  have hend : loop (s.length - n + rest.length + 1 + 1) m = .ok m := by
    rw [loop, hm.char_zero, ok_bind, if_pos rfl]
    rfl
  rw [List.nil_append] at hm
  have hlt : m.into < m.mem.length := by
    rw [hm.mem, hm.into]
    simp only [List.length_append, List.length_cons]
    omega
  refine ⟨(gap ++ [0]).tail, ?_, ?_⟩
  · unfold minify
    rw [hfuel, hrun, hend, ok_bind]
    refine (if_pos hlt).trans (congrArg _ ?_)
    rw [hm.mem, hm.into, List.set_append_right _ _ le_rfl, Nat.sub_self]
    cases gap <;> simp
  · simp only [List.length_nil, Nat.zero_add, List.length_tail, List.length_append,
      List.length_singleton] at hgap ⊢
    omega

/-- What is kept is kept again. -/
lemma Minifies.kept {s k : List UInt8} (h : Minifies s k) : Minifies k k := by
  induction h with
  | nil => exact .nil
  | cons hchunk _ ih =>
    cases hchunk with
    | blank => exact ih
    | plain hb => exact .cons (.plain hb) ih
    | literal hbody => exact .cons (.literal hbody) ih
    | line => exact ih
    | comment => exact ih

section Printed

lemma LiteralBody.append {body body' : List UInt8} (h : LiteralBody body) (h' : LiteralBody body') :
    LiteralBody (body ++ body') := by
  induction h with
  | nil => exact h'
  | char hb _ ih => exact .char hb ih
  | escaped hb _ ih => exact .escaped hb ih

lemma body_escape {b : UInt8} (hb : b ≠ 0) : LiteralBody (escape b) := by
  rcases escape_shape b hb with ⟨hesc, hquote, hback⟩ | ⟨c, hc, hesc, -, -⟩ | ⟨hesc, -⟩
  · rw [hesc]
    exact .char ⟨hb, hquote, hback⟩ .nil
  · have hne : c ≠ 0 := by
      rintro rfl
      exact absurd hc (by decide)
    rw [hesc]
    exact .escaped hne .nil
  · obtain ⟨hhigh, hlow⟩ := nibbles_lt b
    obtain ⟨-, hhigh34, hhigh0, hhigh92⟩ := hexDigit_hexLower _ hhigh
    obtain ⟨-, hlow34, hlow0, hlow92⟩ := hexDigit_hexLower _ hlow
    rw [hesc]
    exact .escaped (by decide) (.char (by decide) (.char (by decide)
      (.char ⟨hhigh0, hhigh34, hhigh92⟩ (.char ⟨hlow0, hlow34, hlow92⟩ .nil))))

lemma body_flatMap_escape {str : List UInt8} (hstr : (0 : UInt8) ∉ str) :
    LiteralBody (str.flatMap escape) := by
  induction str with
  | nil => exact .nil
  | cons b str ih =>
    rw [List.mem_cons, not_or] at hstr
    exact (body_escape (Ne.symm hstr.1)).append (ih hstr.2)

lemma minifies_quote {str : List UInt8} (hstr : (0 : UInt8) ∉ str) :
    Minifies (quote str) (quote str) :=
  .of_chunk (.literal (body_flatMap_escape hstr))

/-- A text without blanks, quotes and slashes. -/
def Plain (text : List UInt8) : Prop := ∀ b ∈ text, b ∉ ([0, 32, 9, 13, 10, 47, 34] : List UInt8)

instance (text : List UInt8) : Decidable (Plain text) :=
  inferInstanceAs (Decidable (∀ b ∈ text, b ∉ ([0, 32, 9, 13, 10, 47, 34] : List UInt8)))

lemma minifies_plain {text : List UInt8} (h : Plain text) : Minifies text text := by
  induction text with
  | nil => exact .nil
  | cons b text ih =>
    obtain ⟨hb, htext⟩ := List.forall_mem_cons.mp h
    exact .cons (.plain hb) (ih htext)

lemma minifies_blank {b : UInt8} (hb : b = 32 ∨ b = 9 ∨ b = 13 ∨ b = 10) :
    Minifies (blank true b) (blank false b) := .of_chunk (.blank hb)

lemma minifies_indent (depth : ℕ) : Minifies (indent true depth) (indent false depth) := by
  unfold indent tabs
  induction depth with
  | zero => exact .nil
  | succ depth ih => exact .cons (.blank (by decide)) ih

/-- A byte of the syntax and a blank behind it. -/
lemma minifies_cons_blank {c b : UInt8} (hc : c ∉ ([0, 32, 9, 13, 10, 47, 34] : List UInt8))
    (hb : b = 32 ∨ b = 9 ∨ b = 13 ∨ b = 10) :
    Minifies (c :: blank true b) (c :: blank false b) :=
  .cons (.plain hc) (minifies_blank hb)

lemma minifies_arrayText {entries : List (List UInt8 × List UInt8)}
    (h : ∀ e ∈ entries, Minifies e.1 e.2) :
    Minifies (arrayText true (entries.map Prod.fst)) (arrayText false (entries.map Prod.snd)) := by
  induction entries with
  | nil => exact .nil
  | cons entry entries ih =>
    rw [List.forall_mem_cons] at h
    cases entries with
    | nil => exact h.1
    | cons next entries =>
      rw [List.map_cons, List.map_cons, List.map_cons, List.map_cons, arrayText_cons_cons,
        arrayText_cons_cons]
      exact (h.1.append (minifies_cons_blank (by decide) (by decide))).append (ih h.2)

lemma minifies_memberText (depth : ℕ) {name text out : List UInt8} (hname : (0 : UInt8) ∉ name)
    (htext : Minifies text out) :
    Minifies (memberText true depth (quote name, text))
      (memberText false depth (quote name, out)) :=
  (((minifies_indent depth).append (minifies_quote hname)).append
    (minifies_cons_blank (by decide) (by decide))).append htext

lemma minifies_membersText (depth : ℕ) {members : List (List UInt8 × List UInt8 × List UInt8)}
    (h : ∀ m ∈ members, (0 : UInt8) ∉ m.1 ∧ Minifies m.2.1 m.2.2) :
    Minifies (membersText true depth (members.map fun m => (quote m.1, m.2.1)))
      (membersText false depth (members.map fun m => (quote m.1, m.2.2))) := by
  induction members with
  | nil => exact .nil
  | cons m members ih =>
    rw [List.forall_mem_cons] at h
    have hmember := minifies_memberText depth h.1.1 h.1.2
    cases members with
    | nil => exact hmember.append (minifies_blank (by decide))
    | cons next members =>
      rw [List.map_cons, List.map_cons, List.map_cons, List.map_cons, membersText_cons_cons,
        membersText_cons_cons]
      exact (hmember.append (minifies_cons_blank (by decide) (by decide))).append (ih h.2)

end Printed

section Values
variable {D : Type} (ops : DoubleOps D)

/-- The printed number of an item is plain. -/
def PlainNumber (fields : Fields D) (_ : List (Entity D)) : Prop :=
  fields.kind = .number → Plain (numberText ops fields.valueint fields.valuedouble)

lemma nul_notMem_bytesOf (s : Option CString) : (0 : UInt8) ∉ Entity.bytesOf s := by
  cases s with
  | none => exact List.not_mem_nil
  | some str => exact str.noNul

/-- Between the two texts of an item there are only blanks that `cJSON_Minify` takes away. -/
theorem minifies_text (item : Entity D) (hitem : item.All (PlainNumber ops)) (depth : ℕ) :
    Minifies (item.text ops true depth) (item.text ops false depth) := by
  induction item generalizing depth with
  | node fields child ih =>
    obtain ⟨hnumber, hbelow⟩ := Entity.all_node_iff.mp hitem
    unfold Entity.text
    cases hkind : fields.kind with
    | null => exact (minifies_plain (by decide +kernel) : Minifies nullText nullText)
    | false => exact (minifies_plain (by decide +kernel) : Minifies falseText falseText)
    | true => exact (minifies_plain (by decide +kernel) : Minifies trueText trueText)
    | number => exact minifies_plain (hnumber hkind)
    | string => exact minifies_quote (nul_notMem_bytesOf _)
    | array =>
      have hentries : ∀ e ∈ child.map fun c =>
          (c.text ops true (depth + 1), c.text ops false (depth + 1)), Minifies e.1 e.2 := by
        intro e he
        obtain ⟨c, hc, rfl⟩ := List.mem_map.mp he
        exact ih c hc (hbelow c hc) (depth + 1)
      have htexts : Minifies
          (arrayText true (child.map fun c => c.text ops true (depth + 1)))
          (arrayText false (child.map fun c => c.text ops false (depth + 1))) := by
        have harray := minifies_arrayText hentries
        rwa [List.map_map, List.map_map] at harray
      simp only [texts_eq]
      exact .cons (.plain (by decide)) (htexts.append (.of_chunk (.plain (by decide))))
    | object =>
      have hmembers : ∀ m ∈ child.map fun c => (Entity.bytesOf c.fields.string,
          c.text ops true (depth + 1), c.text ops false (depth + 1)),
          (0 : UInt8) ∉ m.1 ∧ Minifies m.2.1 m.2.2 := by
        intro m hm
        obtain ⟨c, hc, rfl⟩ := List.mem_map.mp hm
        exact ⟨nul_notMem_bytesOf _, ih c hc (hbelow c hc) (depth + 1)⟩
      have htexts : Minifies
          (membersText true (depth + 1) (child.map fun c =>
            (quote (Entity.bytesOf c.fields.string), c.text ops true (depth + 1))))
          (membersText false (depth + 1) (child.map fun c =>
            (quote (Entity.bytesOf c.fields.string), c.text ops false (depth + 1)))) := by
        have hobject := minifies_membersText (depth + 1) hmembers
        rwa [List.map_map, List.map_map] at hobject
      have hclose : Minifies [125] [125] := .of_chunk (.plain (by decide))
      have hlast := fun n => (minifies_indent n).append hclose
      simp only [memberTexts_eq]
      split
      · have hall := (minifies_cons_blank (c := 123) (b := 10) (by decide) (by decide)).append
          (hlast (depth - 1))
        unfold emptyObjectText
        simpa only [List.cons_append, List.append_assoc] using hall
      · have hall := (minifies_cons_blank (c := 123) (b := 10) (by decide) (by decide)).append
          (htexts.append (hlast depth))
        unfold objectText
        simpa only [List.cons_append, List.append_assoc, Nat.add_sub_cancel] using hall

/-- **A formatted text becomes the unformatted one**, in the place where it stands. -/
theorem minify_text (item : Entity D) (hitem : item.All (PlainNumber ops)) (rest : List UInt8) :
    ∃ gap, minify (item.text ops true 0 ++ 0 :: rest) =
        .ok (item.text ops false 0 ++ 0 :: (gap ++ rest)) ∧
      (item.text ops false 0).length + gap.length = (item.text ops true 0).length :=
  minify_of_minifies (minifies_text ops item hitem 0) rest

/-- The array of -5 and an empty object. -/
theorem minify_text_array :
    ∃ gap, minify ([91, 45, 53, 44, 32, 123, 10, 125, 93] ++ 0 :: [7]) =
        .ok ([91, 45, 53, 44, 123, 125, 93] ++ 0 :: (gap ++ [7])) ∧ 7 + gap.length = 9 := by
  refine minify_text intOps (.node ⟨.array, false, false, none, 0, 0, none⟩
    [.node ⟨.number, false, false, none, -5, -5, none⟩ [],
      .node ⟨.object, false, false, none, 0, 0, none⟩ []]) ?_ [7]
  refine .node (fun h => nomatch h) fun c hc => ?_
  simp only [List.mem_cons, List.not_mem_nil, or_false] at hc
  rcases hc with rfl | rfl
  · exact .node (fun _ => by decide +kernel) (by simp)
  · exact .node (fun h => nomatch h) (by simp)

end Values

end IpncRdk.CJson
