import IpncRdk.Lib.Lines

/-!
# Positioned files

A stream opened with `fopen`: the bytes before and behind its position, and the end-of-file
indicator.

* `fgets` — reading one line into a buffer;
* `rewind`, `fputs` — overwriting from the start;
* `fgets_line` — what a read yields where the text begins with a whole line;
* `readAll` — what the reads of a whole text yield, whatever its lines.
-/

namespace IpncRdk.Lib

/-- A file opened with `fopen`. Where `broken` is set, reading fails behind the last byte
instead of reaching the end of the file. -/
structure Stream where
  done : List UInt8
  rest : List UInt8
  eof : Bool
  broken : Bool

/-- A file opened at its start. -/
def fopen (content : List UInt8) : Stream where
  done := []
  rest := content
  eof := false
  broken := false

def Stream.content (fp : Stream) : List UInt8 := fp.done ++ fp.rest

/-- The bytes up to the first newline, `n` of them at most. -/
def takeLine : ℕ → List UInt8 → List UInt8
  | 0, _ => []
  | _ + 1, [] => []
  | n + 1, b :: bs => if b = lf then [b] else b :: takeLine n bs

/-- Reading `n` bytes up to the first newline asks for a byte behind the last one. -/
def runsOut : ℕ → List UInt8 → Bool
  | 0, _ => false
  | _ + 1, [] => true
  | n + 1, b :: bs => if b = lf then false else runsOut n bs

/-- `fgets(buffer, size, fp)`: what a zeroed buffer holds afterwards, and the stream. -/
def fgets (size : ℕ) (fp : Stream) : List UInt8 × Stream :=
  (takeLine (size - 1) fp.rest,
    { fp with
      done := fp.done ++ takeLine (size - 1) fp.rest
      rest := fp.rest.drop (takeLine (size - 1) fp.rest).length
      eof := fp.eof || (!fp.broken && runsOut (size - 1) fp.rest) })

/-- `fseek(fp, 0, SEEK_SET)`. -/
def rewind (fp : Stream) : Stream :=
  { fp with done := [], rest := fp.content, eof := false }

/-- `fputs(text, fp)`, which overwrites what lies behind the position. -/
def fputs (text : List UInt8) (fp : Stream) : Stream :=
  { fp with done := fp.done ++ text, rest := fp.rest.drop text.length }

/-! ## Reading line by line -/

lemma takeLine_line {l : List UInt8} (hl : IsLine l) {n : ℕ} (hlen : l.length ≤ n)
    (rest : List UInt8) : takeLine n (l ++ rest) = l ∧ runsOut n (l ++ rest) = false := by
  obtain ⟨body, rfl, hbody⟩ := hl
  induction body generalizing n with
  | nil =>
    obtain ⟨m, rfl⟩ : ∃ m, n = m + 1 := ⟨n - 1, by simp at hlen; omega⟩
    simp [takeLine, runsOut]
  | cons b bs ih =>
    rw [List.mem_cons, not_or] at hbody
    obtain ⟨m, rfl⟩ : ∃ m, n = m + 1 := ⟨n - 1, by simp at hlen; omega⟩
    have hlen' : (bs ++ [lf]).length ≤ m := by simpa using hlen
    obtain ⟨htake, hout⟩ := ih hbody.2 hlen'
    rw [List.cons_append, List.cons_append, takeLine, runsOut, if_neg (Ne.symm hbody.1),
      if_neg (Ne.symm hbody.1), htake, hout]
    exact ⟨rfl, rfl⟩

lemma takeLine_last {body : List UInt8} (hbody : lf ∉ body) {n : ℕ} (hlen : body.length < n) :
    takeLine n body = body ∧ runsOut n body = true := by
  induction body generalizing n with
  | nil =>
    obtain ⟨m, rfl⟩ : ∃ m, n = m + 1 := ⟨n - 1, by simp at hlen; omega⟩
    exact ⟨rfl, rfl⟩
  | cons b bs ih =>
    rw [List.mem_cons, not_or] at hbody
    obtain ⟨m, rfl⟩ : ∃ m, n = m + 1 := ⟨n - 1, by simp at hlen; omega⟩
    obtain ⟨htake, hout⟩ := ih hbody.2 (by simpa using hlen)
    rw [takeLine, runsOut, if_neg (Ne.symm hbody.1), if_neg (Ne.symm hbody.1), htake, hout]
    exact ⟨rfl, rfl⟩

/-- A line that does not fit is read up to the size of the buffer. -/
lemma takeLine_full {body : List UInt8} (hbody : lf ∉ body) {n : ℕ} (hlen : n ≤ body.length)
    (rest : List UInt8) :
    takeLine n (body ++ rest) = body.take n ∧ runsOut n (body ++ rest) = false := by
  induction n generalizing body with
  | zero => exact ⟨rfl, rfl⟩
  | succ n ih =>
    cases body with
    | nil => simp at hlen
    | cons b bs =>
      rw [List.mem_cons, not_or] at hbody
      obtain ⟨htake, hout⟩ := ih hbody.2 (by simpa using hlen)
      rw [List.cons_append, takeLine, runsOut, if_neg (Ne.symm hbody.1),
        if_neg (Ne.symm hbody.1), htake, hout]
      exact ⟨rfl, rfl⟩

/-- A line that fits the buffer is read whole. -/
lemma fgets_line {l : List UInt8} (hl : IsLine l) {size : ℕ} (hlen : l.length < size)
    (done rest : List UInt8) (eof broken : Bool) :
    fgets size ⟨done, l ++ rest, eof, broken⟩ = (l, ⟨done ++ l, rest, eof, broken⟩) := by
  obtain ⟨htake, hout⟩ := takeLine_line hl (by omega : l.length ≤ size - 1) rest
  unfold fgets
  simp [htake, hout]

/-- The bytes that a read takes, and those that it leaves. -/
lemma takeLine_append_drop (n : ℕ) (bytes : List UInt8) :
    takeLine n bytes ++ bytes.drop (takeLine n bytes).length = bytes := by
  induction n generalizing bytes with
  | zero => rfl
  | succ n ih =>
    cases bytes with
    | nil => rfl
    | cons b bs =>
      rw [takeLine]
      split
      · rfl
      · rw [List.cons_append, List.length_cons, List.drop_succ_cons, ih bs]

/-- Reading moves the position, and the content stays. -/
lemma content_fgets (size : ℕ) (fp : Stream) : (fgets size fp).2.content = fp.content := by
  unfold fgets Stream.content
  simp [takeLine_append_drop]

/-! ## Reading a whole text -/

/-- A read that meets the end of the file takes all that is left. -/
lemma takeLine_of_runsOut {n : ℕ} {bytes : List UInt8} (h : runsOut n bytes = true) :
    takeLine n bytes = bytes := by
  induction n generalizing bytes with
  | zero => cases h
  | succ n ih =>
    cases bytes with
    | nil => rfl
    | cons b bs =>
      rw [runsOut] at h
      rw [takeLine]
      split at h
      next => cases h
      next hb => rw [if_neg hb, ih h]

/-- A read that does not meet the end of the file takes a byte. -/
lemma takeLine_ne_nil {n : ℕ} {bytes : List UInt8} (h : runsOut (n + 1) bytes = false) :
    takeLine (n + 1) bytes ≠ [] := by
  cases bytes with
  | nil => cases h
  | cons b bs =>
    rw [takeLine]
    split <;> simp

lemma length_drop_takeLine_lt {n : ℕ} {bytes : List UInt8} (h : ¬ runsOut (n + 1) bytes = true) :
    (bytes.drop (takeLine (n + 1) bytes).length).length < bytes.length := by
  have htake := takeLine_ne_nil (Bool.not_eq_true _ ▸ h)
  have hpos : 0 < (takeLine (n + 1) bytes).length := List.length_pos_of_ne_nil htake
  have hlen := congrArg List.length (takeLine_append_drop (n + 1) bytes)
  rw [List.length_append] at hlen
  omega

/-- What reads into a buffer of `n + 2` bytes yield, up to the one that meets the end of the
file. -/
def readAll (n : ℕ) (bytes : List UInt8) : List (List UInt8) :=
  if runsOut (n + 1) bytes then [takeLine (n + 1) bytes]
  else takeLine (n + 1) bytes :: readAll n (bytes.drop (takeLine (n + 1) bytes).length)
termination_by bytes.length
decreasing_by exact length_drop_takeLine_lt ‹_›

section ReadAll
variable {n : ℕ}

/-- The last read. -/
lemma readAll_of_runsOut {bytes : List UInt8} (h : runsOut (n + 1) bytes = true) :
    readAll n bytes = [bytes] := by
  rw [readAll, if_pos h, takeLine_of_runsOut h]

lemma readAll_of_not_runsOut {bytes : List UInt8} (h : ¬ runsOut (n + 1) bytes = true) :
    readAll n bytes
      = takeLine (n + 1) bytes :: readAll n (bytes.drop (takeLine (n + 1) bytes).length) := by
  rw [readAll, if_neg h]

lemma fgets_of_runsOut {bytes : List UInt8} (h : runsOut (n + 1) bytes = true)
    (done : List UInt8) (eof : Bool) :
    fgets (n + 2) ⟨done, bytes, eof, false⟩ = (bytes, ⟨done ++ bytes, [], true, false⟩) := by
  unfold fgets
  simp [takeLine_of_runsOut h, h]

/-- Where reading fails instead, the flag of the end of the file stays. -/
lemma fgets_of_runsOut_broken {bytes : List UInt8} (h : runsOut (n + 1) bytes = true)
    (done : List UInt8) (eof : Bool) :
    fgets (n + 2) ⟨done, bytes, eof, true⟩ = (bytes, ⟨done ++ bytes, [], eof, true⟩) := by
  unfold fgets
  simp [takeLine_of_runsOut h]

lemma fgets_of_not_runsOut {bytes : List UInt8} (h : ¬ runsOut (n + 1) bytes = true)
    (done : List UInt8) (eof broken : Bool) :
    fgets (n + 2) ⟨done, bytes, eof, broken⟩
      = (takeLine (n + 1) bytes, ⟨done ++ takeLine (n + 1) bytes,
          bytes.drop (takeLine (n + 1) bytes).length, eof, broken⟩) := by
  unfold fgets
  simp [h]

/-- Reads take at least a byte each, but for the last. -/
lemma length_readAll_le (bytes : List UInt8) : (readAll n bytes).length ≤ bytes.length + 1 := by
  induction bytes using readAll.induct n with
  | case1 bytes h =>
    rw [readAll_of_runsOut h, List.length_singleton]
    omega
  | case2 bytes h ih =>
    have hlt := length_drop_takeLine_lt h
    rw [readAll_of_not_runsOut h, List.length_cons]
    omega

/-- A line that fits is read whole. -/
lemma readAll_line {l : List UInt8} (hl : IsLine l) (hlen : l.length ≤ n + 1)
    (rest : List UInt8) : readAll n (l ++ rest) = l :: readAll n rest := by
  obtain ⟨htake, hout⟩ := takeLine_line hl hlen rest
  rw [readAll_of_not_runsOut (by rw [hout]; exact Bool.false_ne_true), htake, List.drop_left]

/-- So is a last line without a newline. -/
lemma readAll_last {body : List UInt8} (hbody : lf ∉ body) (hlen : body.length < n + 1) :
    readAll n body = [body] := readAll_of_runsOut (takeLine_last hbody hlen).2

end ReadAll

/-- What a sequence of writes from the start leaves. -/
lemma content_fputs_rewind (fp : Stream) (text : List UInt8) :
    (fputs text (rewind fp)).content = text ++ fp.content.drop text.length := by
  simp [fputs, rewind, Stream.content]

end IpncRdk.Lib
