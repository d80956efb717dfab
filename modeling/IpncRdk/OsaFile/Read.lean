import Mathlib.Tactic.Ring
import IpncRdk.Lib.CSemantics

/-!
# `osa_file.c`: reading a file

`OSA_fileReadFile` reads in chunks of 100 KB, or of the limit where that is smaller. It stops at a
chunk that comes back short, and at a total that is equal to the limit. The total is counted in 32
bits.

* `StopsAt`, `ReadsTo` — where the loop stops;
* `readLoop_eq` — it stops there;
* `Bounded` — what a limit should mean;
* `bounded_iff` — exactly the limits of at most a chunk, the multiples of one, and the files that
  end before the limit.
-/

namespace IpncRdk.OsaFile

/-- `OSA_SOK` -/
abbrev osaSok : ℤ := 0

/-- `OSA_EFAIL` -/
abbrev osaEfail : ℤ := -1

/-- A `Uint32`. -/
abbrev Uint32 : Type := Fin (2 ^ 32)

/-- The number of bytes asked for at once, which is never 0. -/
structure ChunkSize where
  bytes : ℕ
  pos : 0 < bytes

/-- The chunk size of `OSA_fileReadFile`. -/
def readChunk : ChunkSize := ⟨1024 * 100, by decide⟩

/-- The chunk size is at most the limit, where there is one. -/
def ChunkSize.atMost (chunkSize : ChunkSize) (userReadSize : ℕ) : ChunkSize :=
  if h : userReadSize ≠ 0 ∧ chunkSize.bytes > userReadSize then
    ⟨userReadSize, Nat.pos_of_ne_zero h.1⟩
  else chunkSize

/-- The loop: the bytes it stores at `curAddr`, one after another, and `fileSize`. `rest` is what
the file has from the current position on, and `fread` gives as much of it as there is. -/
def readLoop (userReadSize : ℕ) (chunkSize : ChunkSize) (fileSize : ℕ) (rest : List UInt8) :
    List UInt8 × ℕ :=
  let chunk := chunkSize.atMost userReadSize
  let data := rest.take chunk.bytes
  let total := (fileSize + data.length) % 2 ^ 32
  if _hshort : chunk.bytes ≠ data.length then (data, total)
  else if userReadSize ≠ 0 ∧ userReadSize = total then (data, total)
  else
    let r := readLoop userReadSize chunk total (rest.drop chunk.bytes)
    (data ++ r.1, r.2)
termination_by rest.length
decreasing_by
  have hpos := chunk.pos
  have hlen : chunk.bytes = data.length := not_not.mp _hshort
  rw [List.length_take] at hlen
  show (rest.drop chunk.bytes).length < rest.length
  rw [List.length_drop]
  omega

/-- `OSA_fileReadFile` of a file, `none` where `fopen` finds none: the status, the bytes stored from
`addr` on, and `*actualReadSize`. -/
def osaFileReadFile (file : Option (List UInt8)) (readSize : Uint32) : ℤ × List UInt8 × ℕ :=
  match file with
  | none => (osaEfail, [], 0)
  | some content =>
    let r := readLoop readSize.val readChunk 0 content
    (osaSok, r.1, r.2)

/-! ## Where the loop stops -/

section Loop
variable {userReadSize fileSize n : ℕ} {chunkSize : ChunkSize} {rest : List UInt8}

/-- After `n` bytes, a number of whole chunks, the total is the limit. -/
def StopsAt (userReadSize chunk fileSize n : ℕ) : Prop :=
  userReadSize ≠ 0 ∧ userReadSize = (fileSize + n) % 2 ^ 32 ∧ 0 < n ∧ chunk ∣ n

/-- The loop reads `n` bytes: it stops where the total is the limit, or where the file ends. -/
structure ReadsTo (userReadSize chunk fileSize : ℕ) (rest : List UInt8) (n : ℕ) : Prop where
  le : n ≤ rest.length
  ends : n = rest.length ∨ StopsAt userReadSize chunk fileSize n
  first : ∀ m < n, ¬ StopsAt userReadSize chunk fileSize m

lemma atMost_atMost (chunkSize : ChunkSize) (userReadSize : ℕ) :
    (chunkSize.atMost userReadSize).atMost userReadSize = chunkSize.atMost userReadSize := by
  unfold ChunkSize.atMost
  split_ifs with h h'
  · exact absurd h'.2 (lt_irrefl _)
  · rfl
  · rfl

lemma atMost_bytes (h : userReadSize ≠ 0) :
    (chunkSize.atMost userReadSize).bytes = min chunkSize.bytes userReadSize := by
  unfold ChunkSize.atMost
  split_ifs with hgt
  · exact (min_eq_right hgt.2.le).symm
  · exact (min_eq_left (not_lt.mp fun hgt' => hgt ⟨h, hgt'⟩)).symm

/-- A stop in the rest of the file is a stop in the whole of it. -/
lemma stopsAt_add {chunk : ℕ} (hpos : 0 < chunk) (hn : 0 < n) :
    StopsAt userReadSize chunk fileSize (chunk + n) ↔
      StopsAt userReadSize chunk ((fileSize + chunk) % 2 ^ 32) n := by
  unfold StopsAt
  rw [Nat.mod_add_mod, ← add_assoc, Nat.dvd_add_right (dvd_refl chunk)]
  simp only [hn, Nat.add_pos_left hpos n]

lemma not_stopsAt_of_lt {chunk : ℕ} (h : n < chunk) : ¬ StopsAt userReadSize chunk fileSize n :=
  fun ⟨_, _, hpos, hdvd⟩ => absurd (Nat.le_of_dvd hpos hdvd) (not_le.mpr h)

/-- The loop stops at the first place where it can. -/
lemma readLoop_eq (userReadSize : ℕ) (chunkSize : ChunkSize) (fileSize : ℕ) (rest : List UInt8) :
    ∃ n, ReadsTo userReadSize (chunkSize.atMost userReadSize).bytes fileSize rest n ∧
      readLoop userReadSize chunkSize fileSize rest =
        (rest.take n, (fileSize + n) % 2 ^ 32) := by
  induction hlen : rest.length using Nat.strong_induction_on
    generalizing chunkSize fileSize rest with
  | _ len ih =>
    rw [readLoop]
    dsimp only
    generalize hchunk : chunkSize.atMost userReadSize = chunk
    have hpos := chunk.pos
    rw [List.length_take, hlen]
    split_ifs with hshort hstop
    · have hlt : len < chunk.bytes := by omega
      refine ⟨len, ⟨hlen.ge, .inl hlen.symm, fun m hm => not_stopsAt_of_lt (hm.trans hlt)⟩, ?_⟩
      rw [List.take_of_length_le (by omega), List.take_of_length_le hlen.le, min_eq_right hlt.le]
    · have hle : chunk.bytes ≤ len := by omega
      rw [min_eq_left hle] at hstop ⊢
      refine ⟨chunk.bytes, ⟨hlen ▸ hle, .inr ⟨hstop.1, hstop.2, hpos, dvd_refl _⟩,
        fun m hm => not_stopsAt_of_lt hm⟩, rfl⟩
    · have hle : chunk.bytes ≤ len := by omega
      rw [min_eq_left hle] at hstop ⊢
      have hdrop : (rest.drop chunk.bytes).length = len - chunk.bytes := by
        rw [List.length_drop, hlen]
      obtain ⟨n, hn, heq⟩ := ih (len - chunk.bytes) (by omega) chunk
        ((fileSize + chunk.bytes) % 2 ^ 32) (rest.drop chunk.bytes) hdrop
      have hatMost : chunk.atMost userReadSize = chunk := by
        rw [← hchunk, atMost_atMost]
      rw [hatMost] at hn
      rw [heq]
      refine ⟨chunk.bytes + n, ⟨?_, ?_, fun m hm => ?_⟩, ?_⟩
      · have hle' := hn.le
        omega
      · rcases hn.ends with hend | hend
        · exact .inl (by omega)
        · exact .inr ((stopsAt_add hpos hend.2.2.1).mpr hend)
      · rcases lt_trichotomy m chunk.bytes with hm' | rfl | hm'
        · exact not_stopsAt_of_lt hm'
        · exact fun h => hstop ⟨h.1, h.2.1⟩
        · obtain ⟨k, rfl⟩ := Nat.exists_eq_add_of_lt hm'
          rw [add_assoc, stopsAt_add hpos (Nat.succ_pos k)]
          exact hn.first (k + 1) (by omega)
      · rw [List.take_add, Nat.mod_add_mod, add_assoc]

end Loop

/-! ## The property -/

section Limit
variable {content : List UInt8} {readSize : Uint32} {n : ℕ}

/-- The first bytes of the file are stored, up to the limit, and their number is reported. -/
def Bounded (content : List UInt8) (readSize : Uint32) : Prop :=
  osaFileReadFile (some content) readSize =
    (osaSok, content.take readSize.val, min readSize.val content.length)

/-- The limit is at most one chunk, or a number of whole chunks, or not before the end of the
file. -/
def Honoured (content : List UInt8) (readSize : Uint32) : Prop :=
  readSize.val ≤ 1024 * 100 ∨ 1024 * 100 ∣ readSize.val ∨ content.length ≤ readSize.val

/-- The limit is honoured exactly if the loop reads up to it. -/
lemma bounded_iff_reads
    (hn : ReadsTo readSize.val (readChunk.atMost readSize.val).bytes 0 content n)
    (heq : readLoop readSize.val readChunk 0 content = (content.take n, (0 + n) % 2 ^ 32)) :
    Bounded content readSize ↔ n ≤ readSize.val ∧ n = min readSize.val content.length := by
  have hle := hn.le
  have hlt := readSize.isLt
  unfold Bounded osaFileReadFile
  dsimp only
  rw [heq]
  constructor
  · intro h
    have htake : content.take n = content.take readSize.val := congrArg (fun r => r.2.1) h
    rw [List.take_eq_take_iff] at htake
    exact ⟨by omega, by omega⟩
  · rintro ⟨hn', hmin⟩
    have htake : content.take n = content.take readSize.val := by
      rw [List.take_eq_take_iff]
      omega
    rw [htake, zero_add, Nat.mod_eq_of_lt (by omega), ← hmin]

/-- A limit that is a number of chunks is a place to stop. -/
lemma stopsAt_limit {chunk : ℕ} (hpos : readSize.val ≠ 0) (hdvd : chunk ∣ readSize.val) :
    StopsAt readSize.val chunk 0 readSize.val := by
  refine ⟨hpos, ?_, Nat.pos_of_ne_zero hpos, hdvd⟩
  rw [zero_add, Nat.mod_eq_of_lt readSize.isLt]

/-- A limit that is not honoured is not there at all: the whole file is stored. -/
lemma read_of_not_honoured (h : ¬ Honoured content readSize) (hlen : content.length < 2 ^ 32) :
    osaFileReadFile (some content) readSize = (osaSok, content, content.length) := by
  unfold Honoured at h
  push Not at h
  obtain ⟨hbig, hdvd, hlong⟩ := h
  obtain ⟨n, hn, heq⟩ := readLoop_eq readSize.val readChunk 0 content
  rw [atMost_bytes (by omega)] at hn
  have hend : n = content.length := by
    have hle := hn.le
    refine hn.ends.resolve_right fun hstop => hdvd ?_
    have hlimit := hstop.2.1
    rw [zero_add, Nat.mod_eq_of_lt (by omega)] at hlimit
    have hdvd' := hstop.2.2.2
    rwa [← hlimit, show min readChunk.bytes readSize.val = 1024 * 100 from min_eq_left hbig.le]
      at hdvd'
  unfold osaFileReadFile
  dsimp only
  rw [heq, hend, List.take_length, zero_add, Nat.mod_eq_of_lt hlen]

/-- **Exactly which limits are honoured.** For every file and every limit. -/
theorem bounded_iff (content : List UInt8) (readSize : Uint32) (hpos : readSize.val ≠ 0) :
    Bounded content readSize ↔ Honoured content readSize := by
  obtain ⟨n, hn, heq⟩ := readLoop_eq readSize.val readChunk 0 content
  have hlt := readSize.isLt
  have hle := hn.le
  have hchunk : (readChunk.atMost readSize.val).bytes = min (1024 * 100) readSize.val :=
    atMost_bytes hpos
  rw [bounded_iff_reads hn heq]
  rw [hchunk] at hn
  unfold Honoured
  constructor
  · rintro ⟨-, hmin⟩
    by_contra! hnot
    obtain ⟨hbig, hdvd, hlong⟩ := hnot
    rw [min_eq_left hlong.le] at hmin
    rcases hn.ends with hend | hstop
    · omega
    · rw [min_eq_left hbig.le] at hstop
      exact hdvd (hmin ▸ hstop.2.2.2)
  · intro h
    have hn' : n ≤ readSize.val := by
      rcases h with hsmall | hdvd | hshort
      · refine not_lt.mp fun hover => hn.first _ hover (stopsAt_limit hpos ?_)
        rw [min_eq_right hsmall]
      · refine not_lt.mp fun hover => hn.first _ hover (stopsAt_limit hpos ?_)
        exact (min_eq_left (Nat.le_of_dvd (Nat.pos_of_ne_zero hpos) hdvd)).symm ▸ hdvd
      · exact hle.trans hshort
    refine ⟨hn', ?_⟩
    rcases hn.ends with hend | hstop
    · omega
    · have hstop' := hstop.2.1
      rw [zero_add, Nat.mod_eq_of_lt (by omega)] at hstop'
      omega

/-- A file within the limit. -/
theorem shortFile_bounded : Bounded [1, 2, 3] 4 :=
  (bounded_iff [1, 2, 3] 4 (by decide)).mpr (.inl (by decide))

/-- A limit of 150000 bytes and a file of 300000: the whole file is stored. -/
theorem longFile_not_bounded : ¬ Bounded (List.replicate 300000 0) 150000 ∧
    osaFileReadFile (some (List.replicate 300000 0)) 150000 =
      (osaSok, List.replicate 300000 0, 300000) := by
  have hnot : ¬ Honoured (List.replicate 300000 0) 150000 := by
    unfold Honoured
    rw [List.length_replicate]
    decide
  have hlen : (List.replicate 300000 (0 : UInt8)).length = 300000 := List.length_replicate
  refine ⟨fun h => hnot ((bounded_iff _ _ (by decide)).mp h), ?_⟩
  rw [read_of_not_honoured hnot (by rw [hlen]; decide), hlen]

end Limit

end IpncRdk.OsaFile
