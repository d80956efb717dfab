import IpncRdk.OsaFile.Read

/-!
# Writing a file and reading it back

`OSA_fileWriteFile` writes in chunks of 96 KB and counts down in an `int`. It gives up at the first
chunk that `fwrite` does not take whole.

* `TakesAll` — `fwrite` takes every chunk;
* `writeLoop_spec` — what the loop leaves in the file, whether it does or not;
* `roundTrip` — what was written is what a read without a limit gives back.
-/

namespace IpncRdk.OsaFile

open Lib

/-- The chunk size of `OSA_fileWriteFile`. -/
def writeChunk : ChunkSize := ⟨96 * 1024, by decide⟩

/-- The loop: the bytes that get into the file, and `retVal`. The `i`th call of `fwrite` takes
`fwrite i` bytes at most. -/
def writeLoop (fwrite : ℕ → ℕ) (i : ℕ) (chunkSize : ChunkSize) (fileSize : ℕ)
    (curAddr : List UInt8) : List UInt8 × ℤ :=
  if _hrest : 0 < fileSize then
    let chunk := chunkSize.atMost fileSize
    let writeDataSize := min (fwrite i) chunk.bytes
    if writeDataSize ≠ chunk.bytes then (curAddr.take writeDataSize, osaEfail)
    else
      let r := writeLoop fwrite (i + 1) chunk (fileSize - chunk.bytes) (curAddr.drop chunk.bytes)
      (curAddr.take chunk.bytes ++ r.1, r.2)
  else ([], osaSok)
termination_by fileSize
decreasing_by
  have hpos := chunk.pos
  show fileSize - chunk.bytes < fileSize
  omega

/-- `OSA_fileWriteFile`: the status and the file. `fopen` empties the file or fails, and `addr`
holds the bytes from there on. -/
def osaFileWriteFile (fopen : Bool) (fwrite : ℕ → ℕ) (file : Option (List UInt8))
    (addr : List UInt8) (size : Uint32) : ℤ × Option (List UInt8) :=
  if size.val = 0 then (osaSok, file)
  else if fopen then
    -- `fileSize` is an `Int32`, and the loop asks whether it is positive
    let r := writeLoop fwrite 0 writeChunk (wrap32 size.val).toNat addr
    (r.2, some r.1)
  else (osaEfail, file)

/-- A byte sequence whose size fits an `Int32`. -/
structure Content where
  bytes : List UInt8
  size_pos : 0 < bytes.length
  size_lt : bytes.length < 2 ^ 31

def Content.size (data : Content) : Uint32 := ⟨data.bytes.length, by have := data.size_lt; omega⟩

/-! ## The property -/

/-- `fwrite` takes every chunk of `fileSize` bytes whole, from its `i`th call on. -/
def TakesAll (fwrite : ℕ → ℕ) (chunk i fileSize : ℕ) : Prop :=
  ∀ j, j * chunk < fileSize → min chunk (fileSize - j * chunk) ≤ fwrite (i + j)

/-- What is written can be read back, and a short write leaves a prefix. -/
structure RoundTrip (fwrite : ℕ → ℕ) (file : Option (List UInt8)) (data : Content) : Prop where
  written : TakesAll fwrite (96 * 1024) 0 data.bytes.length →
    (osaFileWriteFile true fwrite file data.bytes data.size).1 = osaSok ∧
    osaFileReadFile (osaFileWriteFile true fwrite file data.bytes data.size).2 0 =
      (osaSok, data.bytes, data.bytes.length)
  short : ¬ TakesAll fwrite (96 * 1024) 0 data.bytes.length →
    (osaFileWriteFile true fwrite file data.bytes data.size).1 = osaEfail ∧
    ∃ content, (osaFileWriteFile true fwrite file data.bytes data.size).2 = some content ∧
      content <+: data.bytes

/-! ## The loop -/

section Loop
variable {fwrite : ℕ → ℕ} {chunk i fileSize : ℕ} {chunkSize : ChunkSize} {curAddr : List UInt8}

/-- Every chunk is the next one or one of the rest. -/
lemma takesAll_iff (hrest : 0 < fileSize) : TakesAll fwrite chunk i fileSize ↔
    min chunk fileSize ≤ fwrite i ∧ TakesAll fwrite chunk (i + 1) (fileSize - chunk) := by
  constructor
  · intro h
    refine ⟨by simpa using h 0 (by omega), fun j hj => ?_⟩
    have hnext := h (j + 1) (by rw [Nat.succ_mul]; omega)
    rw [Nat.succ_mul, Nat.add_comm (j * chunk), ← Nat.sub_sub] at hnext
    rwa [Nat.add_assoc, Nat.add_comm 1 j]
  · rintro ⟨hfirst, hlater⟩ j hj
    cases j with
    | zero => simpa using hfirst
    | succ j =>
      rw [Nat.succ_mul] at hj
      have hnext := hlater j (by omega)
      rw [Nat.succ_mul, Nat.add_comm (j * chunk), ← Nat.sub_sub]
      rwa [Nat.add_assoc, Nat.add_comm 1 j] at hnext

lemma takesAll_zero (fwrite : ℕ → ℕ) (chunk i : ℕ) : TakesAll fwrite chunk i 0 :=
  fun j hj => absurd hj (Nat.not_lt_zero (j * chunk))

/-- The last chunk is smaller, and nothing is left after it. -/
lemma takesAll_atMost_iff (hrest : 0 < fileSize) : TakesAll fwrite chunkSize.bytes i fileSize ↔
    (chunkSize.atMost fileSize).bytes ≤ fwrite i ∧
      TakesAll fwrite (chunkSize.atMost fileSize).bytes (i + 1)
        (fileSize - (chunkSize.atMost fileSize).bytes) := by
  rw [takesAll_iff hrest, atMost_bytes hrest.ne']
  rcases le_total chunkSize.bytes fileSize with hle | hle
  · rw [min_eq_left hle]
  · rw [min_eq_right hle, Nat.sub_self, Nat.sub_eq_zero_of_le hle]
    simp only [takesAll_zero]

/-- The loop writes all the bytes, or it fails with some of the first. -/
lemma writeLoop_spec (fwrite : ℕ → ℕ) (i : ℕ) (chunkSize : ChunkSize) (curAddr : List UInt8) :
    (TakesAll fwrite chunkSize.bytes i curAddr.length →
      writeLoop fwrite i chunkSize curAddr.length curAddr = (curAddr, osaSok)) ∧
    (¬ TakesAll fwrite chunkSize.bytes i curAddr.length →
      (writeLoop fwrite i chunkSize curAddr.length curAddr).2 = osaEfail ∧
      (writeLoop fwrite i chunkSize curAddr.length curAddr).1 <+: curAddr) := by
  induction hlen : curAddr.length using Nat.strong_induction_on
    generalizing i chunkSize curAddr with
  | _ fileSize ih =>
    rw [writeLoop]
    rcases Nat.eq_zero_or_pos fileSize with rfl | hrest
    · rw [dif_neg (lt_irrefl 0), List.eq_nil_of_length_eq_zero hlen]
      exact ⟨fun _ => rfl, fun h => absurd (takesAll_zero _ _ _) h⟩
    rw [dif_pos hrest, takesAll_atMost_iff hrest]
    dsimp only
    generalize chunkSize.atMost fileSize = chunk
    have hpos := chunk.pos
    split_ifs with hshort
    · have hnot : ¬ chunk.bytes ≤ fwrite i := by omega
      exact ⟨fun h => absurd h.1 hnot, fun _ => ⟨rfl, List.take_prefix _ _⟩⟩
    · have hwhole : chunk.bytes ≤ fwrite i := by omega
      have hdrop : (curAddr.drop chunk.bytes).length = fileSize - chunk.bytes := by
        rw [List.length_drop, hlen]
      obtain ⟨hall, hfail⟩ := ih _ (by omega) (i + 1) chunk (curAddr.drop chunk.bytes) hdrop
      constructor
      · intro h
        rw [hall h.2, List.take_append_drop]
      · intro h
        obtain ⟨hstatus, tail, htail⟩ := hfail fun hrest' => h ⟨hwhole, hrest'⟩
        refine ⟨hstatus, tail, ?_⟩
        rw [List.append_assoc, htail, List.take_append_drop]

end Loop

/-! ## Both functions -/

section RoundTrip
variable {fwrite : ℕ → ℕ} {file : Option (List UInt8)} {data : Content}

/-- A file that can be opened holds what the loop leaves. -/
lemma write_eq (fwrite : ℕ → ℕ) (file : Option (List UInt8)) (data : Content) :
    osaFileWriteFile true fwrite file data.bytes data.size =
      ((writeLoop fwrite 0 writeChunk data.bytes.length data.bytes).2,
        some (writeLoop fwrite 0 writeChunk data.bytes.length data.bytes).1) := by
  have hlt := data.size_lt
  have hsize : (wrap32 data.size.val).toNat = data.bytes.length := by
    show (wrap32 (data.bytes.length : ℕ)).toNat = data.bytes.length
    rw [wrap32_of_bounds (by omega) (by omega), Int.toNat_natCast]
  unfold osaFileWriteFile
  rw [if_neg (show data.size.val ≠ 0 from data.size_pos.ne'), if_pos rfl, hsize]

/-- A read without a limit gives the whole file. -/
lemma read_eq {content : List UInt8} (hlen : content.length < 2 ^ 32) :
    osaFileReadFile (some content) 0 = (osaSok, content, content.length) := by
  obtain ⟨n, hn, heq⟩ := readLoop_eq 0 readChunk 0 content
  have hend : n = content.length := hn.ends.resolve_right fun hstop => hstop.1 rfl
  show (osaSok, readLoop 0 readChunk 0 content) = _
  rw [heq, hend, List.take_length, zero_add, Nat.mod_eq_of_lt hlen]

/-- **What is written can be read back, and a short write leaves a prefix.** For every content, and
however much `fwrite` takes at each of its calls. -/
theorem roundTrip (fwrite : ℕ → ℕ) (file : Option (List UInt8)) (data : Content) :
    RoundTrip fwrite file data := by
  have hlt := data.size_lt
  obtain ⟨hall, hfail⟩ := writeLoop_spec fwrite 0 writeChunk data.bytes
  have hwrite := write_eq fwrite file data
  constructor
  · intro htakes
    rw [hwrite, hall htakes]
    exact ⟨rfl, read_eq (show data.bytes.length < 2 ^ 32 by omega)⟩
  · intro hshort
    rw [hwrite]
    exact ⟨(hfail hshort).1, _, rfl, (hfail hshort).2⟩

end RoundTrip

/-- A chunk of 96 KB and a smaller one. -/
def twoChunks : Content where
  bytes := List.replicate 100000 7
  size_pos := by rw [List.length_replicate]; decide
  size_lt := by rw [List.length_replicate]; decide

/-- Two chunks are written and read back, and a second one that is cut short is reported. -/
theorem twoChunks_roundTrip :
    (osaFileWriteFile true (fun _ => 96 * 1024) none twoChunks.bytes twoChunks.size).1 = osaSok ∧
    osaFileReadFile
        (osaFileWriteFile true (fun _ => 96 * 1024) none twoChunks.bytes twoChunks.size).2 0
      = (osaSok, twoChunks.bytes, 100000) ∧
    (osaFileWriteFile true (fun i => if i = 0 then 96 * 1024 else 1000) none twoChunks.bytes
      twoChunks.size).1 = osaEfail := by
  have hlen : twoChunks.bytes.length = 100000 := List.length_replicate
  have hwhole : TakesAll (fun _ => 96 * 1024) (96 * 1024) 0 twoChunks.bytes.length :=
    fun j _ => min_le_left _ _
  have hcut : ¬ TakesAll (fun i => if i = 0 then 96 * 1024 else 1000) (96 * 1024) 0
      twoChunks.bytes.length := by
    intro h
    have hsecond := h 1 (by rw [hlen]; decide)
    rw [hlen] at hsecond
    exact absurd hsecond (by decide)
  obtain ⟨hstatus, hread⟩ := (roundTrip (fun _ => 96 * 1024) none twoChunks).written hwhole
  rw [hlen] at hread
  exact ⟨hstatus, hread, ((roundTrip _ none twoChunks).short hcut).1⟩

end IpncRdk.OsaFile
