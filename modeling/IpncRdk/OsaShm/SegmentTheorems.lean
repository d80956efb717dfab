import IpncRdk.OsaShm.Segment

/-!
# Which calls stay in the shared segment

`OSA_shmWrite` and `OSA_shmRead` ask for a start that is not negative and an end within the recorded
size, which is 28 bytes too large; nothing asks whether `len` is negative. The sums are `int`s and
wrap around. The FIFO calls trust the cursors of the header, and a capacity that leaves no room for
the header.

* `StaysInside` — what is asked of a call;
* `Fits` — the condition on its arguments, the sizes and the header;
* `calls_stayInside_iff` — a run stays inside exactly if all its calls fit;
* `view_fifoWrite`, `view_fifoRead` — what has a result as a FIFO has the same as bytes.
-/

namespace IpncRdk.OsaShm.Segment

open Lib

/-! ## The property -/

/-- The lengths and sums that should be refused. -/
def Excess (s : Segment) : Call → Prop
  | .shmWrite start _ len | .shmRead start _ len =>
    len.toInt < 0 ∨ 2 ^ 31 ≤ start.toInt + len.toInt
  | .fifoWrite _ len => len.toInt < 0 ∨ 2 ^ 31 ≤ s.fifo.curWr + len.toInt
  | .fifoRead _ len => len.toInt < 0

/-- A call refuses what it should, and otherwise copies within the segment no more than `len`
bytes. -/
def StaysInside (s : Segment) (c : Call) : Prop :=
  ∃ done, s.call c = .ok done ∧ (s.Excess c → done.1.ret = some (-1)) ∧
    (done.1.ret ≠ some (-1) → done.1.moved.length ≤ c.len)

/-- The end is beyond the recorded size, or it is an `int` and within the segment. -/
def RangeFits (s : Segment) (start len : ℤ) : Prop :=
  s.size < wrap32 (start + len) ∨
    start + len < 2 ^ 31 ∧ (len = 0 ∨ 0 < len ∧ start + len ≤ s.bytes)

/-- What is written behind the write cursor, up to the capacity, lies in the segment. -/
def WriteFits (s : Segment) (len : ℤ) : Prop :=
  s.fifo.curWr + len < 2 ^ 31 ∧
    if s.fifo.capacity < s.fifo.curWr + len then
      s.fifo.curWr = s.fifo.capacity ∨ 0 ≤ sizeofFifo + s.fifo.curWr ∧
        s.fifo.curWr < s.fifo.capacity ∧ sizeofFifo + s.fifo.capacity ≤ s.bytes
    else
      min len s.fifo.capacity = 0 ∨ 0 ≤ sizeofFifo + s.fifo.curWr ∧ 0 < min len s.fifo.capacity ∧
        sizeofFifo + s.fifo.curWr + min len s.fifo.capacity ≤ s.bytes

/-- What is read lies in the segment. A read past the end takes as much as there is room behind the
write cursor, and that has to be no more than it asks for. -/
def ReadFits (s : Segment) (len : ℤ) : Prop :=
  if s.fifo.capacity < wrap32 (s.fifo.curRd + len) then
    s.fifo.capacity = s.fifo.curWr ∨ 0 ≤ sizeofFifo + s.fifo.curRd ∧
      0 < wrap32 (s.fifo.capacity - s.fifo.curWr) ∧ wrap32 (s.fifo.capacity - s.fifo.curWr) ≤ len ∧
      sizeofFifo + s.fifo.curRd + wrap32 (s.fifo.capacity - s.fifo.curWr) ≤ s.bytes
  else
    min len s.fifo.use = 0 ∨ 0 ≤ sizeofFifo + s.fifo.curRd ∧ 0 < min len s.fifo.use ∧
      sizeofFifo + s.fifo.curRd + min len s.fifo.use ≤ s.bytes

/-- The calls that are refused for their pointer, their start or their length or by a flag, and
those whose bytes lie in the segment. -/
def Fits (s : Segment) : Call → Prop
  | .shmWrite start addr len => addr = none ∨ start.toInt < 0 ∨ s.RangeFits start.toInt len.toInt
  | .shmRead start addr len => addr = false ∨ start.toInt < 0 ∨ s.RangeFits start.toInt len.toInt
  | .fifoWrite addr len =>
    addr = none ∨ len.toInt < 0 ∨ s.fifo.isFull = true ∨ s.WriteFits len.toInt
  | .fifoRead addr len =>
    addr = false ∨ len.toInt < 0 ∨ s.fifo.isEmpty = true ∨ s.ReadFits len.toInt

/-! ## The calls -/

section Calls
variable {s : Segment} {c : Call} {off n : ℤ} {done : Reply × Segment}

lemma staysInside_of_refusal (hcall : s.call c = .ok (refusal, s)) : s.StaysInside c :=
  ⟨(refusal, s), hcall, fun _ => rfl, fun h => absurd rfl h⟩

/-- A call that copies has to do so within the segment, and only where it should. -/
lemma staysInside_copying (hcall : s.call c = s.copying off n done)
    (hret : s.Inside off n → done.1.ret ≠ some (-1)) (hmoved : done.1.moved.length = n.toNat) :
    s.StaysInside c ↔ s.Inside off n ∧ ¬ s.Excess c ∧ n ≤ c.len := by
  unfold StaysInside
  rw [hcall]
  unfold copying
  constructor
  · rintro ⟨done', hdone, hexcess, hlen⟩
    split_ifs at hdone with hin
    cases hdone
    have hlen := hlen (hret hin)
    rw [hmoved] at hlen
    exact ⟨hin, fun h => hret hin (hexcess h), by omega⟩
  · rintro ⟨hin, hexcess, hlen⟩
    rw [if_pos hin]
    refine ⟨done, rfl, fun h => absurd h hexcess, fun _ => ?_⟩
    rw [hmoved]
    rcases hin with rfl | hin <;> omega

lemma staysInside_shmWrite (s : Segment) (start : Int32) (addr : Option (ℕ → UInt8))
    (len : Int32) :
    s.StaysInside (.shmWrite start addr len) ↔ s.Fits (.shmWrite start addr len) := by
  cases addr with
  | none => exact iff_of_true (staysInside_of_refusal rfl) (.inl rfl)
  | some src =>
    have hcall : s.call (.shmWrite start (some src) len) =
      s.osaShmWrite start.toInt (some src) len.toInt := rfl
    unfold osaShmWrite at hcall
    unfold Fits RangeFits
    simp only [reduceCtorEq, false_or]
    split_ifs at hcall with hstart hend
    · exact iff_of_true (staysInside_of_refusal hcall) (.inl hstart)
    · exact iff_of_true (staysInside_of_refusal hcall) (.inr (.inl hend))
    · rw [staysInside_copying hcall (fun _ => by simp) (by simp)]
      simp only [Inside, Excess, Call.len]
      omega

lemma staysInside_shmRead (s : Segment) (start : Int32) (addr : Bool) (len : Int32) :
    s.StaysInside (.shmRead start addr len) ↔ s.Fits (.shmRead start addr len) := by
  have hcall : s.call (.shmRead start addr len) =
    s.osaShmRead start.toInt addr len.toInt := rfl
  unfold osaShmRead at hcall
  unfold Fits RangeFits
  split_ifs at hcall with hstart hend
  · exact iff_of_true (staysInside_of_refusal hcall) (by tauto)
  · exact iff_of_true (staysInside_of_refusal hcall) (.inr (.inr (.inl hend)))
  · rw [staysInside_copying hcall (fun _ => by simp) (by simp)]
    have haddr : ¬ addr = false := fun h => hstart (.inr h)
    simp only [haddr, Bool.true_eq_false, false_or, Inside, Excess, Call.len]
    omega

/-- The header holds ints. -/
lemma getInt_bounds (mem : ℕ → UInt8) (off : ℕ) :
    -2 ^ 31 ≤ getInt mem off ∧ getInt mem off < 2 ^ 31 :=
  ⟨wrap32_lo _, wrap32_hi _⟩

lemma curWr_bounds (s : Segment) : -2 ^ 31 ≤ s.fifo.curWr ∧ s.fifo.curWr < 2 ^ 31 := by
  simp only [fifo, header]
  exact getInt_bounds s.mem 4

lemma capacity_bounds (s : Segment) : -2 ^ 31 ≤ s.fifo.capacity ∧ s.fifo.capacity < 2 ^ 31 := by
  simp only [fifo, header]
  exact getInt_bounds s.mem 12

/-- The size of a write that passes the end is what is left up to the capacity. -/
lemma inside_room {cap wr len : ℤ} (hcap : -2 ^ 31 ≤ cap ∧ cap < 2 ^ 31)
    (hwr : -2 ^ 31 ≤ wr ∧ wr < 2 ^ 31) (hpast : cap < wr + len) :
    s.Inside (sizeofFifo + wr) (wrap32 (cap - wr)) ∧ wrap32 (cap - wr) ≤ len ↔
      wr = cap ∨ 0 ≤ sizeofFifo + wr ∧ wr < cap ∧ sizeofFifo + cap ≤ s.bytes := by
  have hbytes := s.bytes_lt
  simp only [Inside, sizeofFifo]
  rcases lt_or_ge (cap - wr) (-2 ^ 31) with hlo | hlo
  · rw [wrap32_of_lt hlo (by omega)]
    omega
  · rcases lt_or_ge (cap - wr) (2 ^ 31) with hhi | hhi
    · rw [wrap32_of_bounds hlo hhi]
      omega
    · rw [wrap32_of_ge hhi (by omega)]
      omega

lemma writeSize_past {f : Fifo} {len : ℤ} (hpast : f.capacity < wrap32 (f.curWr + len)) :
    writeSize f len = wrap32 (f.capacity - f.curWr) := by
  unfold writeSize writePastEnd
  rw [decide_eq_true hpast, if_pos rfl]

lemma writeSize_before {f : Fifo} {len : ℤ} (hbefore : ¬ f.capacity < wrap32 (f.curWr + len)) :
    writeSize f len = min len f.capacity := by
  unfold writeSize writePastEnd
  rw [decide_eq_false hbefore, if_neg Bool.false_ne_true]
  split_ifs <;> omega

lemma readSize_past {f : Fifo} {len : ℤ} (hpast : f.capacity < wrap32 (f.curRd + len)) :
    readSize f len = wrap32 (f.capacity - f.curWr) := by
  unfold readSize readPastEnd
  rw [decide_eq_true hpast, if_pos rfl]

lemma readSize_before {f : Fifo} {len : ℤ} (hbefore : ¬ f.capacity < wrap32 (f.curRd + len)) :
    readSize f len = min len f.use := by
  unfold readSize readPastEnd
  rw [decide_eq_false hbefore, if_neg Bool.false_ne_true]
  split_ifs <;> omega

/-- The copy of a write that is not refused. -/
lemma writeFits_iff {len : ℤ} (hlen : 0 ≤ len) :
    s.Inside (sizeofFifo + s.fifo.curWr) (writeSize s.fifo len) ∧
      ¬ (len < 0 ∨ 2 ^ 31 ≤ s.fifo.curWr + len) ∧ writeSize s.fifo len ≤ len ↔
      s.WriteFits len := by
  have hwr := s.curWr_bounds
  have hcap := s.capacity_bounds
  unfold WriteFits
  rcases lt_or_ge (s.fifo.curWr + len) (2 ^ 31) with hint | hint
  · have hsum : wrap32 (s.fifo.curWr + len) = s.fifo.curWr + len :=
      wrap32_of_bounds (by omega) hint
    have hexcess : ¬ (len < 0 ∨ 2 ^ 31 ≤ s.fifo.curWr + len) := by omega
    simp only [hint, hexcess, not_false_eq_true, true_and]
    split_ifs with hpast
    · rw [writeSize_past (by rwa [hsum])]
      exact inside_room hcap hwr hpast
    · rw [writeSize_before (by rwa [hsum])]
      simp only [Inside]
      omega
  · have hexcess : len < 0 ∨ 2 ^ 31 ≤ s.fifo.curWr + len := .inr hint
    exact iff_of_false (fun h => h.2.1 hexcess) (fun h => absurd h.1 (not_lt.mpr hint))

/-- The copy of a read that is not refused. -/
lemma readFits_iff {len : ℤ} (hlen : 0 ≤ len) :
    s.Inside (sizeofFifo + s.fifo.curRd) (readSize s.fifo len) ∧ ¬ len < 0 ∧
      readSize s.fifo len ≤ len ↔ s.ReadFits len := by
  have hwr := s.curWr_bounds
  have hcap := s.capacity_bounds
  unfold ReadFits
  split_ifs with hpast
  · rw [readSize_past hpast]
    have hzero : wrap32 (s.fifo.capacity - s.fifo.curWr) = 0 ↔
        s.fifo.capacity - s.fifo.curWr = 0 := wrap32_eq_zero (by omega) (by omega)
    simp only [Inside]
    omega
  · rw [readSize_before hpast]
    simp only [Inside]
    omega

lemma staysInside_fifoWrite (s : Segment) (addr : Option (ℕ → UInt8)) (len : Int32) :
    s.StaysInside (.fifoWrite addr len) ↔ s.Fits (.fifoWrite addr len) := by
  cases addr with
  | none => exact iff_of_true (staysInside_of_refusal rfl) (.inl rfl)
  | some src =>
    have hcall : s.call (.fifoWrite (some src) len) =
      s.osaFifoWrite (some src) len.toInt := rfl
    unfold osaFifoWrite at hcall
    dsimp only at hcall
    unfold Fits
    simp only [reduceCtorEq, false_or]
    by_cases hneg : len.toInt < 0
    · rw [if_pos hneg] at hcall
      exact iff_of_true (staysInside_of_refusal hcall) (.inl hneg)
    by_cases hfull : s.fifo.isFull = true
    · rw [if_neg hneg, if_pos hfull] at hcall
      exact iff_of_true (staysInside_of_refusal hcall) (.inr (.inl hfull))
    rw [if_neg hneg, if_neg hfull] at hcall
    simp only [hneg, hfull, Bool.false_eq_true, false_or]
    rw [staysInside_copying hcall (fun hin hret => ?_) (by simp)]
    · exact writeFits_iff (not_lt.mp hneg)
    · -- the size of a copy inside the segment is not negative
      have hsize := Option.some.inj hret
      rcases hin with hin | hin <;> omega

lemma staysInside_fifoRead (s : Segment) (addr : Bool) (len : Int32) :
    s.StaysInside (.fifoRead addr len) ↔ s.Fits (.fifoRead addr len) := by
  have hcall : s.call (.fifoRead addr len) = s.osaFifoRead addr len.toInt := rfl
  unfold osaFifoRead at hcall
  unfold Fits
  by_cases hbad : addr = false ∨ len.toInt < 0
  · rw [if_pos hbad] at hcall
    exact iff_of_true (staysInside_of_refusal hcall) (hbad.imp_right .inl)
  obtain ⟨haddr, hneg⟩ := not_or.mp hbad
  by_cases hempty : s.fifo.isEmpty = true
  · rw [if_neg hbad, if_pos hempty] at hcall
    refine iff_of_true ⟨_, hcall, fun hexcess => absurd hexcess hneg, fun _ => ?_⟩
      (.inr (.inr (.inl hempty)))
    exact not_lt.mp hneg
  rw [if_neg hbad, if_neg hempty] at hcall
  simp only [eq_false haddr, hneg, hempty, Bool.false_eq_true, false_or]
  rw [staysInside_copying hcall (fun hin hret => ?_) (by simp)]
  · exact readFits_iff (not_lt.mp hneg)
  · have hsize := Option.some.inj hret
    rcases hin with hin | hin <;> omega

/-- **Exactly which runs stay inside.** For every segment, whatever is in its header, and every
sequence of calls. -/
theorem calls_stayInside_iff (s : Segment) (calls : List Call) :
    EveryStep step StaysInside s calls ↔ EveryStep step Fits s calls := by
  refine everyStep_iff_of_invariant (I := fun _ => True) (fun s c _ => ?_)
    (fun _ _ _ _ _ _ => trivial) calls trivial
  cases c with
  | shmWrite start addr len => exact staysInside_shmWrite s start addr len
  | shmRead start addr len => exact staysInside_shmRead s start addr len
  | fifoWrite addr len => exact staysInside_fifoWrite s addr len
  | fifoRead addr len => exact staysInside_fifoRead s addr len

/-- In a segment of 4096 bytes, a write of -1 bytes at its start, and one of 4124: neither is
refused. -/
theorem laidOut_leaves : ∃ s, osaShmCreate 4096 (.created fun _ => 0) = some s ∧
    ¬ EveryStep step StaysInside s [.shmWrite 0 (some fun _ => 0) (-1)] ∧
    ¬ EveryStep step StaysInside s [.shmWrite 0 (some fun _ => 0) 4124] := by
  refine ⟨laidOut 4096 fun _ => 0, rfl, ?_⟩
  have hsize : (laidOut 4096 fun _ => 0).size = 4124 := by
    show wrap32 (Int32.toInt 4096 + 28) = 4124
    decide
  have hbytes : (laidOut 4096 fun _ => 0).bytes = 4096 := by
    show (Int32.toInt 4096).toNat = 4096
    decide
  constructor
  all_goals
    rw [calls_stayInside_iff]
    rintro ⟨h, -⟩
    simp only [Fits, RangeFits, reduceCtorEq, false_or, hsize, hbytes] at h
    revert h
    decide

end Calls

/-! ## The FIFO of the segment -/

section View
variable {s : Segment} {src : ℕ → UInt8} {len : ℤ} {off : ℕ} {x : ℤ}

/-- The header and the bytes behind it. -/
def view (s : Segment) : Shm := ⟨s.fifo, s.bytes, fun i => s.mem (28 + i)⟩

lemma view_eq {f : Fifo} {data : ℕ → UInt8} (hfifo : header s.mem = f)
    (hdata : ∀ i, s.mem (28 + i) = data i) : s.view = ⟨f, s.bytes, data⟩ := by
  unfold view fifo
  rw [hfifo, funext hdata]

/-- What is stored in the header does not reach the bytes behind it. -/
lemma putInt_behind {mem : ℕ → UInt8} (hoff : off + 4 ≤ 28) (i : ℕ) :
    putInt mem off x (28 + i) = mem (28 + i) :=
  memcpy_of_outside (.inr (show off + 4 ≤ 28 + i by omega))

/-- `OSA_shmCreate` lays out the FIFO that it does without the bytes. -/
lemma view_laidOut (size : Int32) (mem : ℕ → UInt8) :
    OsaShm.osaShmCreate size.toInt (.created fun i => mem (28 + i)) =
      some (laidOut size mem).view := by
  have hsize : wrap32 size.toInt = size.toInt := wrap32_of_bounds size.le_toInt size.toInt_lt
  have hone : wrap32 1 = 1 := wrap32_of_bounds (by decide) (by decide)
  have hfifo : (laidOut size mem).fifo =
      { capacity := size.toInt, isEmpty := true, isFull := false, use := 0, curRd := 0,
        curWr := 0 } := by
    simp [fifo, header, laidOut, hsize, hone, wrap32_zero]
  have hdata : (fun i => (laidOut size mem).mem (28 + i)) = fun i => mem (28 + i) := by
    funext i
    simp [laidOut, putInt_behind]
  unfold OsaShm.osaShmCreate view
  rw [hfifo, hdata]
  rfl

/-- The header after the copy of a write. -/
lemma header_storeWrite (mem : ℕ → UInt8) (wSize : ℤ) :
    header (storeWrite mem wSize) =
      { header mem with
        curWr := wrap32 ((header mem).curWr + wSize)
        use := wrap32 ((header mem).use + wSize)
        isEmpty := false } := by
  simp [header, storeWrite, wrap32_zero]

/-- The header after the copy of a read. -/
lemma header_storeRead {mem : ℕ → UInt8} (hempty : (header mem).isEmpty = false) (len : ℤ) :
    header (storeRead mem (readSize (header mem) len) (readPastEnd (header mem) len)) =
      afterRead (header mem) len := by
  have hone : wrap32 1 = 1 := wrap32_of_bounds (by decide) (by decide)
  have hflag : getInt mem 20 = 0 := by simpa [header] using hempty
  unfold afterRead storeRead
  generalize readSize (header mem) len = rSize
  cases readPastEnd (header mem) len
  · simp [header, hflag, wrap32_zero]
  · simp [header, hone, wrap32_zero]

lemma storeWrite_behind (mem : ℕ → UInt8) (wSize : ℤ) (i : ℕ) :
    storeWrite mem wSize (28 + i) = mem (28 + i) := by
  simp [storeWrite, putInt_behind]

lemma storeRead_behind (mem : ℕ → UInt8) (rSize : ℤ) (pastEnd : Bool) (i : ℕ) :
    storeRead mem rSize pastEnd (28 + i) = mem (28 + i) := by
  simp only [storeRead, putInt_behind (show 16 + 4 ≤ 28 by omega)]
  split_ifs <;> simp [putInt_behind]

/-- A copy behind the header is a copy in the buffer of the FIFO. -/
lemma memcpy_behind (mem : ℕ → UInt8) (w : ℕ) (block : List UInt8) :
    (fun i => memcpy mem (28 + w) block (28 + i)) = memcpy (fun i => mem (28 + i)) w block := by
  funext i
  unfold memcpy
  simp only [Nat.add_le_add_iff_left, Nat.add_sub_add_left]

lemma window_behind (mem : ℕ → UInt8) (r n : ℕ) :
    window (fun i => mem (28 + i)) r n = window mem (28 + r) n := by
  unfold window
  simp only [Nat.add_assoc]

/-- What lies behind the header lies in the segment. -/
lemma copying_of_behind {pos n : ℤ} (h : Behind s.bytes pos n) (done : Reply × Segment) :
    s.copying (sizeofFifo + pos) n done = .ok done := by
  have hin : s.Inside (sizeofFifo + pos) n := by
    unfold Behind at h
    simp only [Inside, sizeofFifo] at h ⊢
    omega
  unfold copying
  rw [if_pos hin]

lemma memcpyFrom_eq_ok {bytes : ℕ} {off n : ℤ} {data : ℕ → UInt8} {block : List UInt8}
    (h : memcpyFrom bytes data off n = .ok block) :
    Behind bytes off n ∧ block = window data off.toNat n.toNat := by
  unfold memcpyFrom at h
  split_ifs at h with hin
  exact ⟨hin, (Except.ok.inj h).symm⟩

/-- The bytes behind a cursor, in the segment and in the buffer. -/
lemma behind_toNat {pos : ℤ} (hpos : 0 ≤ pos) : (sizeofFifo + pos).toNat = 28 + pos.toNat := by
  simp only [sizeofFifo]
  omega

/-- A block behind the header is a block of the buffer of the FIFO. -/
lemma window_view {pos n : ℤ} (h : Behind s.bytes pos n) :
    window s.mem (sizeofFifo + pos).toNat n.toNat = window s.view.data pos.toNat n.toNat := by
  rcases h with rfl | ⟨hpos, -, -⟩
  · rfl
  · rw [behind_toNat hpos]
    exact (window_behind s.mem _ _).symm

/-- What a read of a FIFO that is not empty leaves behind. -/
lemma view_storeRead (hempty : s.fifo.isEmpty = false) (len : ℤ) :
    ({ s with mem := storeRead s.mem (readSize s.fifo len) (readPastEnd s.fifo len) } :
      Segment).view = { s.view with fifo := afterRead s.fifo len } := by
  have hheader : header (storeRead s.mem (readSize s.fifo len) (readPastEnd s.fifo len)) =
      afterRead s.fifo len := header_storeRead (by simpa [fifo] using hempty) len
  exact view_eq hheader fun i => storeRead_behind _ _ _ i

/-- **A read of the FIFO.** Where it has a result as a FIFO it has the same as bytes of the
segment. -/
theorem view_fifoRead {ret : ℤ} {out : List UInt8} {shm : Shm}
    (hfifo : OsaShm.osaFifoRead s.view true len = .ok (ret, out, shm)) :
    ∃ s', s.osaFifoRead true len = .ok (⟨some ret, out⟩, s') ∧ s'.view = shm := by
  have hview : s.view.fifo = s.fifo := rfl
  unfold OsaShm.osaFifoRead at hfifo
  unfold osaFifoRead
  rw [hview] at hfifo
  by_cases hbad : true = false ∨ len < 0
  · rw [if_pos hbad] at hfifo ⊢
    cases hfifo
    exact ⟨s, rfl, rfl⟩
  rw [if_neg hbad] at hfifo ⊢
  by_cases hempty : s.fifo.isEmpty = true
  · rw [if_pos hempty] at hfifo ⊢
    cases hfifo
    exact ⟨s, rfl, rfl⟩
  rw [if_neg hempty] at hfifo ⊢
  rcases hcopy : memcpyFrom s.view.bytes s.view.data s.fifo.curRd (readSize s.fifo len)
    with fault | block
  · rw [hcopy] at hfifo
    cases hfifo
  rw [hcopy] at hfifo
  simp only [Except.ok.injEq, Prod.mk.injEq] at hfifo
  obtain ⟨hret, hblock, hshm⟩ := hfifo
  obtain ⟨hbehind, hwindow⟩ := memcpyFrom_eq_ok hcopy
  rw [← hret, ← hblock, ← hshm, hwindow, ← window_view hbehind]
  exact ⟨_, copying_of_behind hbehind _,
    view_storeRead (Bool.eq_false_of_not_eq_true hempty) len⟩

lemma memcpyTo_eq_ok {bytes : ℕ} {off n : ℤ} {data data' : ℕ → UInt8} {block : List UInt8}
    (h : memcpyTo bytes data off block n = .ok data') :
    Behind bytes off n ∧ n ≤ block.length ∧
      data' = memcpy data off.toNat (block.take n.toNat) := by
  unfold memcpyTo at h
  split_ifs at h with hin
  exact ⟨hin.1, hin.2, (Except.ok.inj h).symm⟩

/-- The header that a write finds after its copy. -/
lemma header_copied {mem : ℕ → UInt8} (hfull : (header mem).isFull = false) (pastEnd : Bool) (w : ℕ)
    (block : List UInt8) :
    header (memcpy (if pastEnd then putInt mem 16 1 else mem) (28 + w) block) =
      { header mem with isFull := pastEnd } := by
  have hone : wrap32 1 = 1 := wrap32_of_bounds (by decide) (by decide)
  have hflag : getInt mem 16 = 0 := by simpa [header] using hfull
  have hkept (mem : ℕ → UInt8) {off : ℕ} (hoff : off + 4 ≤ 28) :
      getInt (memcpy mem (28 + w) block) off = getInt mem off :=
    getInt_memcpy (.inl (by omega))
  cases pastEnd <;> simp [header, hkept, hone, hflag]

/-- A copy at a cursor starts behind the header, unless it is empty. -/
lemma memcpy_of_behind {mem : ℕ → UInt8} {bytes : ℕ} {pos n : ℤ} {block : List UInt8}
    (h : Behind bytes pos n) (hblock : block.length = n.toNat) :
    memcpy mem (sizeofFifo + pos).toNat block = memcpy mem (28 + pos.toNat) block := by
  rcases h with rfl | ⟨hpos, -, -⟩
  · obtain rfl := List.eq_nil_of_length_eq_zero hblock
    rw [memcpy_nil, memcpy_nil]
  · rw [behind_toNat hpos]

/-- What a write to a FIFO that is not full leaves behind. -/
lemma view_storeWrite {data : ℕ → UInt8} (hfull : s.fifo.isFull = false)
    (hcopy : memcpyTo s.view.bytes s.view.data s.fifo.curWr (window src 0 len.toNat)
      (writeSize s.fifo len) = .ok data) :
    ({ s with
        mem := storeWrite (memcpy (if writePastEnd s.fifo len then putInt s.mem 16 1 else s.mem)
          (sizeofFifo + s.fifo.curWr).toNat (window src 0 (writeSize s.fifo len).toNat))
          (writeSize s.fifo len) } : Segment).view =
      { s.view with fifo := afterWrite s.fifo len, data := data } := by
  obtain ⟨hbehind, hle, hdata⟩ := memcpyTo_eq_ok hcopy
  have hnotFull : (header s.mem).isFull = false := by simpa [fifo] using hfull
  have hheader := header_copied hnotFull
    (writePastEnd s.fifo len) s.fifo.curWr.toNat (window src 0 (writeSize s.fifo len).toNat)
  have hmem : (fun i => (if writePastEnd s.fifo len then putInt s.mem 16 1 else s.mem) (28 + i)) =
      s.view.data := by
    funext i
    split_ifs
    · exact putInt_behind (by omega) i
    · rfl
  have htake : (window src 0 len.toNat).take (writeSize s.fifo len).toNat =
      window src 0 (writeSize s.fifo len).toNat := by
    rw [length_window] at hle
    exact take_window src 0 (by omega)
  rw [memcpy_of_behind hbehind (length_window _ _ _)]
  refine view_eq ?_ fun i => ?_
  · dsimp only
    rw [header_storeWrite, hheader]
    simp only [afterWrite, fifo]
  · dsimp only
    rw [storeWrite_behind, hdata, htake, ← hmem]
    exact congrFun (memcpy_behind _ _ _) i

/-- **A write of the FIFO.** Where it has a result as a FIFO it does the same to the bytes of the
segment. -/
theorem view_fifoWrite {ret : ℤ} {shm : Shm}
    (hfifo : OsaShm.osaFifoWrite s.view (some (window src 0 len.toNat)) len = .ok (ret, shm)) :
    ∃ r s', s.osaFifoWrite (some src) len = .ok (r, s') ∧ r.ret = some ret ∧ s'.view = shm := by
  have hview : s.view.fifo = s.fifo := rfl
  unfold OsaShm.osaFifoWrite at hfifo
  unfold osaFifoWrite
  dsimp only at hfifo ⊢
  rw [hview] at hfifo
  by_cases hneg : len < 0
  · rw [if_pos hneg] at hfifo ⊢
    cases hfifo
    exact ⟨refusal, s, rfl, rfl, rfl⟩
  rw [if_neg hneg] at hfifo ⊢
  by_cases hfull : s.fifo.isFull = true
  · rw [if_pos hfull] at hfifo ⊢
    cases hfifo
    exact ⟨refusal, s, rfl, rfl, rfl⟩
  rw [if_neg hfull] at hfifo ⊢
  rcases hcopy : memcpyTo s.view.bytes s.view.data s.fifo.curWr (window src 0 len.toNat)
    (writeSize s.fifo len) with fault | data
  · rw [hcopy] at hfifo
    cases hfifo
  rw [hcopy] at hfifo
  simp only [Except.ok.injEq, Prod.mk.injEq] at hfifo
  obtain ⟨hret, hshm⟩ := hfifo
  refine ⟨_, _, copying_of_behind (memcpyTo_eq_ok hcopy).1 _, congrArg some hret, ?_⟩
  rw [← hshm]
  exact view_storeWrite (Bool.eq_false_of_not_eq_true hfull) hcopy

end View

end IpncRdk.OsaShm.Segment
