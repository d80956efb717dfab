import IpncRdk.OsaShm.Fifo

/-!
# The FIFO as a byte stream

The cursors delimit the unread bytes: `curRd ≤ curWr`, what is in front of the write cursor lies in
the segment, and what has been accepted is what has been handed out followed by the bytes between
the cursors (`Layout`). A write keeps this unless its bytes reach into the last 28 of the capacity,
which are behind the segment. A read keeps it unless it asks past the end of the buffer, where the
source computes the size from the write cursor: the size is right there only if the room behind the
write cursor happens to equal the number of unread bytes.
-/

namespace IpncRdk.OsaShm

open Lib

/-- The cursors are at `r` and `w`, and the bytes between them are the unread ones. -/
structure Layout (cap r w : ℕ) (h : History) : Prop where
  capacity : h.shm.fifo.capacity = cap
  curRd : h.shm.fifo.curRd = r
  curWr : h.shm.fifo.curWr = w
  use : h.shm.fifo.use = (w - r : ℕ)
  size : h.shm.bytes = cap
  rd_le_wr : r ≤ w
  inside : w = 0 ∨ 28 + w ≤ cap
  empty : h.shm.fifo.isEmpty = true → r = w
  bytes : h.accepted = h.handed ++ window h.shm.data r (w - r)

/-- The invariant of a history: the cursors have a layout, in a buffer whose size is an
`int`. -/
def Inv (h : History) : Prop := ∃ cap r w, Layout cap r w h ∧ cap < 2 ^ 31

/-- The calls that meet the stream promise: a write that finds the FIFO marked full, or whose end
position is an `int` and whose bytes, as many as fit below the capacity, lie in the segment; and a
read that finds the FIFO marked empty, or does not ask past the end of the buffer, or finds as
much room behind the write cursor as there are unread bytes. -/
def Fits (h : History) : Call → Prop
  | .write addr _ =>
    h.shm.fifo.isFull = true ∨
      h.shm.fifo.curWr + addr.length < 2 ^ 31 ∧
        Behind h.shm.bytes h.shm.fifo.curWr
          (min addr.length (h.shm.fifo.capacity - h.shm.fifo.curWr))
  | .read len _ =>
    h.shm.fifo.isEmpty = true ∨ readPastEnd h.shm.fifo len = false ∨
      h.shm.fifo.capacity - h.shm.fifo.curWr = h.shm.fifo.curWr - h.shm.fifo.curRd

lemma inv_fresh {capacity : ℕ} (hcap : capacity < 2 ^ 31) (data : ℕ → UInt8) :
    Inv (fresh capacity data) :=
  ⟨capacity, 0, 0, ⟨rfl, rfl, rfl, rfl, rfl, le_refl 0, .inl rfl, fun _ => rfl, rfl⟩, hcap⟩

section
variable {cap r w : ℕ} {h : History}

lemma Layout.wr_le_cap (L : Layout cap r w h) : w ≤ cap := by
  have hinside := L.inside
  omega

lemma Layout.unread (L : Layout cap r w h) : h.unread = w - r := by
  unfold History.unread
  rw [L.bytes]
  simp

/-- The layout of a history with the cursors set to `r'` and `w'`. -/
lemma layout_of_bytes {cap r w bytes : ℕ} {f : Fifo} {data : ℕ → UInt8} {acc handed : List UInt8}
    (hcap : f.capacity = cap) (hrd : f.curRd = r) (hwr : f.curWr = w)
    (huse : f.use = (w - r : ℕ)) (hsize : bytes = cap) (hle : r ≤ w) (hw : w = 0 ∨ 28 + w ≤ cap)
    (hempty : f.isEmpty = true → r = w) (hbytes : acc = handed ++ window data r (w - r)) :
    Layout cap r w ⟨⟨f, bytes, data⟩, acc, handed⟩ :=
  ⟨hcap, hrd, hwr, huse, hsize, hle, hw, hempty, hbytes⟩

/-! ## Writing -/

/-- A write accepts what fits behind the write cursor: both branches of the size computation
give the smaller of the two. -/
lemma writeSize_eq {f : Fifo} {cap w len : ℕ} (hcap : f.capacity = cap) (hwr : f.curWr = w)
    (hw : w ≤ cap) (hint : cap < 2 ^ 31) (hlen : w + len < 2 ^ 31) :
    writeSize f len = (min len (cap - w) : ℕ) := by
  have hsum : wrap32 ((w : ℤ) + len) = w + len := wrap32_of_bounds (by omega) (by omega)
  have hroom : wrap32 ((cap : ℤ) - w) = cap - w := wrap32_of_bounds (by omega) (by omega)
  unfold writeSize writePastEnd
  simp only [hcap, hwr, hsum, hroom, decide_eq_true_eq]
  split_ifs <;> omega

/-- The bytes at a cursor that is not negative. -/
lemma behind_iff {bytes w n : ℕ} : Behind bytes w n ↔ n = 0 ∨ 28 + w + n ≤ bytes := by
  unfold Behind sizeofFifo
  omega

lemma memcpyTo_ok {bytes w n : ℕ} {data : ℕ → UInt8} {src : List UInt8}
    (h : n = 0 ∨ 28 + w + n ≤ bytes) (hsrc : n ≤ src.length) :
    memcpyTo bytes data w src n = .ok (memcpy data w (src.take n)) := by
  unfold memcpyTo
  rw [if_pos ⟨behind_iff.mpr h, by omega⟩, Int.toNat_natCast, Int.toNat_natCast]

lemma osaFifoWrite_full {src : List UInt8} (hfull : h.shm.fifo.isFull = true) :
    osaFifoWrite h.shm (some src) src.length = .ok (-1, h.shm) := by
  unfold osaFifoWrite
  simp only
  rw [if_neg (by omega), if_pos hfull]

/-- A write on a FIFO not marked full accepts what fits below the capacity, behind the unread bytes,
where that lies in the segment. -/
lemma osaFifoWrite_spec (L : Layout cap r w h) (hcap : cap < 2 ^ 31) {src : List UInt8}
    (hfull : h.shm.fifo.isFull = false) (hlen : w + src.length < 2 ^ 31)
    (hroom : min src.length (cap - w) = 0 ∨ 28 + w + min src.length (cap - w) ≤ cap) :
    ∃ shm, osaFifoWrite h.shm (some src) src.length
        = .ok (((min src.length (cap - w) : ℕ) : ℤ), shm) ∧
      Layout cap r (w + min src.length (cap - w))
        ⟨shm, h.accepted ++ src.take (min src.length (cap - w)), h.handed⟩ := by
  have hle := L.rd_le_wr
  have hinside := L.inside
  have hw := L.wr_le_cap
  have hsize := writeSize_eq L.capacity L.curWr hw hcap hlen
  set n := min src.length (cap - w) with hn
  have hcopy : memcpyTo h.shm.bytes h.shm.data w src n
      = .ok (memcpy h.shm.data w (src.take n)) :=
    memcpyTo_ok (by rwa [L.size]) (by omega)
  -- neither sum leaves the `int` range
  have hwr : wrap32 ((w : ℤ) + n) = (w + n : ℕ) := by
    rw [wrap32_of_bounds (by omega) (by omega)]; omega
  have huse : wrap32 (((w - r : ℕ) : ℤ) + n) = (w + n - r : ℕ) := by
    rw [wrap32_of_bounds (by omega) (by omega)]; omega
  refine ⟨⟨afterWrite h.shm.fifo src.length, h.shm.bytes, memcpy h.shm.data w (src.take n)⟩, ?_, ?_⟩
  · simp only [osaFifoWrite]
    rw [hsize, L.curWr, hfull, hcopy, if_neg (by omega), if_neg Bool.false_ne_true]
  · refine layout_of_bytes L.capacity L.curRd ?_ ?_ L.size (by omega) (by omega)
      (fun h => absurd h Bool.false_ne_true) ?_
    · simp only [afterWrite, hsize, L.curWr, hwr]
    · simp only [afterWrite, hsize, L.use, huse]
    -- the copy lies right behind the unread bytes
    have hgrow := window_memcpy h.shm.data (src.take n) hle
    rw [List.length_take, Nat.min_eq_left (by omega)] at hgrow
    rw [L.bytes, List.append_assoc, show w + n - r = w - r + n by omega, hgrow]

/-- A write whose copy leaves the segment. -/
lemma osaFifoWrite_error {src : List UInt8} (hfull : h.shm.fifo.isFull = false)
    (hout : ¬ Behind h.shm.bytes h.shm.fifo.curWr (writeSize h.shm.fifo src.length)) :
    osaFifoWrite h.shm (some src) src.length = .error .outOfBounds := by
  have hcopy : memcpyTo h.shm.bytes h.shm.data h.shm.fifo.curWr src
      (writeSize h.shm.fifo src.length) = .error .outOfBounds := by
    unfold memcpyTo
    rw [if_neg fun h => hout h.1]
  simp only [osaFifoWrite]
  rw [hcopy, hfull, if_neg (by omega), if_neg Bool.false_ne_true]

/-- A write whose end position leaves the `int` range copies past the end of the buffer. -/
lemma not_behind_of_overflow (L : Layout cap r w h) (hcap : cap < 2 ^ 31) {src : List UInt8}
    (hsrc : src.length < 2 ^ 31) (hlen : ¬ w + src.length < 2 ^ 31) :
    ¬ Behind h.shm.bytes h.shm.fifo.curWr (writeSize h.shm.fifo src.length) := by
  have hw := L.wr_le_cap
  -- the sum is negative, so the test for the end of the buffer says no
  have hneg : wrap32 ((w : ℤ) + src.length) < 0 :=
    wrap32_of_overflow (by omega) (by omega)
  have hpast : writePastEnd h.shm.fifo src.length = false := by
    unfold writePastEnd
    rw [L.capacity, L.curWr, decide_eq_false_iff_not]
    omega
  have hsize : writeSize h.shm.fifo src.length
      = if (src.length : ℤ) > cap then (cap : ℤ) else src.length := by
    unfold writeSize
    rw [hpast, L.capacity]
    rfl
  rw [hsize, L.size, L.curWr]
  unfold Behind sizeofFifo
  split_ifs <;> omega

/-! ## Reading -/

lemma memcpyFrom_ok {bytes r n : ℕ} {data : ℕ → UInt8} (h : n = 0 ∨ 28 + r + n ≤ bytes) :
    memcpyFrom bytes data r n = .ok (window data r n) := by
  unfold memcpyFrom
  rw [if_pos (behind_iff.mpr h), Int.toNat_natCast, Int.toNat_natCast]

lemma osaFifoRead_empty {len : ℕ} (hempty : h.shm.fifo.isEmpty = true) :
    osaFifoRead h.shm true len = .ok (0, [], h.shm) := by
  unfold osaFifoRead
  rw [if_neg (by simp), if_pos hempty]

/-- A read that does not ask past the end of the buffer hands out the next bytes. -/
lemma osaFifoRead_spec (L : Layout cap r w h) (hcap : cap < 2 ^ 31) {len : ℕ}
    (hempty : h.shm.fifo.isEmpty = false) (hfit : readPastEnd h.shm.fifo len = false) :
    ∃ shm, osaFifoRead h.shm true len
        = .ok (((min len (w - r) : ℕ) : ℤ), window h.shm.data r (min len (w - r)), shm) ∧
      Layout cap (r + min len (w - r)) w
        ⟨shm, h.accepted, h.handed ++ window h.shm.data r (min len (w - r))⟩ := by
  have hle := L.rd_le_wr
  have hinside := L.inside
  have hsize : readSize h.shm.fifo len = (min len (w - r) : ℕ) := by
    unfold readSize
    rw [hfit, L.use, if_neg Bool.false_ne_true]
    split_ifs <;> omega
  set n := min len (w - r) with hn
  have hcopy : memcpyFrom h.shm.bytes h.shm.data r n = .ok (window h.shm.data r n) :=
    memcpyFrom_ok (by rw [L.size]; omega)
  have hrd : wrap32 ((r : ℤ) + n) = (r + n : ℕ) := by
    rw [wrap32_of_bounds (by omega) (by omega)]; omega
  have huse : wrap32 (((w - r : ℕ) : ℤ) - n) = (w - (r + n) : ℕ) := by
    rw [wrap32_of_bounds (by omega) (by omega)]; omega
  have hafter : afterRead h.shm.fifo len
      = { h.shm.fifo with
          curRd := (r + n : ℕ), use := (w - (r + n) : ℕ), isFull := false } := by
    unfold afterRead
    rw [hfit, if_neg Bool.false_ne_true, hsize, L.curRd, L.use, hrd, huse]
  refine ⟨⟨afterRead h.shm.fifo len, h.shm.bytes, h.shm.data⟩, ?_, ?_⟩
  · simp only [osaFifoRead]
    rw [hsize, L.curRd, hempty, hcopy, if_neg (by simp), if_neg Bool.false_ne_true]
  · rw [hafter]
    refine layout_of_bytes L.capacity rfl L.curWr rfl L.size (by omega) (by omega)
      (fun h => absurd (hempty.symm.trans h) Bool.false_ne_true) ?_
    -- the unread bytes are those handed out now and those left
    have hsplit : window h.shm.data r (w - r)
        = window h.shm.data r n ++ window h.shm.data (r + n) (w - (r + n)) := by
      rw [← window_add, show n + (w - (r + n)) = w - r by omega]
    rw [L.bytes, hsplit, List.append_assoc]

/-- The size of a read past the end of the buffer is the room behind the write cursor, whatever the
number of unread bytes. -/
lemma readSize_eq (L : Layout cap r w h) (hcap : cap < 2 ^ 31) {len : ℕ}
    (hpast : readPastEnd h.shm.fifo len = true) : readSize h.shm.fifo len = (cap - w : ℕ) := by
  have hw := L.wr_le_cap
  unfold readSize
  rw [hpast, L.capacity, L.curWr, if_pos rfl, wrap32_of_bounds (by omega) (by omega)]
  omega

/-- What a read past the end of the buffer returns. -/
lemma ret_of_past (L : Layout cap r w h) (hcap : cap < 2 ^ 31) {len : ℕ}
    (hempty : h.shm.fifo.isEmpty = false) (hpast : readPastEnd h.shm.fifo len = true)
    {ret : ℤ} {out : List UInt8} {shm : Shm}
    (hcall : osaFifoRead h.shm true len = .ok (ret, out, shm)) : ret = (cap - w : ℕ) := by
  simp only [osaFifoRead] at hcall
  rw [readSize_eq L hcap hpast, hempty, if_neg (by simp), if_neg Bool.false_ne_true] at hcall
  split at hcall
  · cases hcall
  · exact (Prod.mk.inj (Except.ok.inj hcall)).1.symm

/-- Where the room behind the write cursor equals the number of unread bytes, a read past the end of
the buffer hands all of them out, and resets the FIFO. -/
lemma osaFifoRead_past (L : Layout cap r w h) (hcap : cap < 2 ^ 31) {len : ℕ}
    (hempty : h.shm.fifo.isEmpty = false) (hpast : readPastEnd h.shm.fifo len = true)
    (heq : cap - w = w - r) :
    osaFifoRead h.shm true len
      = .ok (((w - r : ℕ) : ℤ), window h.shm.data r (w - r),
          ⟨⟨0, 0, 0, cap, false, true⟩, cap, h.shm.data⟩) := by
  have hle := L.rd_le_wr
  have hinside := L.inside
  have hsize := readSize_eq L hcap hpast
  rw [heq] at hsize
  have hcopy : memcpyFrom cap h.shm.data r (w - r : ℕ)
      = .ok (window h.shm.data r (w - r)) := memcpyFrom_ok (by omega)
  have hafter : afterRead h.shm.fifo len = ⟨0, 0, 0, cap, false, true⟩ := by
    unfold afterRead
    rw [hpast, if_pos rfl, L.capacity]
  simp only [osaFifoRead]
  rw [hsize, L.curRd, L.size, hempty, hcopy, hafter, if_neg (by simp),
    if_neg Bool.false_ne_true]

/-! ## One call, and a whole history -/

/-- What is asked of a write, at the cursors of a layout. -/
lemma Layout.writeFits_iff (L : Layout cap r w h) (len : ℕ) :
    (h.shm.fifo.curWr + len < 2 ^ 31 ∧
        Behind h.shm.bytes h.shm.fifo.curWr (min len (h.shm.fifo.capacity - h.shm.fifo.curWr))) ↔
      w + len < 2 ^ 31 ∧ (min len (cap - w) = 0 ∨ 28 + w + min len (cap - w) ≤ cap) := by
  have hw := L.wr_le_cap
  have hmin : min (len : ℤ) (cap - w) = (min len (cap - w) : ℕ) := by omega
  rw [L.curWr, L.capacity, L.size, hmin, behind_iff]
  omega

/-- A write that fits keeps the invariant. -/
lemma inv_write {h h' : History} {src : List UInt8} {hsrc : src.length < 2 ^ 31} (hI : Inv h)
    (hfit : Fits h (.write src hsrc)) (hstep : h.step (.write src hsrc) = some h') : Inv h' := by
  obtain ⟨cap, r, w, L, hcap⟩ := hI
  simp only [History.step] at hstep
  by_cases hfull : h.shm.fifo.isFull = true
  · -- a full FIFO takes nothing
    rw [osaFifoWrite_full hfull] at hstep
    simp only [Option.some.injEq] at hstep
    subst hstep
    refine ⟨cap, r, w, ?_, hcap⟩
    simpa using L
  · rw [Bool.not_eq_true] at hfull
    simp only [Fits, hfull, Bool.false_eq_true, false_or] at hfit
    obtain ⟨hlen, hroom⟩ := (L.writeFits_iff src.length).mp hfit
    obtain ⟨shm, hcall, L'⟩ := osaFifoWrite_spec L hcap hfull hlen hroom
    rw [hcall] at hstep
    simp only [Option.some.injEq, Int.toNat_natCast] at hstep
    exact ⟨cap, r, _, hstep ▸ L', hcap⟩

/-- A read that fits keeps the invariant. -/
lemma inv_read {h h' : History} {len : ℕ} {hlen : len < 2 ^ 31} (hI : Inv h)
    (hfit : Fits h (.read len hlen)) (hstep : h.step (.read len hlen) = some h') : Inv h' := by
  obtain ⟨cap, r, w, L, hcap⟩ := hI
  simp only [History.step] at hstep
  by_cases hempty : h.shm.fifo.isEmpty = true
  · -- an empty FIFO gives nothing
    rw [osaFifoRead_empty hempty] at hstep
    simp only [Option.some.injEq] at hstep
    subst hstep
    refine ⟨cap, r, w, ?_, hcap⟩
    simpa using L
  rw [Bool.not_eq_true] at hempty
  simp only [Fits, hempty, Bool.false_eq_true, false_or] at hfit
  cases hpast : readPastEnd h.shm.fifo len with
  | false =>
    -- the read stays within the buffer
    obtain ⟨shm, hcall, L'⟩ := osaFifoRead_spec L hcap hempty hpast
    rw [hcall] at hstep
    simp only [Option.some.injEq] at hstep
    exact ⟨cap, _, w, hstep ▸ L', hcap⟩
  | true =>
    -- everything unread is handed out and the FIFO starts over
    have heq : cap - w = w - r := by
      have hroom := hfit.resolve_left (by simp [hpast])
      rw [L.capacity, L.curWr, L.curRd] at hroom
      have hle := L.rd_le_wr
      have hw := L.wr_le_cap
      omega
    rw [osaFifoRead_past L hcap hempty hpast heq] at hstep
    simp only [Option.some.injEq] at hstep
    subst hstep
    refine ⟨cap, 0, 0, ⟨rfl, rfl, rfl, rfl, rfl, le_refl 0, .inl rfl, fun _ => rfl, ?_⟩, hcap⟩
    simp only [Nat.sub_zero, window_zero, List.append_nil]
    exact L.bytes

/-- A call that fits keeps the invariant. -/
theorem inv_step {h h' : History} {c : Call} (hI : Inv h) (hfit : Fits h c)
    (hstep : h.step c = some h') : Inv h' := by
  cases c with
  | write src hsrc => exact inv_write hI hfit hstep
  | read len hlen => exact inv_read hI hfit hstep

/-- What has been handed out was accepted before. -/
lemma Inv.handed_accepted {h : History} (hI : Inv h) : h.handed <+: h.accepted := by
  obtain ⟨cap, r, w, L, -⟩ := hI
  rw [L.bytes]
  exact List.prefix_append _ _

/-- A write meets the stream promise exactly when it fits. -/
lemma lossless_write_iff {h : History} {src : List UInt8} {hsrc : src.length < 2 ^ 31}
    (hI : Inv h) : Lossless h (.write src hsrc) ↔ Fits h (.write src hsrc) := by
  have hpre := hI.handed_accepted
  obtain ⟨cap, r, w, L, hcap⟩ := hI
  have hunread := L.unread
  simp only [Lossless, Fits]
  by_cases hfull : h.shm.fifo.isFull = true
  · simp only [hfull, true_or, iff_true]
    refine ⟨-1, h.shm, osaFifoWrite_full hfull, by simpa using hpre, ?_⟩
    rw [L.use, ← hunread]
    simp [History.unread]
  · rw [Bool.not_eq_true] at hfull
    simp only [hfull, Bool.false_eq_true, false_or]
    rw [L.writeFits_iff]
    constructor
    · rintro ⟨ret, shm, hcall, -⟩
      -- a write that does not fit copies out of bounds
      have hbehind : Behind h.shm.bytes h.shm.fifo.curWr (writeSize h.shm.fifo src.length) := by
        by_contra hout
        rw [osaFifoWrite_error hfull hout] at hcall
        cases hcall
      have hlen : w + src.length < 2 ^ 31 := by
        by_contra hover
        exact not_behind_of_overflow L hcap hsrc hover hbehind
      rw [writeSize_eq L.capacity L.curWr L.wr_le_cap hcap hlen, L.size, L.curWr,
        behind_iff] at hbehind
      exact ⟨hlen, hbehind⟩
    · rintro ⟨hlen, hroom⟩
      obtain ⟨shm, hcall, L'⟩ := osaFifoWrite_spec L hcap hfull hlen hroom
      refine ⟨_, shm, hcall, ?_, ?_⟩
      · exact hpre.trans (List.prefix_append _ _)
      · have := L'.unread
        rw [L'.use, Int.toNat_natCast, ← this]
        rfl

/-- A read meets the stream promise exactly when it fits. -/
lemma lossless_read_iff {h : History} {len : ℕ} {hlen : len < 2 ^ 31} (hI : Inv h) :
    Lossless h (.read len hlen) ↔ Fits h (.read len hlen) := by
  have hpre := hI.handed_accepted
  obtain ⟨cap, r, w, L, hcap⟩ := hI
  have hunread := L.unread
  have hcount : h.accepted.length = h.handed.length + (w - r) := by rw [L.bytes]; simp
  simp only [Lossless, Fits]
  by_cases hempty : h.shm.fifo.isEmpty = true
  · have hrw := L.empty hempty
    simp only [hempty, true_or, iff_true]
    refine ⟨0, [], h.shm, osaFifoRead_empty hempty, by omega, by simp; omega, by simpa, ?_⟩
    rw [L.use, List.append_nil, hcount]
    omega
  rw [Bool.not_eq_true] at hempty
  simp only [hempty, Bool.false_eq_true, false_or]
  cases hpast : readPastEnd h.shm.fifo len with
  | false =>
    simp only [true_or, iff_true]
    obtain ⟨shm, hcall, L'⟩ := osaFifoRead_spec L hcap hempty hpast
    refine ⟨_, _, shm, hcall, by rw [hunread], by rw [hunread]; simp, ?_, ?_⟩
    · rw [L'.bytes]
      exact List.prefix_append _ _
    · have := L'.unread
      rw [L'.use, ← this]
      rfl
  | true =>
    have hle := L.rd_le_wr
    have hw := L.wr_le_cap
    -- the sum that the test compares does not leave the int range
    have hlong : cap < r + len := by
      by_contra hlt
      simp only [readPastEnd, L.capacity, L.curRd, decide_eq_true_eq] at hpast
      rw [wrap32_of_bounds (by omega) (by omega)] at hpast
      omega
    simp only [Bool.true_eq_false, false_or, L.capacity, L.curWr, L.curRd]
    constructor
    · rintro ⟨ret, out, shm, hcall, hret, -⟩
      rw [ret_of_past L hcap hempty hpast hcall, hunread] at hret
      omega
    · intro hroom
      have hcall := osaFifoRead_past L hcap hempty hpast (by omega)
      refine ⟨_, _, _, hcall, by rw [hunread]; omega, by rw [hunread]; simp; omega, ?_, ?_⟩
      · apply Exists.intro []
        rw [List.append_nil, L.bytes]
      · rw [← L.bytes]
        simp

/-- In a state with the invariant, a call meets the stream promise exactly when it fits. -/
theorem lossless_iff_fits {h : History} {c : Call} (hI : Inv h) : Lossless h c ↔ Fits h c := by
  cases c with
  | write src hsrc => exact lossless_write_iff hI
  | read len hlen => exact lossless_read_iff hI

end

/-- **Exactly when the FIFO is a lossless byte stream.** For every capacity and every sequence
of calls on a freshly created FIFO, all calls keep the stream promise if and only if every call
fits the state it finds. -/
theorem fifo_lossless_iff (capacity : Fin (2 ^ 31)) (data : ℕ → UInt8) (calls : List Call) :
    EveryStep History.step Lossless (fresh capacity data) calls ↔
      EveryStep History.step Fits (fresh capacity data) calls :=
  everyStep_iff_of_invariant (I := Inv) (fun _ _ hI => lossless_iff_fits hI)
    (fun _ _ _ hI hfit hstep => inv_step hI hfit hstep) calls
    (inv_fresh capacity.isLt data)

/-- A capacity of a hundred bytes, forty written, and a read of up to 200 returns sixty. -/
theorem fifo_not_lossless :
    ¬ EveryStep History.step Lossless (fresh 100 fun _ => 0)
      [.write (List.replicate 40 1) (by decide), .read 200 (by decide)] := by
  rintro ⟨-, hrest⟩
  obtain ⟨ret, out, shm, hcall, hret, -⟩ := (hrest _ rfl).1
  have hforty : ret = 40 := hret
  subst hforty
  have hsixty : (osaFifoRead _ true 200).map Prod.fst = .ok 40 :=
    congrArg (Except.map Prod.fst) hcall
  exact absurd hsixty (by decide)

end IpncRdk.OsaShm
