import IpncRdk.Lib.CSemantics
import IpncRdk.Lib.Run

/-!
# `osa_shm.c`: the FIFO in shared memory

`OSA_shmCreate` asks for `size` bytes, lays out a `struct fifo` at their start and records all of
them as the `capacity` behind it; `OSA_fifoWrite` and `OSA_fifoRead` move bytes behind the header.
The semaphore makes every call one atomic step. A `memcpy` that leaves the bytes of the segment is a
fault.
-/

namespace IpncRdk.OsaShm

open Lib

/-- `struct fifo`, without the field `addr`, which nothing reads. -/
structure Fifo where
  curRd : ℤ
  curWr : ℤ
  use : ℤ
  capacity : ℤ
  isFull : Bool
  isEmpty : Bool

/-- `sizeof(struct fifo)` -/
abbrev sizeofFifo : ℤ := 28

/-- The shared segment: the header, the number of bytes with it, and the memory behind it. -/
structure Shm where
  fifo : Fifo
  bytes : ℕ
  data : ℕ → UInt8

/-- What `shmget` gave: a new segment, the one another process laid out, or an error. -/
inductive ShmGet
  | created (data : ℕ → UInt8)
  | attached (shm : Shm)
  | failed

/-- The FIFO part of `OSA_shmCreate`: a new segment, of `size` bytes in all, is initialised, an
existing one is taken over as it is, `none` is the return value -1. -/
def osaShmCreate (size : ℤ) : ShmGet → Option Shm
  | .created data =>
    some
      { fifo :=
          { capacity := size, isEmpty := true, isFull := false, use := 0, curRd := 0,
            curWr := 0 },
        bytes := size.toNat,
        data := data }
  | .attached shm => some shm
  | .failed => none

/-- The `n` bytes at `fifoAddr + off` lie behind the header in a segment of `bytes` bytes. A
negative `n` is a large `size_t`. -/
def Behind (bytes : ℕ) (off n : ℤ) : Prop :=
  n = 0 ∨ 0 ≤ off ∧ 0 < n ∧ sizeofFifo + off + n ≤ bytes

instance (bytes : ℕ) (off n : ℤ) : Decidable (Behind bytes off n) :=
  inferInstanceAs (Decidable (_ ∨ _))

/-- `memcpy(fifoAddr + off, addr, n)`. -/
def memcpyTo (bytes : ℕ) (data : ℕ → UInt8) (off : ℤ) (addr : List UInt8) (n : ℤ) :
    Except Fault (ℕ → UInt8) :=
  if Behind bytes off n ∧ n ≤ addr.length then .ok (memcpy data off.toNat (addr.take n.toNat))
  else .error .outOfBounds

/-- `memcpy(addr, fifoAddr + off, n)`. -/
def memcpyFrom (bytes : ℕ) (data : ℕ → UInt8) (off n : ℤ) : Except Fault (List UInt8) :=
  if Behind bytes off n then .ok (window data off.toNat n.toNat) else .error .outOfBounds

/-- The test `capacity < curWr + len`: the write would pass the end of the buffer. -/
def writePastEnd (f : Fifo) (len : ℤ) : Bool := f.capacity < wrap32 (f.curWr + len)

/-- `wSize` as `OSA_fifoWrite` leaves it. -/
def writeSize (f : Fifo) (len : ℤ) : ℤ :=
  let wSize := if len > f.capacity then f.capacity else len
  if writePastEnd f len then wrap32 (f.capacity - f.curWr) else wSize

/-- The header after a write of `wSize` bytes. -/
def afterWrite (f : Fifo) (len : ℤ) : Fifo :=
  { f with
    isFull := writePastEnd f len
    curWr := wrap32 (f.curWr + writeSize f len)
    use := wrap32 (f.use + writeSize f len)
    isEmpty := false }

/-- `OSA_fifoWrite`: the return value and the segment afterwards. `addr` is `none` for
`NULL`. -/
def osaFifoWrite (s : Shm) (addr : Option (List UInt8)) (len : ℤ) : Except Fault (ℤ × Shm) :=
  match addr with
  | none => .ok (-1, s)
  | some src =>
    if len < 0 then .ok (-1, s)
    else if s.fifo.isFull then .ok (-1, s)
    else
      match memcpyTo s.bytes s.data s.fifo.curWr src (writeSize s.fifo len) with
      | .error e => .error e
      | .ok data =>
        .ok (writeSize s.fifo len, { s with fifo := afterWrite s.fifo len, data := data })

/-- The test `capacity < curRd + len`: the read asks past the end of the buffer. -/
def readPastEnd (f : Fifo) (len : ℤ) : Bool := f.capacity < wrap32 (f.curRd + len)

/-- `rSize` as `OSA_fifoRead` leaves it. Past the end the source subtracts the write cursor,
not the read cursor. -/
def readSize (f : Fifo) (len : ℤ) : ℤ :=
  let rSize := if len > f.use then f.use else len
  if readPastEnd f len then wrap32 (f.capacity - f.curWr) else rSize

/-- The header after a read of `rSize` bytes. A read past the end sets `isEmpty` and the FIFO
starts over. -/
def afterRead (f : Fifo) (len : ℤ) : Fifo :=
  if readPastEnd f len then
    { f with curRd := 0, curWr := 0, use := 0, isEmpty := true, isFull := false }
  else
    { f with
      curRd := wrap32 (f.curRd + readSize f len)
      use := wrap32 (f.use - readSize f len)
      isFull := false }

/-- `OSA_fifoRead`: the return value, the bytes copied out and the segment afterwards.
`addr` says whether the caller's pointer is not `NULL`. -/
def osaFifoRead (s : Shm) (addr : Bool) (len : ℤ) : Except Fault (ℤ × List UInt8 × Shm) :=
  if addr = false ∨ len < 0 then .ok (-1, [], s)
  else if s.fifo.isEmpty then .ok (0, [], s)
  else
    match memcpyFrom s.bytes s.data s.fifo.curRd (readSize s.fifo len) with
    | .error e => .error e
    | .ok out => .ok (readSize s.fifo len, out, { s with fifo := afterRead s.fifo len })

/-! ## Histories of calls -/

/-- A call with a length that is a non-negative `int`. -/
inductive Call
  | write (addr : List UInt8) (h : addr.length < 2 ^ 31)
  | read (len : ℕ) (h : len < 2 ^ 31)

/-- The segment with the bytes the writes have reported as accepted and the bytes the reads
have handed out. -/
structure History where
  shm : Shm
  accepted : List UInt8
  handed : List UInt8

/-- The history after one more call, `none` when the call faults. A write that returns -1
has accepted nothing. -/
def History.step (h : History) : Call → Option History
  | .write addr _ =>
    match osaFifoWrite h.shm (some addr) addr.length with
    | .error _ => none
    | .ok (ret, shm) => some { h with shm := shm, accepted := h.accepted ++ addr.take ret.toNat }
  | .read len _ =>
    match osaFifoRead h.shm true len with
    | .error _ => none
    | .ok (_, out, shm) => some { h with shm := shm, handed := h.handed ++ out }

/-- The history of a FIFO nobody has used. -/
def fresh (capacity : ℕ) (data : ℕ → UInt8) : History where
  shm :=
    { fifo :=
        { capacity := capacity, isEmpty := true, isFull := false, use := 0, curRd := 0,
          curWr := 0 },
      bytes := capacity,
      data := data }
  accepted := []
  handed := []

/-- `fresh` is what `OSA_shmCreate` leaves in a new segment. -/
lemma osaShmCreate_created (capacity : ℕ) (data : ℕ → UInt8) :
    osaShmCreate capacity (.created data) = some (fresh capacity data).shm := rfl

/-- The number of accepted bytes not yet handed out. -/
def History.unread (h : History) : ℕ := h.accepted.length - h.handed.length

/-- What a lossless byte stream promises of one call: the call has a defined result, a read
returns the smaller of `len` and the unread bytes, what has been handed out is a prefix of
what has been accepted, and `use` is the number of unread bytes. -/
def Lossless (h : History) : Call → Prop
  | .write addr _ =>
    ∃ ret shm, osaFifoWrite h.shm (some addr) addr.length = .ok (ret, shm) ∧
      h.handed <+: h.accepted ++ addr.take ret.toNat ∧
      shm.fifo.use = ((h.accepted ++ addr.take ret.toNat).length - h.handed.length : ℕ)
  | .read len _ =>
    ∃ ret out shm, osaFifoRead h.shm true len = .ok (ret, out, shm) ∧
      ret = min len h.unread ∧ out.length = min len h.unread ∧
      h.handed ++ out <+: h.accepted ∧
      shm.fifo.use = (h.accepted.length - (h.handed ++ out).length : ℕ)

end IpncRdk.OsaShm
