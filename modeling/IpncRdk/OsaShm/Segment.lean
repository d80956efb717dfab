import IpncRdk.OsaShm.Fifo

/-!
# `osa_shm.c`: the shared segment, byte by byte

The segment that `shmget` gives begins with the `struct fifo`, so that `OSA_shmWrite` and
`OSA_shmRead` reach it too. `OSA_shmCreate` asks for `size` bytes, records 28 more, the size of the
header, as the size of the segment, and lays out a FIFO of `size` bytes behind the header. A
`memcpy` that leaves the bytes of the segment is a fault.
-/

namespace IpncRdk.OsaShm

open Lib

/-! ## Ints in memory -/

/-- The `int` at an offset, its lowest byte first. -/
def getInt (mem : ℕ → UInt8) (off : ℕ) : ℤ :=
  wrap32 ((mem off).toNat + 2 ^ 8 * (mem (off + 1)).toNat + 2 ^ 16 * (mem (off + 2)).toNat
    + 2 ^ 24 * (mem (off + 3)).toNat : ℕ)

/-- The bytes of an `int`. -/
def intBytes (x : ℤ) : List UInt8 :=
  let n := (x % 2 ^ 32).toNat
  [UInt8.ofNat n, UInt8.ofNat (n / 2 ^ 8), UInt8.ofNat (n / 2 ^ 16), UInt8.ofNat (n / 2 ^ 24)]

def putInt (mem : ℕ → UInt8) (off : ℕ) (x : ℤ) : ℕ → UInt8 := memcpy mem off (intBytes x)

/-- The `struct fifo` at the start of the segment. A flag is whether its `int` is not 0. -/
def header (mem : ℕ → UInt8) : Fifo where
  curRd := getInt mem 0
  curWr := getInt mem 4
  use := getInt mem 8
  capacity := getInt mem 12
  isFull := getInt mem 16 ≠ 0
  isEmpty := getInt mem 20 ≠ 0

section Ints
variable {mem : ℕ → UInt8} {off off' : ℕ} {x : ℤ}

@[simp] lemma getInt_putInt_self (mem : ℕ → UInt8) (off : ℕ) (x : ℤ) :
    getInt (putInt mem off x) off = wrap32 x := by
  have hlo : memcpy mem off (intBytes x) off = UInt8.ofNat (x % 2 ^ 32).toNat :=
    memcpy_add mem off 0 (intBytes x)
  unfold getInt putInt
  rw [hlo, memcpy_add, memcpy_add, memcpy_add]
  unfold intBytes
  simp only [List.getElem?_cons_succ, List.getElem?_cons_zero, Option.getD_some,
    UInt8.toNat_ofNat']
  have hbytes (n : ℕ) (hn : n < 2 ^ 32) : n % 2 ^ 8 + 2 ^ 8 * (n / 2 ^ 8 % 2 ^ 8)
      + 2 ^ 16 * (n / 2 ^ 16 % 2 ^ 8) + 2 ^ 24 * (n / 2 ^ 24 % 2 ^ 8) = n := by
    omega
  rw [hbytes _ (by omega), Int.toNat_of_nonneg (Int.emod_nonneg x (by decide))]
  exact Int.emod_bmod x (2 ^ 32)

/-- An `int` elsewhere is what it was. -/
lemma getInt_memcpy {src : List UInt8} (h : off' + 4 ≤ off ∨ off + src.length ≤ off') :
    getInt (memcpy mem off src) off' = getInt mem off' := by
  unfold getInt
  rw [memcpy_of_outside (by omega), memcpy_of_outside (by omega), memcpy_of_outside (by omega),
    memcpy_of_outside (by omega)]

@[simp] lemma getInt_putInt (h : off' + 4 ≤ off ∨ off + 4 ≤ off') :
    getInt (putInt mem off x) off' = getInt mem off' := getInt_memcpy h

end Ints

/-! ## The segment -/

/-- The number of bytes that `shmget` gave, `hndl->size`, and the memory from `hndl->mem` on. -/
structure Segment where
  bytes : ℕ
  size : ℤ
  mem : ℕ → UInt8
  bytes_lt : bytes < 2 ^ 31

namespace Segment

/-- What `shmget` gave: a new segment of the size asked for, one that was there before and that
may be larger, or an error. -/
inductive ShmGet
  | created (mem : ℕ → UInt8)
  | attached (bytes : ℕ) (bytes_lt : bytes < 2 ^ 31) (mem : ℕ → UInt8)
  | failed

/-- The segment of `OSA_shmCreate` where nobody has made one before. -/
def laidOut (size : Int32) (mem : ℕ → UInt8) : Segment where
  bytes := size.toInt.toNat
  size := wrap32 (size.toInt + sizeofFifo)
  mem :=
    let mem := putInt mem 12 size.toInt
    let mem := putInt mem 20 1
    let mem := putInt mem 16 0
    let mem := putInt mem 8 0
    let mem := putInt mem 0 0
    putInt mem 4 0
  bytes_lt := by have := size.toInt_lt; omega

/-- `OSA_shmCreate`: `none` is the return value -1. -/
def osaShmCreate (size : Int32) : ShmGet → Option Segment
  | .created mem => some (laidOut size mem)
  | .attached bytes bytes_lt mem => some ⟨bytes, wrap32 (size.toInt + sizeofFifo), mem, bytes_lt⟩
  | .failed => none

/-- The `struct fifo` of the segment. -/
def fifo (s : Segment) : Fifo := header s.mem

/-- `n` bytes from `off` on are bytes of the segment. A negative `n` is a large `size_t`. -/
def Inside (s : Segment) (off n : ℤ) : Prop := n = 0 ∨ 0 ≤ off ∧ 0 < n ∧ off + n ≤ s.bytes

instance (s : Segment) (off n : ℤ) : Decidable (s.Inside off n) :=
  inferInstanceAs (Decidable (_ ∨ _))

/-- The return value of a call, `none` where it returns without one, and the bytes it copied from
or to the caller. -/
structure Reply where
  ret : Option ℤ
  moved : List UInt8

/-- The reply of a call that returns -1. -/
def refusal : Reply := ⟨some (-1), []⟩

/-- A call with a `memcpy` of `n` bytes at `off`. -/
def copying (s : Segment) (off n : ℤ) (done : Reply × Segment) : Except Fault (Reply × Segment) :=
  if s.Inside off n then .ok done else .error .outOfBounds

/-- `OSA_shmWrite`. The caller's pointer is `none` for `NULL`. -/
def osaShmWrite (s : Segment) (start : ℤ) (addr : Option (ℕ → UInt8)) (len : ℤ) :
    Except Fault (Reply × Segment) :=
  match addr with
  | none => .ok (refusal, s)
  | some src =>
    if start < 0 then .ok (refusal, s)
    else if wrap32 (start + len) > s.size then .ok (refusal, s)
    else
      s.copying start len
        (⟨some 0, window src 0 len.toNat⟩,
          { s with mem := memcpy s.mem start.toNat (window src 0 len.toNat) })

/-- `OSA_shmRead`, which returns without a value. `addr` says whether the caller's pointer is not
`NULL`. -/
def osaShmRead (s : Segment) (start : ℤ) (addr : Bool) (len : ℤ) :
    Except Fault (Reply × Segment) :=
  if start < 0 ∨ addr = false then .ok (refusal, s)
  else if wrap32 (start + len) > s.size then .ok (refusal, s)
  else s.copying start len (⟨none, window s.mem start.toNat len.toNat⟩, s)

/-- The cursor and the flag after the copy of `OSA_fifoWrite`, which may have reached the header. -/
def storeWrite (mem : ℕ → UInt8) (wSize : ℤ) : ℕ → UInt8 :=
  let mem := putInt mem 4 ((header mem).curWr + wSize)
  let mem := putInt mem 8 ((header mem).use + wSize)
  putInt mem 20 0

/-- The cursors and the flags after the copy of `OSA_fifoRead`. -/
def storeRead (mem : ℕ → UInt8) (rSize : ℤ) (pastEnd : Bool) : ℕ → UInt8 :=
  let mem := if pastEnd then putInt mem 20 1 else mem
  let mem := putInt mem 0 ((header mem).curRd + rSize)
  let mem := putInt mem 8 ((header mem).use - rSize)
  let mem := if (header mem).isEmpty then putInt (putInt (putInt mem 0 0) 4 0) 8 0 else mem
  putInt mem 16 0

/-- `OSA_fifoWrite`, on the bytes. -/
def osaFifoWrite (s : Segment) (addr : Option (ℕ → UInt8)) (len : ℤ) :
    Except Fault (Reply × Segment) :=
  match addr with
  | none => .ok (refusal, s)
  | some src =>
    if len < 0 then .ok (refusal, s)
    else if s.fifo.isFull then .ok (refusal, s)
    else
      let wSize := writeSize s.fifo len
      let off := sizeofFifo + s.fifo.curWr
      let mem := if writePastEnd s.fifo len then putInt s.mem 16 1 else s.mem
      s.copying off wSize
        (⟨some wSize, window src 0 wSize.toNat⟩,
          { s with mem := storeWrite (memcpy mem off.toNat (window src 0 wSize.toNat)) wSize })

/-- `OSA_fifoRead`, on the bytes. -/
def osaFifoRead (s : Segment) (addr : Bool) (len : ℤ) : Except Fault (Reply × Segment) :=
  if addr = false ∨ len < 0 then .ok (refusal, s)
  else if s.fifo.isEmpty then .ok (⟨some 0, []⟩, s)
  else
    let rSize := readSize s.fifo len
    let off := sizeofFifo + s.fifo.curRd
    s.copying off rSize
      (⟨some rSize, window s.mem off.toNat rSize.toNat⟩,
        { s with mem := storeRead s.mem rSize (readPastEnd s.fifo len) })

/-! ## Sequences of calls -/

inductive Call
  | shmWrite (start : Int32) (addr : Option (ℕ → UInt8)) (len : Int32)
  | shmRead (start : Int32) (addr : Bool) (len : Int32)
  | fifoWrite (addr : Option (ℕ → UInt8)) (len : Int32)
  | fifoRead (addr : Bool) (len : Int32)

def Call.len : Call → ℤ
  | .shmWrite _ _ len | .shmRead _ _ len | .fifoWrite _ len | .fifoRead _ len => len.toInt

def call (s : Segment) : Call → Except Fault (Reply × Segment)
  | .shmWrite start addr len => s.osaShmWrite start.toInt addr len.toInt
  | .shmRead start addr len => s.osaShmRead start.toInt addr len.toInt
  | .fifoWrite addr len => s.osaFifoWrite addr len.toInt
  | .fifoRead addr len => s.osaFifoRead addr len.toInt

/-- The segment after a call, `none` where the call faults. -/
def step (s : Segment) (c : Call) : Option Segment := (s.call c).toOption.map Prod.snd

end Segment

end IpncRdk.OsaShm
