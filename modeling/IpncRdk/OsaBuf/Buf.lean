import IpncRdk.OsaQue.Que

/-!
# `osa_buf.c`: buffers that go round between two queues

A buffer is its number in `bufInfo`. The numbers of the buffers to fill wait in `emptyQue`, those
of the filled ones in `fullQue`, and a client that took a buffer holds it until it puts it back.
The client functions take no lock of their own: each is one or two calls of the queues, and
other clients run between the two queue calls of a switch.

What the buffers contain (`bufInfo`) no function here looks at.
-/

namespace IpncRdk.OsaBuf

open Lib OsaQue

/-- `OSA_BUF_NUM_MAX` -/
abbrev osaBufNumMax : ℤ := 32

/-- `OSA_BUF_ID_INVALID` -/
abbrev osaBufIdInvalid : ℤ := -1

/-- The two queues of a handle. -/
inductive Which
  | empty
  | full
  deriving DecidableEq, Repr

/-- The queue at the other end. -/
def Which.other : Which → Which
  | .empty => .full
  | .full => .empty

/-- `OSA_BufHndl` -/
structure BufHndl where
  emptyQue : QueHndl
  fullQue : QueHndl
  numBuf : ℤ

namespace BufHndl

def que (hndl : BufHndl) : Which → QueHndl
  | .empty => hndl.emptyQue
  | .full => hndl.fullQue

def setQue (hndl : BufHndl) (which : Which) (que : QueHndl) : BufHndl :=
  match which with
  | .empty => { hndl with emptyQue := que }
  | .full => { hndl with fullQue := que }

end BufHndl

/-- The loop of `OSA_bufCreate` that puts the buffer numbers into `emptyQue`. A put that waits
would wait for ever. -/
def putAll (que : QueHndl) : List ℤ → Except Fault QueHndl
  | [] => .ok que
  | i :: rest =>
    match osaQuePut que i osaTimeoutForever with
    | .error fault => .error fault
    | .ok (none, _) => .error .diverges
    | .ok (some _, que) => putAll que rest

/-- `OSA_bufCreate`, with the memory that the two queues get: the status, and the handle that it
leaves behind. -/
def osaBufCreate (numBuf : ℤ) (emptyMemory fullMemory : Option (ℕ → ℤ)) :
    Except Fault (ℤ × Option BufHndl) :=
  if numBuf > osaBufNumMax then .ok (osaEfail, none)
  else
    -- `OSA_queCreate` takes the number as a `Uint32`
    let maxLen := (numBuf % 2 ^ 32).toNat
    match osaQueCreate maxLen emptyMemory, osaQueCreate maxLen fullMemory with
    | some emptyQue, some fullQue =>
      match putAll emptyQue ((List.range numBuf.toNat).map Int.ofNat) with
      | .error fault => .error fault
      | .ok emptyQue => .ok (osaSok, some ⟨emptyQue, fullQue, numBuf⟩)
    | _, _ => .ok (osaEfail, none)

/-! ## The client functions, up to the next wait -/

/-- `OSA_bufGetEmpty` and `OSA_bufGetFull`: the status, `*bufId`, and the handle. -/
def bufGet (hndl : BufHndl) (which : Which) (timeout : ℕ) :
    Except Fault (Option ℤ × ℤ × BufHndl) :=
  match osaQueGet (hndl.que which) timeout with
  | .error fault => .error fault
  | .ok (status, value, que) =>
    .ok (status, if status = some osaSok then value.getD osaBufIdInvalid else osaBufIdInvalid,
      hndl.setQue which que)

/-- `OSA_bufPutEmpty` and `OSA_bufPutFull` -/
def bufPut (hndl : BufHndl) (which : Which) (bufId : ℤ) : Except Fault (Option ℤ × BufHndl) :=
  if bufId ≥ hndl.numBuf ∨ bufId < 0 then .ok (some osaEfail, hndl)
  else
    match osaQuePut (hndl.que which) bufId osaTimeoutForever with
    | .error fault => .error fault
    | .ok (status, que) => .ok (status, hndl.setQue which que)

def osaBufGetEmpty (hndl : BufHndl) (timeout : ℕ) : Except Fault (Option ℤ × ℤ × BufHndl) :=
  bufGet hndl .empty timeout

def osaBufGetFull (hndl : BufHndl) (timeout : ℕ) : Except Fault (Option ℤ × ℤ × BufHndl) :=
  bufGet hndl .full timeout

def osaBufPutFull (hndl : BufHndl) (bufId : ℤ) : Except Fault (Option ℤ × BufHndl) :=
  bufPut hndl .full bufId

def osaBufPutEmpty (hndl : BufHndl) (bufId : ℤ) : Except Fault (Option ℤ × BufHndl) :=
  bufPut hndl .empty bufId

/-! ## Any number of clients -/

/-- Where a client is. -/
inductive Pc
  | idle
  /-- in a get, waiting for a buffer -/
  | get (which : Which) (timeout : ℕ)
  /-- in a put, waiting for room -/
  | put (which : Which) (bufId : ℤ)
  /-- in a switch that has `newBufId`, before the put of the buffer it was called with, or waiting
  for room there -/
  | switchPut (which : Which) (bufId newBufId : ℤ)
  deriving DecidableEq, Repr

/-- The handle, where the clients are and which buffers they hold; the status and the `*bufId`
that each client's last call returned; the numbers each queue took in and gave out. -/
structure State where
  hndl : BufHndl
  pc : ℕ → Pc
  held : ℕ → List ℤ
  returned : ℕ → Option (ℤ × ℤ)
  puts : Which → List ℤ
  gets : Which → List ℤ

inductive Event
  /-- `OSA_bufGetEmpty`, `OSA_bufGetFull` -/
  | get (client : ℕ) (which : Which) (timeout : ℕ)
  /-- `OSA_bufPutEmpty`, `OSA_bufPutFull` -/
  | put (client : ℕ) (which : Which) (bufId : ℤ)
  /-- `OSA_bufSwitchEmpty`, `OSA_bufSwitchFull`, by the queue that they put to -/
  | switch (client : ℕ) (which : Which) (bufId : ℤ)
  /-- a client inside a call goes on -/
  | resume (client : ℕ)
  deriving DecidableEq, Repr

namespace State

/-- After the creation: nobody holds a buffer. -/
def init (hndl : BufHndl) : State where
  hndl := hndl
  pc := fun _ => .idle
  held := fun _ => []
  returned := fun _ => none
  puts := fun which => (hndl.que which).contents
  gets := fun _ => []

variable (s : State) (client : ℕ)

/-- A client's call returns. -/
def ret (status bufId : ℤ) : State :=
  { s with
    pc := Function.update s.pc client .idle
    returned := Function.update s.returned client (some (status, bufId)) }

def goto (pc : Pc) : State := { s with pc := Function.update s.pc client pc }

/-- A client took a buffer from a queue. -/
def take (which : Which) (bufId : ℤ) (hndl : BufHndl) : State :=
  { s with
    hndl := hndl
    held := Function.update s.held client (bufId :: s.held client)
    gets := Function.update s.gets which (s.gets which ++ [bufId]) }

/-- A client put a buffer into a queue. -/
def give (which : Which) (bufId : ℤ) (hndl : BufHndl) : State :=
  { s with
    hndl := hndl
    held := Function.update s.held client ((s.held client).erase bufId)
    puts := Function.update s.puts which (s.puts which ++ [bufId]) }

/-- The queue call of a get. -/
def getStep (which : Which) (timeout : ℕ) : Option State :=
  match bufGet s.hndl which timeout with
  | .error _ => none
  | .ok (none, _, hndl) => some ({ s with hndl := hndl }.goto client (.get which timeout))
  | .ok (some status, bufId, hndl) =>
    if status = osaSok then some ((s.take client which bufId hndl).ret client status bufId)
    else some ({ s with hndl := hndl }.ret client status bufId)

/-- The queue call of a put. -/
def putStep (which : Which) (bufId : ℤ) : Option State :=
  match bufPut s.hndl which bufId with
  | .error _ => none
  | .ok (none, hndl) => some ({ s with hndl := hndl }.goto client (.put which bufId))
  | .ok (some status, hndl) =>
    if status = osaSok then some ((s.give client which bufId hndl).ret client status bufId)
    else some ({ s with hndl := hndl }.ret client status bufId)

/-- The first queue call of a switch, the get. With no buffer to give back it is the last. -/
def switchGet (which : Which) (bufId : ℤ) : Option State :=
  match bufGet s.hndl which.other osaTimeoutNone with
  | .error _ => none
  | .ok (none, _, _) => none
  | .ok (some status, newBufId, hndl) =>
    if status = osaSok then
      let s' := s.take client which.other newBufId hndl
      if bufId ≠ osaBufIdInvalid then some (s'.goto client (.switchPut which bufId newBufId))
      else some (s'.ret client status newBufId)
    else some ({ s with hndl := hndl }.ret client status bufId)

/-- The second queue call of a switch, the put. Its status is dropped, and the switch returns the
status of the get. -/
def switchPut (which : Which) (bufId newBufId : ℤ) : Option State :=
  match bufPut s.hndl which bufId with
  | .error _ => none
  | .ok (none, hndl) => some { s with hndl := hndl }
  | .ok (some status, hndl) =>
    if status = osaSok then some ((s.give client which bufId hndl).ret client osaSok newBufId)
    else some ({ s with hndl := hndl }.ret client osaSok newBufId)

def osaBufSwitchFull (bufId : ℤ) : Option State := s.switchGet client .full bufId

def osaBufSwitchEmpty (bufId : ℤ) : Option State := s.switchGet client .empty bufId

end State

/-- A client passes back only a number that it holds, or `OSA_BUF_ID_INVALID` to a switch. -/
def Allowed (s : State) : Event → Prop
  | .get client _ _ => s.pc client = .idle
  | .put client _ bufId => s.pc client = .idle ∧ bufId ∈ s.held client
  | .switch client _ bufId =>
    s.pc client = .idle ∧ (bufId = osaBufIdInvalid ∨ bufId ∈ s.held client)
  | .resume client => s.pc client ≠ .idle

instance (s : State) : (e : Event) → Decidable (Allowed s e)
  | .get client _ _ => inferInstanceAs (Decidable (s.pc client = .idle))
  | .put client _ bufId => inferInstanceAs (Decidable (s.pc client = .idle ∧ bufId ∈ s.held client))
  | .switch client _ bufId =>
    inferInstanceAs (Decidable
      (s.pc client = .idle ∧ (bufId = osaBufIdInvalid ∨ bufId ∈ s.held client)))
  | .resume client => inferInstanceAs (Decidable (s.pc client ≠ .idle))

/-- What an event does where it is allowed. -/
def act (s : State) : Event → Option State
  | .get client which timeout => s.getStep client which timeout
  | .put client which bufId => s.putStep client which bufId
  | .switch client which bufId => s.switchGet client which bufId
  | .resume client =>
    match s.pc client with
    | .idle => none
    | .get which timeout => s.getStep client which timeout
    | .put which bufId => s.putStep client which bufId
    | .switchPut which bufId newBufId => s.switchPut client which bufId newBufId

def step (s : State) (e : Event) : Option State := if Allowed s e then act s e else none

end IpncRdk.OsaBuf
