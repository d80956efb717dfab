import IpncRdk.OsaQue.Que

/-!
# `osa_mbx.c`: mailboxes

A mailbox is a pair of message queues, one for the messages to it and one for the
acknowledgements of the messages from it. A message is a handle in memory that
`OSA_msgqAllocMsgHndl` allocates; who frees it, and who frees its parameter, depends on the flags
and on whether the message is one of a broadcast.

A step of a task is what it does between two accesses to a queue, which the lock of the queue
makes atomic: one pass of the loop of `OSA_msgqSend` or `OSA_msgqRecvMsg`, or the work on a handle
that follows. Each task has a mailbox, of the same number. Handles are numbered in the order of
their allocation; what `OSA_memFree` has freed is listed and never handed out again.
-/

namespace IpncRdk.OsaMbx

open Lib OsaQue

/-- `OSA_MBX_WAIT_ACK` -/
abbrev osaMbxWaitAck : ℕ := 2

/-- `OSA_MBX_FREE_PRM` -/
abbrev osaMbxFreePrm : ℕ := 4

/-- `flags & OSA_MBX_WAIT_ACK` -/
def hasWaitAck (flags : ℕ) : Bool := flags &&& osaMbxWaitAck ≠ 0

/-- `flags & OSA_MBX_FREE_PRM` -/
def hasFreePrm (flags : ℕ) : Bool := flags &&& osaMbxFreePrm ≠ 0

/-- The two queues of an `OSA_MbxHndl`, by the number of the mailbox. -/
inductive Queue
  | rcvMbx (mbx : ℕ)
  | ackMbx (mbx : ℕ)
  deriving DecidableEq, Repr

/-- `OSA_MsgHndl`, with the pointers to a queue and to a parameter as their names. -/
structure OsaMsgHndl where
  pTo : Queue
  pFrom : Option Queue
  pPrm : Option ℕ
  status : ℤ
  cmd : ℕ
  flags : ℕ
  deriving DecidableEq, Repr

/-- The arguments of `OSA_mbxSendMsg` and `OSA_mbxBroadcastMsg`, but for the mailboxes it sends
to. -/
structure Args where
  broadcast : Bool
  /-- `pMbxFrom` is the task's own mailbox, and not `NULL` -/
  hasFrom : Bool
  cmd : ℕ
  pPrm : Option ℕ
  flags : ℕ
  deriving DecidableEq, Repr

/-- The call waits for acknowledgements. -/
def Args.waits (a : Args) : Bool := hasWaitAck a.flags && a.hasFrom

/-- What a receiving call does with a message. -/
inductive Mode
  /-- `OSA_mbxWaitMsg` -/
  | wait
  /-- `OSA_mbxCheckMsg` -/
  | check
  /-- `OSA_mbxWaitCmd`, with or without a `pMsg` -/
  | cmd (hasMsg : Bool) (waitCmd : ℕ)
  /-- the first loop of `OSA_mbxFlush` -/
  | flush
  deriving DecidableEq, Repr

/-- The timeout that it gives `OSA_msgqRecvMsg`. -/
def Mode.timeout : Mode → ℕ
  | .wait | .cmd _ _ => osaTimeoutForever
  | .check | .flush => osaTimeoutNone

/-- Where `OSA_mbxAckOrFreeMsg` returns to. -/
inductive Then
  | ret
  /-- the loop of a receiving call -/
  | again (mbx : ℕ) (mode : Mode)
  deriving DecidableEq, Repr

/-- Where a task is. -/
inductive Pc
  /-- outside -/
  | idle
  /-- at an assertion that has failed -/
  | stopped
  /-- `OSA_msgqAllocMsgHndl` for the next mailbox; `sent` are the messages sent before -/
  | alloc (a : Args) (pMbxTo : ℕ) (todo sent : List ℕ)
  /-- `OSA_msgqSend` -/
  | put (a : Args) (msg pMbxTo : ℕ) (todo sent : List ℕ)
  /-- `OSA_msgqRecvMsg` on the own `ackMbx`; `sent` are `pSentMsgList` and `ackList` -/
  | waitAck (a : Args) (sent : List (ℕ × Bool)) (ackRetVal : ℤ)
  /-- behind it, with a message -/
  | acked (a : Args) (sent : List (ℕ × Bool)) (ackRetVal : ℤ) (pRcvMsg : ℕ)
  /-- `OSA_msgqRecvMsg` on a `rcvMbx` -/
  | recv (mbx : ℕ) (mode : Mode)
  /-- `OSA_mbxWaitCmd`, with a message -/
  | compare (mbx : ℕ) (hasMsg : Bool) (waitCmd pRcvMsg : ℕ)
  /-- `OSA_mbxAckOrFreeMsg` -/
  | ackOrFree (pMsg : ℕ) (ackRetVal : ℤ) (next : Then)
  /-- `OSA_msgqSendAck`, behind the write of the status -/
  | sendAck (pMsg : ℕ) (queue : Queue) (next : Then)
  /-- the second loop of `OSA_mbxFlush` -/
  | flushAck (mbx : ℕ)
  /-- the same, with a message -/
  | flushFree (mbx pMsg : ℕ)
  deriving DecidableEq, Repr

/-- A finished call that waited: its messages, and the status it returned. -/
structure Result where
  task : ℕ
  broadcast : Bool
  sent : List ℕ
  status : ℤ
  deriving DecidableEq, Repr

structure State where
  que : Queue → MsgqHndl ℕ
  /-- the handles in memory -/
  msgs : ℕ → OsaMsgHndl
  /-- how many have been allocated -/
  next : ℕ
  pc : ℕ → Pc
  /-- the messages a task has received and not yet acknowledged or freed -/
  held : ℕ → List ℕ
  /-- the last status a call of a task has returned -/
  returned : ℕ → Option ℤ
  /-- the handles that have been freed -/
  freed : List ℕ
  /-- the parameters that have been freed -/
  prmFreed : List ℕ
  /-- the parameters that have been sent with `OSA_MBX_FREE_PRM` -/
  passed : List ℕ
  /-- the task that a handle was allocated by, and its call -/
  caller : ℕ → ℕ × Args
  /-- the statuses passed to `OSA_mbxAckOrFreeMsg` for a handle -/
  given : ℕ → List ℤ
  /-- a handle has been read or written after it was freed -/
  misused : Bool
  results : List Result

/-- The loop over `pSentMsgList` that marks an acknowledgement; `none` is an unknown one. -/
def markAck (pRcvMsg : ℕ) : List (ℕ × Bool) → Option (List (ℕ × Bool))
  | [] => none
  | (msg, ack) :: sent =>
    if pRcvMsg = msg then some ((msg, true) :: sent)
    else (markAck pRcvMsg sent).map fun sent => (msg, ack) :: sent

/-! ## Memory and calls -/

namespace State

def goto (s : State) (task : ℕ) (pc : Pc) : State :=
  { s with pc := Function.update s.pc task pc }

/-- The call of a task returns. -/
def ret (s : State) (task : ℕ) (status : ℤ) : State :=
  { s with
    pc := Function.update s.pc task .idle
    returned := Function.update s.returned task (some status) }

/-- A call that waited returns. -/
def finish (s : State) (task : ℕ) (a : Args) (sent : List (ℕ × Bool)) (status : ℤ) : State :=
  { s.ret task status with
    results := ⟨task, a.broadcast, sent.map Prod.fst, status⟩ :: s.results }

/-- A receiving call returns a message. -/
def receive (s : State) (task pMsg : ℕ) : State :=
  { s.ret task osaSok with held := Function.update s.held task (pMsg :: s.held task) }

def setQue (s : State) (queue : Queue) (hndl : MsgqHndl ℕ) : State :=
  { s with que := Function.update s.que queue hndl }

/-- An access to a handle. -/
def access (s : State) (msg : ℕ) : State :=
  { s with misused := s.misused || decide (msg ∈ s.freed) }

/-- `OSA_mbxAckOrFreeMsg` is called with a status. -/
def give (s : State) (msg : ℕ) (ackRetVal : ℤ) : State :=
  { s with given := Function.update s.given msg (s.given msg ++ [ackRetVal]) }

/-- `msg->status = ackRetVal` -/
def setStatus (s : State) (msg : ℕ) (ackRetVal : ℤ) : State :=
  { s with msgs := Function.update s.msgs msg { s.msgs msg with status := ackRetVal } }

/-- `OSA_memFree` of a parameter, where it is not `NULL` -/
def freePrm (s : State) (pPrm : Option ℕ) : State :=
  { s with prmFreed := pPrm.toList ++ s.prmFreed }

/-- `OSA_msgqFreeMsgHndl` -/
def freeMsgHndl (s : State) (msg : ℕ) : State := { s with freed := msg :: s.freed }

/-- `OSA_mbxFreeMsg` -/
def mbxFreeMsg (s : State) (pMsg : ℕ) : State :=
  let s := s.access pMsg
  let s := if hasFreePrm (s.msgs pMsg).flags then s.freePrm (s.msgs pMsg).pPrm else s
  s.freeMsgHndl pMsg

/-- Where `OSA_mbxAckOrFreeMsg` ends. -/
def leave (s : State) (task : ℕ) : Then → State
  | .ret => s.ret task osaSok
  | .again mbx mode => s.goto task (.recv mbx mode)

/-! ## Sending -/

/-- `OSA_msgqAllocMsgHndl`; without memory the assertion on the result fails. -/
def allocMsgHndl (s : State) (task : ℕ) (a : Args) (pMbxTo : ℕ) (todo sent : List ℕ)
    (hasMemory : Bool) : State :=
  if hasMemory then
    { s with
      msgs := Function.update s.msgs s.next
        { pTo := .rcvMbx pMbxTo
          pFrom := if a.hasFrom then some (.ackMbx task) else none
          pPrm := a.pPrm
          status := osaSok
          cmd := a.cmd % 2 ^ 16
          flags := a.flags % 2 ^ 16 }
      next := s.next + 1
      pc := Function.update s.pc task (.put a s.next pMbxTo todo sent)
      caller := Function.update s.caller s.next (task, a) }
  else s.goto task .stopped

/-- What follows the sending of a message: the next one, the wait for the acknowledgements, or
the return. -/
def sendNext (s : State) (task : ℕ) (a : Args) (todo sent : List ℕ) : State :=
  match todo with
  | pMbxTo :: todo => s.goto task (.alloc a pMbxTo todo sent)
  | [] =>
    if a.waits then s.goto task (.waitAck a (sent.map fun msg => (msg, false)) osaSok)
    else s.ret task osaSok

/-- One pass of `OSA_msgqSend`, from `OSA_msgqSendMsg`. -/
def sendMsg (s : State) (task : ℕ) (a : Args) (msg pMbxTo : ℕ) (todo sent : List ℕ) :
    Option State :=
  match osaMsgqSend (s.que (.rcvMbx pMbxTo)) msg osaTimeoutForever with
  | .error _ => none
  | .ok (none, _) => some s
  | .ok (some _, hndl) =>
    some ((s.setQue (.rcvMbx pMbxTo) hndl).sendNext task a todo (sent ++ [msg]))

/-! ## Acknowledgements -/

/-- The loop of `OSA_mbxBroadcastMsg` behind an acknowledgement: another pass while one is missing,
then the parameter is freed. -/
def waitMore (s : State) (task : ℕ) (a : Args) (sent : List (ℕ × Bool)) (ackRetVal : ℤ) : State :=
  if sent.any fun msg => !msg.2 then s.goto task (.waitAck a sent ackRetVal)
  else
    let s := if hasFreePrm a.flags then s.freePrm a.pPrm else s
    s.finish task a sent ackRetVal

/-- An acknowledgement in `OSA_mbxBroadcastMsg`. The status counts while all before were good. -/
def broadcastAcked (s : State) (task : ℕ) (a : Args) (sent : List (ℕ × Bool)) (ackRetVal : ℤ)
    (pRcvMsg : ℕ) : State :=
  match markAck pRcvMsg sent with
  | some sent =>
    let ackRetVal := if ackRetVal = osaSok then (s.msgs pRcvMsg).status else ackRetVal
    ((s.access pRcvMsg).freeMsgHndl pRcvMsg).waitMore task a sent ackRetVal
  | none => (s.mbxFreeMsg pRcvMsg).waitMore task a sent ackRetVal

/-- An acknowledgement in `OSA_mbxSendMsg`, which has sent one message. -/
def sendAcked (s : State) (task : ℕ) (a : Args) (sent : List (ℕ × Bool)) (ackRetVal : ℤ)
    (pRcvMsg : ℕ) : State :=
  match markAck pRcvMsg sent with
  | some sent => (s.mbxFreeMsg pRcvMsg).finish task a sent (s.msgs pRcvMsg).status
  | none => (s.mbxFreeMsg pRcvMsg).goto task (.waitAck a sent ackRetVal)

/-- One pass of `OSA_msgqRecvMsg` on the own `ackMbx`. -/
def recvAck (s : State) (task : ℕ) (a : Args) (sent : List (ℕ × Bool)) (ackRetVal : ℤ) :
    Option State :=
  match osaMsgqRecvMsg (s.que (.ackMbx task)) osaTimeoutForever with
  | .error _ => none
  | .ok (_, none, _) => some s
  | .ok (_, some msg, hndl) =>
    some ((s.setQue (.ackMbx task) hndl).goto task (.acked a sent ackRetVal msg))

/-! ## Receiving -/

/-- One pass of `OSA_msgqRecvMsg` on a `rcvMbx`. -/
def recvMsg (s : State) (task mbx : ℕ) (mode : Mode) : Option State :=
  match osaMsgqRecvMsg (s.que (.rcvMbx mbx)) mode.timeout with
  | .error _ => none
  | .ok (_, some msg, hndl) =>
    let s := s.setQue (.rcvMbx mbx) hndl
    match mode with
    | .wait | .check => some (s.receive task msg)
    | .cmd hasMsg waitCmd => some (s.goto task (.compare mbx hasMsg waitCmd msg))
    | .flush => some (s.goto task (.ackOrFree msg osaSok (.again mbx .flush)))
  | .ok (some status, none, _) =>
    match mode with
    | .flush => some (s.goto task (.flushAck mbx))
    | _ => some (s.ret task status)
  | .ok (none, none, _) => some s

/-- `OSA_mbxWaitCmd` behind `OSA_mbxWaitMsg`. -/
def compareCmd (s : State) (task mbx : ℕ) (hasMsg : Bool) (waitCmd pRcvMsg : ℕ) : State :=
  let s := s.access pRcvMsg
  if (s.msgs pRcvMsg).cmd = waitCmd then
    if hasMsg then s.receive task pRcvMsg else s.goto task (.ackOrFree pRcvMsg osaSok .ret)
  else s.goto task (.ackOrFree pRcvMsg osaSok (.again mbx (.cmd hasMsg waitCmd)))

/-- `OSA_mbxAckOrFreeMsg`; `OSA_msgqSendAck` writes the status and reads `pFrom`. -/
def ackOrFreeMsg (s : State) (task pMsg : ℕ) (ackRetVal : ℤ) (next : Then) : Option State :=
  let s := (s.access pMsg).give pMsg ackRetVal
  if hasWaitAck (s.msgs pMsg).flags then
    match (s.msgs pMsg).pFrom with
    | none => none
    | some queue =>
      some ((s.setStatus pMsg ackRetVal).goto task (.sendAck pMsg queue next))
  else some ((s.mbxFreeMsg pMsg).leave task next)

/-- One pass of `OSA_msgqSend`, from `OSA_msgqSendAck`. -/
def sendAck (s : State) (task pMsg : ℕ) (queue : Queue) (next : Then) : Option State :=
  match osaMsgqSend (s.que queue) pMsg osaTimeoutForever with
  | .error _ => none
  | .ok (none, _) => some s
  | .ok (some _, hndl) => some ((s.setQue queue hndl).leave task next)

/-- One pass of `OSA_msgqRecvMsg` on the `ackMbx` that is flushed. -/
def flushAck (s : State) (task mbx : ℕ) : Option State :=
  match osaMsgqRecvMsg (s.que (.ackMbx mbx)) osaTimeoutNone with
  | .error _ => none
  | .ok (_, some msg, hndl) =>
    some ((s.setQue (.ackMbx mbx) hndl).goto task (.flushFree mbx msg))
  | .ok (some status, none, _) => some (s.ret task status)
  | .ok (none, none, _) => some s

/-- The next step of a call. -/
def resume (s : State) (task : ℕ) (hasMemory : Bool) : Option State :=
  match s.pc task with
  | .idle | .stopped => none
  | .alloc a pMbxTo todo sent => some (s.allocMsgHndl task a pMbxTo todo sent hasMemory)
  | .put a msg pMbxTo todo sent => s.sendMsg task a msg pMbxTo todo sent
  | .waitAck a sent ackRetVal => s.recvAck task a sent ackRetVal
  | .acked a sent ackRetVal pRcvMsg =>
    if a.broadcast then some (s.broadcastAcked task a sent ackRetVal pRcvMsg)
    else some (s.sendAcked task a sent ackRetVal pRcvMsg)
  | .recv mbx mode => s.recvMsg task mbx mode
  | .compare mbx hasMsg waitCmd pRcvMsg => some (s.compareCmd task mbx hasMsg waitCmd pRcvMsg)
  | .ackOrFree pMsg ackRetVal next => s.ackOrFreeMsg task pMsg ackRetVal next
  | .sendAck pMsg queue next => s.sendAck task pMsg queue next
  | .flushAck mbx => s.flushAck task mbx
  | .flushFree mbx pMsg => some ((s.mbxFreeMsg pMsg).goto task (.flushAck mbx))

end State

/-! ## Runs -/

/-- `OSA_MBX_BROADCAST_MAX` -/
abbrev osaMbxBroadcastMax : ℕ := 10

inductive Call
  | sendMsg (pMbxTo : ℕ) (hasFrom : Bool) (cmd : ℕ) (pPrm : Option ℕ) (flags : ℕ)
  | broadcastMsg (pMbxToList : List ℕ) (hasFrom : Bool) (cmd : ℕ) (pPrm : Option ℕ)
    (flags : ℕ)
  | waitMsg (mbx : ℕ)
  | checkMsg (mbx : ℕ)
  | waitCmd (mbx : ℕ) (hasMsg : Bool) (waitCmd : ℕ)
  | ackOrFreeMsg (pMsg : ℕ) (ackRetVal : ℤ)
  | flush (mbx : ℕ)
  deriving DecidableEq, Repr

/-- A parameter is passed with `OSA_MBX_FREE_PRM`. -/
def State.pass (s : State) (pPrm : Option ℕ) (flags : ℕ) : State :=
  { s with passed := if hasFreePrm flags then pPrm.toList ++ s.passed else s.passed }

/-- `OSA_mbxSendMsg` up to its first access to memory. -/
def State.beginSend (s : State) (task pMbxTo : ℕ) (a : Args) : State :=
  if hasWaitAck a.flags && !a.hasFrom then (s.pass a.pPrm a.flags).goto task .stopped
  else (s.pass a.pPrm a.flags).goto task (.alloc a pMbxTo [] [])

/-- `OSA_mbxBroadcastMsg` up to its first access to memory: its assertions, and the return where
the list is empty. -/
def State.beginBroadcast (s : State) (task : ℕ) (pMbxToList : List ℕ) (a : Args) : State :=
  let s := s.pass a.pPrm a.flags
  if hasWaitAck a.flags && !a.hasFrom then s.goto task .stopped
  else if osaMbxBroadcastMax ≤ pMbxToList.length then s.goto task .stopped
  else
    match pMbxToList with
    | [] => s.ret task osaSok
    | pMbxTo :: todo =>
      if hasFreePrm a.flags && !hasWaitAck a.flags && !todo.isEmpty then s.goto task .stopped
      else s.goto task (.alloc a pMbxTo todo [])

/-- A call begins. -/
def State.begin (s : State) (task : ℕ) : Call → State
  | .sendMsg pMbxTo hasFrom cmd pPrm flags =>
    s.beginSend task pMbxTo ⟨false, hasFrom, cmd, pPrm, flags⟩
  | .broadcastMsg pMbxToList hasFrom cmd pPrm flags =>
    s.beginBroadcast task pMbxToList ⟨true, hasFrom, cmd, pPrm, flags⟩
  | .waitMsg mbx => s.goto task (.recv mbx .wait)
  | .checkMsg mbx => s.goto task (.recv mbx .check)
  | .waitCmd mbx hasMsg waitCmd => s.goto task (.recv mbx (.cmd hasMsg waitCmd))
  | .ackOrFreeMsg pMsg ackRetVal =>
    { s with held := Function.update s.held task ((s.held task).erase pMsg) }.goto task
      (.ackOrFree pMsg ackRetVal .ret)
  | .flush mbx => s.goto task (.recv mbx .flush)

inductive Event
  | call (task : ℕ) (c : Call)
  /-- a task goes on with its call; `hasMemory` is of use where it allocates -/
  | resume (task : ℕ) (hasMemory : Bool)
  deriving DecidableEq, Repr

/-- What the callers of the two sending functions promise: to wait only with a mailbox to be
answered at, and a parameter of its own for each message that frees it. -/
def SendAllowed (s : State) (hasFrom : Bool) (pPrm : Option ℕ) (flags : ℕ) : Prop :=
  (hasWaitAck flags = true → hasFrom = true) ∧
    (hasFreePrm flags = true → ∀ p ∈ pPrm.toList, p ∉ s.passed)

/-- What the callers promise: a broadcast goes to at most 9 mailboxes, and a message is
acknowledged or freed by the task that has received it, once. -/
def CallAllowed (s : State) (task : ℕ) : Call → Prop
  | .sendMsg _ hasFrom _ pPrm flags => SendAllowed s hasFrom pPrm flags
  | .broadcastMsg pMbxToList hasFrom _ pPrm flags =>
    SendAllowed s hasFrom pPrm flags ∧ pMbxToList.length < osaMbxBroadcastMax
  | .ackOrFreeMsg pMsg _ => pMsg ∈ s.held task
  | _ => True

/-- A task is in one call at a time. -/
def Allowed (s : State) : Event → Prop
  | .call task c => s.pc task = .idle ∧ CallAllowed s task c
  | .resume task _ => s.pc task ≠ .idle ∧ s.pc task ≠ .stopped

instance (s : State) (hasFrom : Bool) (pPrm : Option ℕ) (flags : ℕ) :
    Decidable (SendAllowed s hasFrom pPrm flags) :=
  inferInstanceAs (Decidable ((hasWaitAck flags = true → hasFrom = true) ∧
    (hasFreePrm flags = true → ∀ p ∈ pPrm.toList, p ∉ s.passed)))

instance (s : State) (task : ℕ) : (c : Call) → Decidable (CallAllowed s task c)
  | .sendMsg _ hasFrom _ pPrm flags =>
    inferInstanceAs (Decidable (SendAllowed s hasFrom pPrm flags))
  | .broadcastMsg pMbxToList hasFrom _ pPrm flags =>
    inferInstanceAs (Decidable
      (SendAllowed s hasFrom pPrm flags ∧ pMbxToList.length < osaMbxBroadcastMax))
  | .ackOrFreeMsg pMsg _ => inferInstanceAs (Decidable (pMsg ∈ s.held task))
  | .waitMsg _ | .checkMsg _ | .waitCmd _ _ _ | .flush _ => inferInstanceAs (Decidable True)

instance (s : State) : (e : Event) → Decidable (Allowed s e)
  | .call task c => inferInstanceAs (Decidable (s.pc task = .idle ∧ CallAllowed s task c))
  | .resume task _ => inferInstanceAs (Decidable (s.pc task ≠ .idle ∧ s.pc task ≠ .stopped))

def act (s : State) : Event → Option State
  | .call task c => some (s.begin task c)
  | .resume task hasMemory => s.resume task hasMemory

def step (s : State) (e : Event) : Option State := if Allowed s e then act s e else none

/-- All mailboxes after `OSA_mbxCreate`, and no task in a call. -/
def start (memory : Queue → ℕ → ℕ) : State where
  que queue := osaMsgqCreate (memory queue)
  msgs _ := ⟨.rcvMbx 0, none, none, osaSok, 0, 0⟩
  next := 0
  pc _ := .idle
  held _ := []
  returned _ := none
  freed := []
  prmFreed := []
  passed := []
  caller _ := (0, ⟨false, false, 0, none, 0⟩)
  given _ := []
  misused := false
  results := []

namespace State

variable {s : State} {task other : ℕ}

@[simp] lemma pc_goto_self (pc : Pc) : (s.goto task pc).pc task = pc := Function.update_self ..

lemma pc_goto_of_ne (h : other ≠ task) (pc : Pc) : (s.goto task pc).pc other = s.pc other :=
  Function.update_of_ne h ..

@[simp] lemma pc_ret_self (status : ℤ) : (s.ret task status).pc task = .idle :=
  Function.update_self ..

lemma pc_ret_of_ne (h : other ≠ task) (status : ℤ) : (s.ret task status).pc other = s.pc other :=
  Function.update_of_ne h ..

@[simp] lemma que_setQue_self (queue : Queue) (hndl : MsgqHndl ℕ) :
    (s.setQue queue hndl).que queue = hndl := Function.update_self ..

lemma que_setQue_of_ne {queue queue' : Queue} (h : queue' ≠ queue) (hndl : MsgqHndl ℕ) :
    (s.setQue queue hndl).que queue' = s.que queue' := Function.update_of_ne h ..

end State

end IpncRdk.OsaMbx
