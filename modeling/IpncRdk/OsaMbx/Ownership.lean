import IpncRdk.OsaMbx.Mbx
import IpncRdk.OsaQue.QueTheorems
import IpncRdk.Lib.Places

/-!
# Who owns a message and its parameter

* `ids` — where the handles are: in a queue, with a receiver, in a call, or freed;
* `LifeCycle` — what is true of handles, parameters and returned statuses in every state;
* `Fits` — the steps that keep it;
* `Inv` — the invariant behind it: each handle is at one place, each parameter that is to be freed
  is owned by one message or one call, and a call that waits is owed its acknowledgements.
-/

namespace IpncRdk.OsaMbx

open Lib OsaQue

/-! ## The life cycle -/

/-- Where a handle can be. -/
inductive Place
  | que (queue : Queue)
  | held (task : ℕ)
  | pc (task : ℕ)
  | freed
  deriving DecidableEq

/-- The handle that a call works on. -/
def Pc.holds : Pc → Option ℕ
  | .put _ msg _ _ _ | .acked _ _ _ msg | .compare _ _ _ msg | .ackOrFree msg _ _
  | .sendAck msg _ _ | .flushFree _ msg => some msg
  | .idle | .stopped | .alloc .. | .waitAck .. | .recv .. | .flushAck .. => none

/-- The handles at a place. -/
def ids (s : State) : Place → List ℕ
  | .que queue => (s.que queue).contents
  | .held task => s.held task
  | .pc task => (s.pc task).holds.toList
  | .freed => s.freed

/-- The parameter is freed with the message. -/
def Carries (s : State) (msg p : ℕ) : Prop :=
  hasFreePrm (s.msgs msg).flags = true ∧ (s.msgs msg).pPrm = some p

/-- No task is inside a call, but at a failed assertion, and no message is under way. -/
structure Settled (s : State) : Prop where
  pc : ∀ task, s.pc task = .idle ∨ s.pc task = .stopped
  held : ∀ task, s.held task = []
  que : ∀ queue, (s.que queue).contents = []

/-- Each of the messages has been given one status, and the status returned is good exactly if
all of them are. -/
def Verdict (s : State) (msgs : List ℕ) (status : ℤ) : Prop :=
  (∀ msg ∈ msgs, ∃ given, s.given msg = [given]) ∧
    (status = osaSok ↔ ∀ msg ∈ msgs, s.given msg = [osaSok])

/-- The status returned is the one that the receivers gave. -/
def Result.Ok (r : Result) (s : State) : Prop :=
  if r.broadcast then Verdict s r.sent r.status
  else ∃ msg, r.sent = [msg] ∧ s.given msg = [r.status]

structure LifeCycle (s : State) : Prop where
  /-- every handle is at one place, and among the freed ones once -/
  placed : Placed (ids s) (· < s.next)
  prm_once : s.prmFreed.Nodup
  /-- a parameter is freed when all messages with it have been acknowledged or released -/
  prm_after : ∀ p ∈ s.prmFreed, ∀ msg < s.next, Carries s msg p → s.given msg ≠ []
  /-- in the end everything has been freed -/
  settled : Settled s → (∀ msg < s.next, msg ∈ s.freed) ∧ ∀ p ∈ s.passed, p ∈ s.prmFreed
  unmisused : s.misused = false
  results : ∀ r ∈ s.results, r.Ok s

/-! ## The steps that keep it -/

/-- The messages without an acknowledgement. -/
def missing (sent : List (ℕ × Bool)) : List ℕ := (sent.filter fun msg => !msg.2).map Prod.fst

/-- The messages with one. -/
def answered (sent : List (ℕ × Bool)) : List ℕ := (sent.filter fun msg => msg.2).map Prod.fst

/-- The messages that a call has an acknowledgement to come of. -/
def Pc.due : Pc → List ℕ
  | .alloc a _ _ sent => if a.waits then sent else []
  | .put a msg _ _ sent => if a.waits then sent ++ [msg] else []
  | .waitAck _ sent _ | .acked _ sent _ _ => missing sent
  | _ => []

/-- Memory for messages suffices, and acknowledgements are not flushed while some are due. -/
def ResumeFits (s : State) (hasMemory : Bool) : Pc → Prop
  | .alloc .. => hasMemory = true
  | .flushAck mbx => (s.pc mbx).due = []
  | _ => True

/-- A parameter to be freed is broadcast to some mailbox, and to several only by a call that
waits; and a call goes on as `ResumeFits` says. -/
def Fits (s : State) : Event → Prop
  | .call _ (.broadcastMsg pMbxToList _ _ _ flags) =>
    hasFreePrm flags = true →
      pMbxToList ≠ [] ∧ (hasWaitAck flags = true ∨ pMbxToList.length = 1)
  | .call _ _ => True
  | .resume task hasMemory => ResumeFits s hasMemory (s.pc task)

instance (s : State) (hasMemory : Bool) : (pc : Pc) → Decidable (ResumeFits s hasMemory pc)
  | .alloc .. => inferInstanceAs (Decidable (hasMemory = true))
  | .flushAck mbx => inferInstanceAs (Decidable ((s.pc mbx).due = []))
  | .idle | .stopped | .put .. | .waitAck .. | .acked .. | .recv .. | .compare .. | .ackOrFree ..
  | .sendAck .. | .flushFree .. => inferInstanceAs (Decidable True)

instance (s : State) : (e : Event) → Decidable (Fits s e)
  | .call _ (.broadcastMsg pMbxToList _ _ _ flags) =>
    inferInstanceAs (Decidable (hasFreePrm flags = true →
      pMbxToList ≠ [] ∧ (hasWaitAck flags = true ∨ pMbxToList.length = 1)))
  | .call _ (.sendMsg ..) | .call _ (.waitMsg _) | .call _ (.checkMsg _) | .call _ (.waitCmd ..)
  | .call _ (.ackOrFreeMsg ..) | .call _ (.flush _) => inferInstanceAs (Decidable True)
  | .resume task hasMemory => inferInstanceAs (Decidable (ResumeFits s hasMemory (s.pc task)))

/-! ## The invariant -/

/-- The parameter of a call, where it is to be freed. -/
def Args.prm (a : Args) : Option ℕ := if hasFreePrm a.flags then a.pPrm else none

/-- The call frees the parameter itself. -/
def Args.keepsPrm (a : Args) : Bool := a.broadcast && a.waits

/-- The parameter that the call owns once there is a message. -/
def Args.callPrm (a : Args) : Option ℕ := if a.keepsPrm then a.prm else none

/-- The parameter that the message owns. -/
def Args.msgPrm (a : Args) : Option ℕ := if a.keepsPrm then none else a.prm

/-- The call sends one message only. -/
def Args.Single (a : Args) : Prop := a.broadcast = false ∨ (a.waits = false ∧ a.prm ≠ none)

inductive PrmPlace
  | call (task : ℕ)
  | msg (msg : ℕ)
  | freed
  deriving DecidableEq

/-- The parameter that a call owns. -/
def Pc.prm : Pc → Option ℕ
  | .alloc a _ _ sent => if sent = [] then a.prm else a.callPrm
  | .put a _ _ _ _ | .waitAck a _ _ | .acked a _ _ _ => a.callPrm
  | _ => none

/-- The parameters that are to be freed, by their owners. -/
def prmIds (s : State) : PrmPlace → List ℕ
  | .call task => (s.pc task).prm.toList
  | .msg msg => if msg < s.next ∧ msg ∉ s.freed then (s.caller msg).2.msgPrm.toList else []
  | .freed => s.prmFreed

/-- What is known of a handle. -/
inductive Phase
  /-- it has not been acknowledged or freed by a receiver -/
  | fresh
  /-- it has been acknowledged, by way of this queue -/
  | acked (queue : Queue)
  | finished
  | never

def Pc.phase (task : ℕ) : Pc → Phase
  | .acked .. => .acked (.ackMbx task)
  | .sendAck _ queue _ => .acked queue
  | .flushFree .. => .never
  | _ => .fresh

def phaseAt (s : State) : Place → Phase
  | .que (.rcvMbx _) | .held _ => .fresh
  | .que (.ackMbx mbx) => .acked (.ackMbx mbx)
  | .pc task => (s.pc task).phase task
  | .freed => .finished

/-- The acknowledgement goes to the task that waits for it, with the status that was given. -/
structure Acked (s : State) (msg : ℕ) (queue : Queue) : Prop where
  given : s.given msg = [(s.msgs msg).status]
  waits : (s.caller msg).2.waits = true
  queue_eq : queue = .ackMbx (s.caller msg).1

def PhaseOk (s : State) (msg : ℕ) : Phase → Prop
  | .fresh => s.given msg = []
  | .acked queue => Acked s msg queue
  | .finished => s.given msg ≠ []
  | .never => False

/-- The fields of a handle are those that its call gave it. -/
structure MsgOk (s : State) (msg : ℕ) : Prop where
  flags : (s.msgs msg).flags = (s.caller msg).2.flags % 2 ^ 16
  pPrm : (s.msgs msg).pPrm = (s.caller msg).2.pPrm
  pFrom : (s.msgs msg).pFrom
    = if (s.caller msg).2.hasFrom then some (.ackMbx (s.caller msg).1) else none
  hasFrom : hasWaitAck (s.caller msg).2.flags = true → (s.caller msg).2.hasFrom = true

/-- A call that waits: at least one acknowledgement is missing, and the status is that of the
others. -/
structure WaitOk (s : State) (a : Args) (sent : List (ℕ × Bool)) (ackRetVal : ℤ) : Prop where
  waits : a.waits = true
  nodup : (sent.map Prod.fst).Nodup
  missing_ne : missing sent ≠ []
  one : a.broadcast = false → ∃ msg, sent = [(msg, false)]
  verdict : Verdict s (answered sent) ackRetVal

def PcOk (s : State) : Pc → Prop
  | .stopped => False
  | .alloc a _ todo sent =>
    (hasWaitAck a.flags = true → a.hasFrom = true) ∧ (a.waits = true → sent.Nodup) ∧
      (a.Single → todo = [] ∧ sent = [])
  | .put a msg _ todo sent =>
    (hasWaitAck a.flags = true → a.hasFrom = true) ∧ (a.waits = true → (sent ++ [msg]).Nodup) ∧
      (a.Single → todo = [] ∧ sent = [])
  | .waitAck a sent ackRetVal | .acked a sent ackRetVal _ => WaitOk s a sent ackRetVal
  | _ => True

/-- The call that a task is in. -/
def Pc.args : Pc → Option Args
  | .alloc a _ _ _ | .put a _ _ _ _ | .waitAck a _ _ | .acked a _ _ _ => some a
  | _ => none

/-- The message is one that a call of the task waits for. -/
structure DueTo (s : State) (task msg : ℕ) : Prop where
  lt : msg < s.next
  unfreed : msg ∉ s.freed
  caller : (s.caller msg).1 = task
  waits : (s.caller msg).2.waits = true

structure Inv (s : State) : Prop where
  valid : ∀ queue, (s.que queue).Valid
  placed : Placed (ids s) (· < s.next)
  prmPlaced : Placed (prmIds s) (· ∈ s.passed)
  msgOk : ∀ msg < s.next, MsgOk s msg
  unused : ∀ msg, s.next ≤ msg → s.given msg = []
  phase : ∀ place, ∀ msg ∈ ids s place, PhaseOk s msg (phaseAt s place)
  due : ∀ task msg, msg ∈ (s.pc task).due ↔ DueTo s task msg
  args : ∀ task, ∀ msg ∈ (s.pc task).due, (s.pc task).args = some (s.caller msg).2
  pcOk : ∀ task, PcOk s (s.pc task)
  unmisused : s.misused = false
  results : ∀ r ∈ s.results, r.Ok s

/-! ## What the invariant says -/

/-- A flag of a message is read in 16 bits. -/
lemma land_mod (flags : ℕ) {mask : ℕ} (hmask : mask < 2 ^ 16) :
    flags % 2 ^ 16 &&& mask = flags &&& mask := by
  refine Nat.eq_of_testBit_eq fun i => ?_
  rw [Nat.testBit_and, Nat.testBit_and, Nat.testBit_mod_two_pow]
  by_cases hi : i < 16
  · rw [decide_eq_true hi, Bool.true_and]
  · have hbit : mask.testBit i = false :=
      Nat.testBit_eq_false_of_lt (hmask.trans_le (Nat.pow_le_pow_right (by decide) (by omega)))
    rw [hbit, Bool.and_false, Bool.and_false]

lemma hasFreePrm_mod (flags : ℕ) : hasFreePrm (flags % 2 ^ 16) = hasFreePrm flags := by
  unfold hasFreePrm
  rw [land_mod flags (by decide)]

lemma hasWaitAck_mod (flags : ℕ) : hasWaitAck (flags % 2 ^ 16) = hasWaitAck flags := by
  unfold hasWaitAck
  rw [land_mod flags (by decide)]

section Inv
variable {s : State} {msg : ℕ}

/-- A message waits for its acknowledgement exactly if its call does. -/
lemma MsgOk.waits_iff (h : MsgOk s msg) :
    hasWaitAck (s.msgs msg).flags = true ↔ (s.caller msg).2.waits = true := by
  rw [h.flags, hasWaitAck_mod]
  unfold Args.waits
  rw [Bool.and_eq_true]
  exact ⟨fun hwait => ⟨hwait, h.hasFrom hwait⟩, And.left⟩

/-- A parameter that a message carries is one that its call owns. -/
lemma MsgOk.prm_eq (h : MsgOk s msg) {p : ℕ} (hcarries : Carries s msg p) :
    (s.caller msg).2.prm = some p := by
  obtain ⟨hfree, hprm⟩ := hcarries
  rw [h.flags, hasFreePrm_mod] at hfree
  unfold Args.prm
  rw [if_pos hfree, ← h.pPrm, hprm]

lemma Args.keepsPrm_waits {a : Args} (h : a.keepsPrm = true) : a.waits = true := by
  unfold Args.keepsPrm at h
  rw [Bool.and_eq_true] at h
  exact h.2

/-- A call that frees its parameter itself has it from the beginning. -/
lemma prm_eq_of_args {pc : Pc} {a : Args} (hargs : pc.args = some a) (hkeeps : a.keepsPrm = true) :
    pc.prm = a.prm := by
  have hcall : a.callPrm = a.prm := if_pos hkeeps
  cases pc with
  | alloc a' _ _ sent =>
    obtain rfl : a' = a := Option.some.inj hargs
    show (if sent = [] then a'.prm else a'.callPrm) = a'.prm
    rw [hcall, ite_self]
  | put a' | waitAck a' | acked a' =>
    obtain rfl : a' = a := Option.some.inj hargs
    exact hcall
  | _ => exact absurd hargs nofun

/-- A handle that has not been given a status is in memory. -/
lemma Inv.unfreed (h : Inv s) (hgiven : s.given msg = []) : msg ∉ s.freed :=
  fun hfreed => h.phase .freed msg hfreed hgiven

/-- The parameter of a message without a status has an owner. -/
lemma Inv.prm_owned (h : Inv s) (hlt : msg < s.next) (hgiven : s.given msg = []) {p : ℕ}
    (hcarries : Carries s msg p) : ∃ place, place ≠ .freed ∧ p ∈ prmIds s place := by
  have hunfreed := h.unfreed hgiven
  have hprm := (h.msgOk msg hlt).prm_eq hcarries
  by_cases hkeeps : (s.caller msg).2.keepsPrm = true
  · have hdue : msg ∈ (s.pc (s.caller msg).1).due :=
      (h.due _ msg).mpr ⟨hlt, hunfreed, rfl, Args.keepsPrm_waits hkeeps⟩
    refine ⟨.call (s.caller msg).1, by simp, ?_⟩
    show p ∈ (s.pc (s.caller msg).1).prm.toList
    rw [prm_eq_of_args (h.args _ msg hdue) hkeeps, hprm]
    exact List.mem_singleton_self p
  · refine ⟨.msg msg, by simp, ?_⟩
    show p ∈ if msg < s.next ∧ msg ∉ s.freed then (s.caller msg).2.msgPrm.toList else []
    rw [if_pos ⟨hlt, hunfreed⟩, Args.msgPrm, if_neg hkeeps, hprm]
    exact List.mem_singleton_self p

/-- Nothing is left over where no task is inside a call. -/
lemma Inv.settled (h : Inv s) (hsettled : Settled s) :
    (∀ msg < s.next, msg ∈ s.freed) ∧ ∀ p ∈ s.passed, p ∈ s.prmFreed := by
  have hfreed : ∀ msg < s.next, msg ∈ s.freed := by
    intro msg hlt
    obtain ⟨place, hmem⟩ := (h.placed.mem_iff msg).mp hlt
    cases place with
    | que queue =>
      have hmem' : msg ∈ (s.que queue).contents := hmem
      rw [hsettled.que] at hmem'
      exact absurd hmem' List.not_mem_nil
    | held task =>
      have hmem' : msg ∈ s.held task := hmem
      rw [hsettled.held] at hmem'
      exact absurd hmem' List.not_mem_nil
    | pc task =>
      have hmem' : msg ∈ (s.pc task).holds.toList := hmem
      rcases hsettled.pc task with hpc | hpc <;> rw [hpc] at hmem' <;>
        exact absurd hmem' List.not_mem_nil
    | freed => exact hmem
  refine ⟨hfreed, fun p hp => ?_⟩
  obtain ⟨place, hmem⟩ := (h.prmPlaced.mem_iff p).mp hp
  cases place with
  | call task =>
    have hmem' : p ∈ (s.pc task).prm.toList := hmem
    rcases hsettled.pc task with hpc | hpc <;> rw [hpc] at hmem' <;>
      exact absurd hmem' List.not_mem_nil
  | msg msg =>
    have hmem' : p ∈ if msg < s.next ∧ msg ∉ s.freed then (s.caller msg).2.msgPrm.toList else [] :=
      hmem
    rw [if_neg fun hlive => hlive.2 (hfreed msg hlive.1)] at hmem'
    exact absurd hmem' List.not_mem_nil
  | freed => exact hmem

lemma Inv.lifeCycle (h : Inv s) : LifeCycle s where
  placed := h.placed
  prm_once := h.prmPlaced.nodup .freed
  prm_after p hp msg hlt hcarries hgiven := by
    obtain ⟨place, hne, hmem⟩ := h.prm_owned hlt hgiven hcarries
    exact hne (h.prmPlaced.unique place .freed p hmem hp)
  settled := h.settled
  unmisused := h.unmisused
  results := h.results

end Inv

end IpncRdk.OsaMbx
