import IpncRdk.Lib.Run
import Mathlib.Data.BitVec

/-!
# `file_mng.c`: requests to the file thread

`SetFileUpdate` sets bits of `bNeedWrite`, and the file thread tests them in every turn of its loop.
The branch for the environment clears its bit; in the branch for the log the call that would clears
nothing, as it stands in a comment. Once in 50 turns the thread makes a request for the log itself.

* `State` — the bits, the thread, and which requests wait to be handled;
* `step` — a call of `SetFileUpdate`, or the next critical section of the thread;
* `Served` — every request is handled once, and nothing else is;
* `Separate` — the steps that do not reach what is wrong;
* `requests_served` — in runs of such steps requests are served.
-/

namespace IpncRdk.FileMng.ProcFile

open Lib

/-- What can be requested. -/
inductive Request
  | env
  | cfg
  | log
  deriving DecidableEq

/-- `FILE_SYS_ENV_UPDATE_MASK`, `FILE_SYS_CFG_UPDATE_MASK` and `FILE_SYS_LOG_UPDATE_MASK` -/
def mask : Request → BitVec 32
  | .env => 1#32 <<< 0
  | .cfg => 1#32 <<< 2
  | .log => 1#32 <<< 2

/-- The masks of some requests, put together. -/
def masks (requests : List Request) : BitVec 32 :=
  requests.foldr (fun request flag => mask request ||| flag) 0

/-- `flag & mask` -/
def isSet (flag : BitVec 32) (request : Request) : Bool := flag &&& mask request != 0

/-- Where `ProcFileThread` is, with its `flag`. -/
inductive Pc
  /-- before `FileNeedWrite` -/
  | read
  /-- before the test for the environment -/
  | env (flag : BitVec 32)
  /-- in the branch for the environment, before `FileUpdated` -/
  | clear (flag : BitVec 32)
  /-- before the test for the log -/
  | log (flag : BitVec 32)
  /-- before the test of `timeout` -/
  | tick
  deriving DecidableEq

/-- The bits and the thread, with what has been asked for: the requests not handled since they were
made, those made since the last `FileNeedWrite`, those handled without their bit having been
cleared, and the turns since the thread made a request of its own. -/
structure State where
  bNeedWrite : BitVec 32
  timeout : ℤ
  pc : Pc
  owed : Request → Bool
  fresh : Request → Bool
  uncleared : Request → Bool
  own : Option ℕ

def init : State where
  bNeedWrite := 0
  timeout := 5
  pc := .read
  owed := fun _ => false
  fresh := fun _ => false
  uncleared := fun _ => false
  own := none

namespace State
variable (s : State)

/-- `SetFileUpdate` -/
def setFileUpdate (requests : List Request) : State :=
  { s with
    bNeedWrite := s.bNeedWrite ||| masks requests
    owed := fun request => s.owed request || requests.contains request
    fresh := fun request => s.fresh request || requests.contains request }

/-- `FileUpdated` -/
def fileUpdated (request : Request) : State :=
  { s with
    bNeedWrite := s.bNeedWrite &&& ~~~(mask request)
    uncleared := Function.update s.uncleared request false }

/-- The branch for a request is run. -/
def handle (request : Request) : State :=
  { s with
    owed := Function.update s.owed request false
    uncleared := Function.update s.uncleared request true }

end State

/-- `ProcFileThread`, up to its next critical section. -/
def procFileThread (s : State) : State :=
  match s.pc with
  | .read =>
    -- `IsFileThreadQuit` says no, and `FileNeedWrite` returns the bits
    { s with
      fresh := fun _ => false
      pc := if s.bNeedWrite ≠ 0 then .env s.bNeedWrite else .tick }
  | .env flag =>
    -- the branch does nothing but clear the bit
    if isSet flag .env then { s.handle .env with pc := .clear flag } else { s with pc := .log flag }
  | .clear flag => { s.fileUpdated .env with pc := .log flag }
  | .log flag =>
    -- `WriteLogToFile`; there is no `FileUpdated` in this branch
    if isSet flag .log then { s.handle .log with pc := .tick } else { s with pc := .tick }
  | .tick =>
    let s := if s.timeout < 1 then { s.setFileUpdate [.log] with timeout := 50, own := some 0 }
      else s
    { s with timeout := s.timeout - 1, own := s.own.map (· + 1), pc := .read }

/-- A call of `SetFileUpdate` by another thread, with the masks of any requests, or a step of the
thread. -/
inductive Event
  | setFileUpdate (requests : List Request)
  | thread
  deriving DecidableEq

def step (s : State) : Event → Option State
  | .setFileUpdate requests => some (s.setFileUpdate requests)
  | .thread => some (procFileThread s)

/-! ## The property -/

/-- The branch for a request is about to be run. -/
def Runs (s : State) : Request → Prop
  | .env => ∃ flag, s.pc = .env flag ∧ isSet flag .env = true
  | .cfg => False
  | .log => ∃ flag, s.pc = .log flag ∧ isSet flag .log = true

/-- What holds of a state in which requests are served once. -/
structure Served (s : State) : Prop where
  /-- no request is dropped -/
  kept : ∀ request, s.owed request = true → isSet s.bNeedWrite request = true
  /-- a bit is set only for a request that waits, or one whose branch is being run -/
  requested : ∀ request, isSet s.bNeedWrite request = true →
    ∃ request', mask request' = mask request ∧
      (s.owed request' = true ∨ s.uncleared request' = true)
  /-- the branch for a request is run for a request that waits -/
  once : ∀ request, Runs s request → s.owed request = true
  /-- requests made before the test have been handled at the end of the turn -/
  handled : s.pc = .tick → ∀ request, s.owed request = true → s.fresh request = true
  /-- what has been handled has been cleared at the end of the turn -/
  cleared : s.pc = .tick ∨ s.pc = .read → ∀ request, s.uncleared request = false
  /-- the thread makes a request of its own once in 50 turns -/
  period : s.timeout < 1 → ∀ n, s.own = some n → 50 ≤ n

/-- No request for the configuration, none for the environment between its branch and the clearing
of its bit, and not the branch for the log. -/
def Separate (s : State) : Event → Bool
  | .setFileUpdate requests =>
    !requests.contains .cfg && match s.pc with
      | .clear _ => !requests.contains .env
      | _ => true
  | .thread => match s.pc with
    | .log flag => !isSet flag .log
    | _ => true

/-! ## The bits -/

section Bits
variable (flag : BitVec 32)

/-- The bit of a request. -/
def bit : Request → ℕ
  | .env => 0
  | .cfg => 2
  | .log => 2

lemma mask_eq (request : Request) : mask request = BitVec.twoPow 32 (bit request) := by
  cases request <;> rfl

lemma bit_lt (request : Request) : bit request < 32 := by
  cases request <;> decide

lemma isSet_eq (request : Request) : isSet flag request = flag.getLsbD (bit request) := by
  have hne : BitVec.twoPow 32 (bit request) ≠ 0#32 := by
    cases request <;> decide
  unfold isSet
  rw [mask_eq, BitVec.and_twoPow]
  cases flag.getLsbD (bit request) with
  | false => simp
  | true => simpa using hne

lemma isSet_or (flag' : BitVec 32) (request : Request) :
    isSet (flag ||| flag') request = (isSet flag request || isSet flag' request) := by
  rw [isSet_eq, isSet_eq, isSet_eq, BitVec.getLsbD_or]

/-- A mask that is taken out takes its bit, and no other one. -/
lemma isSet_and_not (request request' : Request) :
    isSet (flag &&& ~~~(mask request')) request =
      (isSet flag request && bit request != bit request') := by
  have hbits : (bit request != bit request') = !decide (bit request' = bit request) := by
    cases request <;> cases request' <;> rfl
  rw [isSet_eq, isSet_eq, mask_eq, BitVec.getLsbD_and, BitVec.getLsbD_not, BitVec.getLsbD_twoPow,
    decide_eq_true (bit_lt request), decide_eq_true (bit_lt request'), Bool.true_and,
    Bool.true_and, hbits]

lemma isSet_zero (request : Request) : isSet 0 request = false := by
  cases request <;> rfl

lemma isSet_masks (requests : List Request) (request : Request) :
    isSet (masks requests) request = requests.any fun r => bit r == bit request := by
  induction requests with
  | nil => exact isSet_zero request
  | cons r requests ih =>
    rw [masks, List.foldr_cons, isSet_or, ← masks, ih, List.any_cons]
    cases r <;> cases request <;> rfl

lemma isSet_masks_env (requests : List Request) :
    isSet (masks requests) .env = requests.contains .env := by
  rw [isSet_masks]
  induction requests with
  | nil => rfl
  | cons r requests ih =>
    rw [List.any_cons, List.contains_cons, ih]
    cases r <;> rfl

lemma isSet_masks_log {requests : List Request} (h : requests.contains .cfg = false) :
    isSet (masks requests) .log = requests.contains .log := by
  rw [isSet_masks]
  induction requests with
  | nil => rfl
  | cons r requests ih =>
    rw [List.contains_cons, Bool.or_eq_false_iff] at h
    rw [List.any_cons, List.contains_cons, ih h.2]
    cases r with
    | env => rfl
    | cfg => exact absurd h.1 (by decide)
    | log => rfl

end Bits

/-! ## The invariant -/

/-- What was set at the test still waits, and what else waits has been requested since. -/
def Tested (s : State) (flag : BitVec 32) (request : Request) : Prop :=
  (isSet flag request = true → s.owed request = true) ∧
    (s.owed request = true → s.fresh request = true ∨ isSet flag request = true)

/-- What has been done in this turn, up to a place of the loop. -/
def At (s : State) : Pc → Prop
  | .read => True
  | .env flag => Tested s flag .env ∧ Tested s flag .log
  | .clear flag => s.owed .env = false ∧ Tested s flag .log
  | .log flag => (s.owed .env = true → s.fresh .env = true) ∧ Tested s flag .log
  | .tick => (s.owed .env = true → s.fresh .env = true) ∧
      (s.owed .log = true → s.fresh .log = true)

structure Inv (s : State) : Prop where
  cfg : s.owed .cfg = false
  env : isSet s.bNeedWrite .env = (s.owed .env || s.uncleared .env)
  log : isSet s.bNeedWrite .log = s.owed .log
  uncleared : ∀ request, s.uncleared request = true → request = .env ∧ ∃ flag, s.pc = .clear flag
  pc : At s s.pc
  period : ∀ n : ℕ, s.own = some n → s.timeout = 50 - n

section Invariant
variable {s : State}

/-- The invariant at a known place. -/
lemma Inv.at_pc (h : Inv s) {pc : Pc} (hpc : s.pc = pc) : At s pc := by
  subst hpc
  exact h.pc

lemma Inv.served (h : Inv s) : Served s where
  kept request howed := by
    cases request with
    | env => rw [h.env, howed, Bool.true_or]
    | cfg => rw [h.cfg] at howed; cases howed
    | log => rw [h.log, howed]
  requested request hset := by
    cases request with
    | env =>
      rw [h.env, Bool.or_eq_true] at hset
      exact ⟨.env, rfl, hset⟩
    | cfg => exact ⟨.log, rfl, Or.inl (h.log.symm.trans hset)⟩
    | log => exact ⟨.log, rfl, Or.inl (h.log.symm.trans hset)⟩
  once request hruns := by
    cases request with
    | env =>
      obtain ⟨flag, hpc, hset⟩ := hruns
      exact (h.at_pc hpc).1.1 hset
    | cfg => cases hruns
    | log =>
      obtain ⟨flag, hpc, hset⟩ := hruns
      exact (h.at_pc hpc).2.1 hset
  handled hpc request howed := by
    obtain ⟨henv, hlog⟩ := h.at_pc hpc
    cases request with
    | env => exact henv howed
    | cfg => rw [h.cfg] at howed; cases howed
    | log => exact hlog howed
  cleared hpc request := by
    refine Bool.eq_false_iff.mpr fun hun => ?_
    obtain ⟨-, flag, hclear⟩ := h.uncleared request hun
    rw [hclear] at hpc
    rcases hpc with hpc | hpc <;> cases hpc
  period htimeout n hown := by
    have := h.period n hown
    omega

lemma inv_init : Inv init where
  cfg := rfl
  env := rfl
  log := rfl
  uncleared _ h := by cases h
  pc := trivial
  period n h := by cases h

/-- More requests. -/
lemma Tested.setFileUpdate {flag : BitVec 32} {request : Request} (h : Tested s flag request)
    (requests : List Request) : Tested (s.setFileUpdate requests) flag request := by
  unfold State.setFileUpdate
  refine ⟨fun hset => ?_, fun howed => ?_⟩
  · dsimp only
    rw [h.1 hset, Bool.true_or]
  · dsimp only at howed ⊢
    rcases Bool.or_eq_true_iff.mp howed with howed | hnew
    · exact (h.2 howed).imp_left fun hfresh => by rw [hfresh, Bool.true_or]
    · exact Or.inl (by rw [hnew, Bool.or_true])

lemma fresh_setFileUpdate {request : Request} (h : s.owed request = true → s.fresh request = true)
    (requests : List Request) : (s.setFileUpdate requests).owed request = true →
      (s.setFileUpdate requests).fresh request = true := by
  unfold State.setFileUpdate
  dsimp only
  rw [Bool.or_eq_true, Bool.or_eq_true]
  exact Or.imp_left h

/-- More requests do not undo what has been done; one for the environment must not come while its
bit is about to be cleared. -/
lemma At.setFileUpdate {pc : Pc} (h : At s pc) {requests : List Request}
    (henv : ∀ flag, pc = .clear flag → requests.contains .env = false) :
    At (s.setFileUpdate requests) pc := by
  cases pc with
  | read => trivial
  | env flag => exact ⟨h.1.setFileUpdate requests, h.2.setFileUpdate requests⟩
  | clear flag =>
    refine ⟨?_, h.2.setFileUpdate requests⟩
    change (s.owed .env || requests.contains .env) = false
    rw [h.1, henv flag rfl]
    rfl
  | log flag => exact ⟨fresh_setFileUpdate h.1 requests, h.2.setFileUpdate requests⟩
  | tick => exact ⟨fresh_setFileUpdate h.1 requests, fresh_setFileUpdate h.2 requests⟩

lemma Inv.setFileUpdate (h : Inv s) (requests : List Request)
    (hcfg : requests.contains .cfg = false)
    (henv : ∀ flag, s.pc = .clear flag → requests.contains .env = false) :
    Inv (s.setFileUpdate requests) where
  cfg := by
    change (s.owed .cfg || requests.contains .cfg) = false
    rw [h.cfg, hcfg]
    rfl
  env := by
    change isSet (s.bNeedWrite ||| masks requests) .env =
      ((s.owed .env || requests.contains .env) || s.uncleared .env)
    rw [isSet_or, h.env, isSet_masks_env, Bool.or_right_comm]
  log := by
    change isSet (s.bNeedWrite ||| masks requests) .log = (s.owed .log || requests.contains .log)
    rw [isSet_or, h.log, isSet_masks_log hcfg]
  uncleared := h.uncleared
  pc := h.pc.setFileUpdate henv
  period := h.period

/-- No bit waits to be cleared outside of the branch for the environment. -/
lemma Inv.uncleared_eq_false (h : Inv s) (hpc : ∀ flag, s.pc ≠ .clear flag) (request : Request) :
    s.uncleared request = false :=
  Bool.eq_false_iff.mpr fun hun => (h.uncleared request hun).2.elim hpc

/-- The test. -/
lemma Inv.thread_read (h : Inv s) (hpc : s.pc = .read) : Inv (procFileThread s) := by
  have hun := h.uncleared_eq_false (by simp [hpc])
  have henv : isSet s.bNeedWrite .env = s.owed .env := by
    rw [h.env, hun, Bool.or_false]
  unfold procFileThread
  rw [hpc]
  refine ⟨h.cfg, h.env, h.log, fun request hr => ?_, ?_, h.period⟩
  · rw [hun] at hr
    cases hr
  · dsimp only
    split_ifs with hflag
    · refine ⟨⟨fun hset => henv.symm.trans hset, fun howed => Or.inr (henv.trans howed)⟩,
        fun hset => h.log.symm.trans hset, fun howed => Or.inr (h.log.trans howed)⟩
    · -- no bit is set, so nothing waits
      rw [not_not] at hflag
      rw [hflag, isSet_zero] at henv
      have hlog := h.log
      rw [hflag, isSet_zero] at hlog
      refine ⟨fun howed => ?_, fun howed => ?_⟩
      · rw [← henv] at howed
        cases howed
      · rw [← hlog] at howed
        cases howed

lemma Inv.thread_env (h : Inv s) {flag : BitVec 32} (hpc : s.pc = .env flag) :
    Inv (procFileThread s) := by
  have hun := h.uncleared_eq_false (by simp [hpc])
  obtain ⟨henv, hlog⟩ := h.at_pc hpc
  unfold procFileThread
  rw [hpc]
  dsimp only
  split_ifs with hset
  · refine ⟨h.cfg, ?_, h.log, fun request hr => ?_, ⟨rfl, hlog⟩, h.period⟩
    · change isSet s.bNeedWrite .env = _
      rw [h.env, henv.1 hset]
      rfl
    · refine ⟨?_, flag, rfl⟩
      by_contra hne
      change Function.update s.uncleared .env true request = true at hr
      rw [Function.update_of_ne hne, hun] at hr
      cases hr
  · refine ⟨h.cfg, h.env, h.log, fun request hr => ?_,
      ⟨fun howed => (henv.2 howed).resolve_right hset, hlog⟩, h.period⟩
    rw [hun] at hr
    cases hr

/-- The bit for the environment is cleared. -/
lemma Inv.thread_clear (h : Inv s) {flag : BitVec 32} (hpc : s.pc = .clear flag) :
    Inv (procFileThread s) := by
  obtain ⟨henv, hlog⟩ := h.at_pc hpc
  unfold procFileThread
  rw [hpc]
  -- nothing has been requested since the branch, so the bit is not missed
  refine ⟨h.cfg, ?_, ?_, fun request hr => ?_, ⟨fun howed => ?_, hlog⟩, h.period⟩
  · change isSet (s.bNeedWrite &&& ~~~(mask .env)) .env = (s.owed .env || false)
    rw [isSet_and_not, henv]
    exact Bool.and_false _
  · change isSet (s.bNeedWrite &&& ~~~(mask .env)) .log = s.owed .log
    rw [isSet_and_not, h.log]
    exact Bool.and_true _
  · exfalso
    change Function.update s.uncleared .env false request = true at hr
    by_cases hreq : request = .env
    · rw [hreq, Function.update_self] at hr
      cases hr
    · rw [Function.update_of_ne hreq] at hr
      exact hreq (h.uncleared request hr).1
  · change s.owed .env = true at howed
    rw [henv] at howed
    cases howed

lemma Inv.thread_log (h : Inv s) {flag : BitVec 32} (hpc : s.pc = .log flag)
    (hset : isSet flag .log = false) : Inv (procFileThread s) := by
  have hun := h.uncleared_eq_false (by simp [hpc])
  obtain ⟨henv, hlog⟩ := h.at_pc hpc
  unfold procFileThread
  rw [hpc]
  dsimp only
  rw [if_neg (by rw [hset]; decide)]
  refine ⟨h.cfg, h.env, h.log, fun request hr => ?_, ⟨henv, fun howed => ?_⟩, h.period⟩
  · rw [hun] at hr
    cases hr
  · refine (hlog.2 howed).resolve_right ?_
    rw [hset]
    decide

lemma Inv.thread_tick (h : Inv s) (hpc : s.pc = .tick) : Inv (procFileThread s) := by
  have hun := h.uncleared_eq_false (by simp [hpc])
  unfold procFileThread
  rw [hpc]
  dsimp only
  split_ifs with htimeout
  · have hown := h.setFileUpdate [.log] rfl (by simp [hpc])
    refine ⟨hown.cfg, hown.env, hown.log, fun request hr => ?_, trivial, fun n hn => ?_⟩
    · change s.uncleared request = true at hr
      rw [hun] at hr
      cases hr
    · rw [Option.map_some, Option.some.injEq] at hn
      rw [← hn]
      rfl
  · refine ⟨h.cfg, h.env, h.log, fun request hr => ?_, trivial, fun n hn => ?_⟩
    · rw [hun] at hr
      cases hr
    · obtain ⟨m, hm, rfl⟩ := Option.map_eq_some_iff.mp hn
      have := h.period m hm
      dsimp only
      push_cast
      omega

/-- A step that does not reach what is wrong. -/
lemma Inv.step {e : Event} {s' : State} (h : Inv s) (hsep : Separate s e = true)
    (hstep : step s e = some s') : Inv s' := by
  cases e with
  | setFileUpdate requests =>
    obtain rfl := Option.some.inj hstep
    unfold Separate at hsep
    rw [Bool.and_eq_true, Bool.not_eq_true'] at hsep
    refine h.setFileUpdate requests hsep.1 fun flag hpc => ?_
    rw [hpc] at hsep
    simpa using hsep.2
  | thread =>
    obtain rfl := Option.some.inj hstep
    cases hpc : s.pc with
    | read => exact h.thread_read hpc
    | env flag => exact h.thread_env hpc
    | clear flag => exact h.thread_clear hpc
    | log flag =>
      unfold Separate at hsep
      rw [hpc] at hsep
      exact h.thread_log hpc (by simpa using hsep)
    | tick => exact h.thread_tick hpc

end Invariant

/-! ## The runs in which requests are served -/

theorem requests_served (es : List Event)
    (h : EveryStep step (fun s e => Separate s e = true) init es) : Always step Served init es :=
  always_of_everyStep (fun _ => Inv.served) (fun _ _ _ => Inv.step) es inv_init h

/-- A request for the environment is made, and made again before its branch is run. -/
theorem requests_served_twice : Always step Served init
    [.setFileUpdate [.env], .thread, .setFileUpdate [.env], .thread, .thread, .thread, .thread] :=
  requests_served _ (by decide)

/-- After the sixth turn the thread has made a request for the log. In the next turn it runs the
branch and leaves the bit set. -/
theorem logRequest_not_served : ¬ Always step Served init (List.replicate 15 .thread) := by
  intro h
  have hlast : ∃ s, run step init (List.replicate 15 .thread) = some s ∧ s.pc = .tick ∧
      s.uncleared .log = true := ⟨_, rfl, rfl, rfl⟩
  obtain ⟨s, hrun, hpc, huncleared⟩ := hlast
  have hcleared := (of_always h hrun).cleared (Or.inl hpc) .log
  rw [huncleared] at hcleared
  cases hcleared

end IpncRdk.FileMng.ProcFile
