import IpncRdk.OsaBuf.Buf
import IpncRdk.OsaQue.QueTheorems
import IpncRdk.Lib.Places
import Mathlib.Data.Int.Interval

/-!
# No buffer is lost and none is there twice

* `ids` — where the buffer numbers are: in a queue or with a client;
* `Conserved` — every number is at exactly one place, and the queues keep their order;
* `StepOk` — a put finds room, and a switch that fails changes nothing;
* `inv_act` — what one queue call preserves;
* `buffers_conserved` — all runs of all clients.
-/

namespace IpncRdk.OsaBuf

open Lib OsaQue

/-! ## What is conserved -/

/-- Where a buffer can be. -/
inductive Place
  | que (which : Which)
  | client (client : ℕ)
  deriving DecidableEq

/-- The buffers at a place. -/
def ids (s : State) : Place → List ℤ
  | .que which => (s.hndl.que which).contents
  | .client client => s.held client

/-- The buffers are `0` to `numBuf - 1`, each at one place, and a queue gives them out in the
order it took them. -/
structure Conserved (numBuf : ℤ) (s : State) : Prop where
  placed : Placed (ids s) fun bufId => 0 ≤ bufId ∧ bufId < numBuf
  order : ∀ which, s.puts which = s.gets which ++ (s.hndl.que which).contents

/-- The queue that an event puts to. -/
def putOf (s : State) : Event → Option Which
  | .put _ which _ => some which
  | .resume client =>
    match s.pc client with
    | .put which _ | .switchPut which _ _ => some which
    | _ => none
  | _ => none

/-- The client that an event takes through a switch, and the buffer that the switch was called
with. -/
def switchOf (s : State) : Event → Option (ℕ × ℤ)
  | .switch client _ bufId => some (client, bufId)
  | .resume client =>
    match s.pc client with
    | .switchPut _ bufId _ => some (client, bufId)
    | _ => none
  | _ => none

/-- A call that is allowed goes on, its put finds room, and a switch that returns a failure leaves
the queues and `*bufId` as they are. -/
structure StepOk (s : State) (e : Event) : Prop where
  defined : Allowed s e → ∃ s', step s e = some s'
  room : ∀ which, Allowed s e → putOf s e = some which →
    (s.hndl.que which).count < (s.hndl.que which).len
  switch : ∀ client bufId s' status bufId', switchOf s e = some (client, bufId) →
    step s e = some s' → s'.pc client = .idle → s'.returned client = some (status, bufId') →
    status ≠ osaSok → bufId' = bufId ∧ s'.hndl = s.hndl

/-! ## The two queues of a handle -/

namespace BufHndl

variable {hndl : BufHndl} {which other : Which}

@[simp] lemma que_setQue_self (que : QueHndl) : (hndl.setQue which que).que which = que := by
  cases which <;> rfl

lemma que_setQue_of_ne (h : other ≠ which) (que : QueHndl) :
    (hndl.setQue which que).que other = hndl.que other := by
  cases which <;> cases other <;> first | rfl | exact absurd rfl h

@[simp] lemma numBuf_setQue (que : QueHndl) : (hndl.setQue which que).numBuf = hndl.numBuf := by
  cases which <;> rfl

@[simp] lemma setQue_que : hndl.setQue which (hndl.que which) = hndl := by
  cases which <;> rfl

/-- Both queues are valid, with a cell for every buffer. -/
structure Valid (numBuf : ℤ) (hndl : BufHndl) : Prop where
  numBuf_eq : hndl.numBuf = numBuf
  valid : ∀ which, (hndl.que which).Valid
  len_eq : ∀ which, (hndl.que which).len = numBuf.toNat

/-- The handle after a call of one of its queues: the other one is as it was. -/
structure Replaced (hndl : BufHndl) (which : Which) (contents : List ℤ) (hndl' : BufHndl) :
    Prop where
  contents_eq : (hndl'.que which).contents = contents
  other : ∀ other, other ≠ which → hndl'.que other = hndl.que other

variable {numBuf : ℤ}

lemma Valid.setQue (h : hndl.Valid numBuf) {que : QueHndl} (hvalid : que.Valid)
    (hlen : que.len = (hndl.que which).len) : (hndl.setQue which que).Valid numBuf where
  numBuf_eq := by rw [numBuf_setQue, h.numBuf_eq]
  valid other := by
    by_cases hne : other = which
    · rw [hne, que_setQue_self]
      exact hvalid
    · rw [que_setQue_of_ne hne]
      exact h.valid other
  len_eq other := by
    by_cases hne : other = which
    · rw [hne, que_setQue_self, hlen, h.len_eq]
    · rw [que_setQue_of_ne hne, h.len_eq]

/-- A get of a queue with a buffer takes the first. -/
lemma Valid.bufGet_cons (h : hndl.Valid numBuf) {bufId : ℤ} {rest : List ℤ}
    (hcontents : (hndl.que which).contents = bufId :: rest) (timeout : ℕ) :
    ∃ hndl', bufGet hndl which timeout = .ok (some osaSok, bufId, hndl') ∧
      hndl'.Valid numBuf ∧ Replaced hndl which rest hndl' := by
  obtain ⟨que, hget, hvalid, hlen, hrest⟩ := (h.valid which).getPass_cons hcontents timeout
  refine ⟨hndl.setQue which que, ?_, h.setQue hvalid hlen, ?_, ?_⟩
  · unfold bufGet osaQueGet
    rw [hget]
    rfl
  · rw [que_setQue_self]
    exact hrest
  · exact fun other hne => que_setQue_of_ne hne que

/-- A get of an empty queue fails or waits. -/
lemma bufGet_nil (hcontents : (hndl.que which).contents = []) (timeout : ℕ) :
    bufGet hndl which timeout
      = .ok (if timeout = osaTimeoutNone then some osaEfail else none, osaBufIdInvalid, hndl) := by
  have hne : (if timeout = osaTimeoutNone then some osaEfail else none) ≠ some osaSok := by
    split <;> simp
  unfold bufGet osaQueGet
  rw [OsaQue.getPass_nil hcontents timeout]
  simp only [if_neg hne, setQue_que]

/-- A put into a queue with room appends. -/
lemma Valid.bufPut_room (h : hndl.Valid numBuf) {bufId : ℤ} (hid : 0 ≤ bufId ∧ bufId < numBuf)
    (hroom : (hndl.que which).contents.length < numBuf.toNat) :
    ∃ hndl', bufPut hndl which bufId = .ok (some osaSok, hndl') ∧
      hndl'.Valid numBuf ∧ Replaced hndl which ((hndl.que which).contents ++ [bufId]) hndl' := by
  rw [← h.len_eq which] at hroom
  obtain ⟨que, hput, hvalid, hlen, hcontents⟩ :=
    (h.valid which).putPass_room hroom bufId osaTimeoutForever
  obtain ⟨hlo, hhi⟩ := hid
  refine ⟨hndl.setQue which que, ?_, h.setQue hvalid hlen, ?_, ?_⟩
  · unfold bufPut osaQuePut
    rw [if_neg (by rw [h.numBuf_eq]; omega), hput]
  · rw [que_setQue_self]
    exact hcontents
  · exact fun other hne => que_setQue_of_ne hne que

end BufHndl

/-! ## The invariant -/

/-- No client waits in a put, and one inside a switch holds the buffer that it will put. -/
def PcOk (held : List ℤ) : Pc → Prop
  | .idle | .get _ _ => True
  | .put _ _ => False
  | .switchPut _ bufId _ => bufId ∈ held

structure Inv (numBuf : ℤ) (s : State) : Prop extends Conserved numBuf s where
  valid : s.hndl.Valid numBuf
  pcOk : ∀ client, PcOk (s.held client) (s.pc client)

section Inv
variable {numBuf : ℤ} {s : State} {client : ℕ} {which : Which} {bufId : ℤ} {hndl' : BufHndl}

lemma Inv.ret (h : Inv numBuf s) (status bufId : ℤ) : Inv numBuf (s.ret client status bufId) where
  placed := h.placed
  order := h.order
  valid := h.valid
  pcOk c := by
    show PcOk (s.held c) (Function.update s.pc client .idle c)
    by_cases hc : c = client
    · rw [hc, Function.update_self]
      trivial
    · rw [Function.update_of_ne hc]
      exact h.pcOk c

lemma Inv.goto (h : Inv numBuf s) {pc : Pc} (hpc : PcOk (s.held client) pc) :
    Inv numBuf (s.goto client pc) where
  placed := h.placed
  order := h.order
  valid := h.valid
  pcOk c := by
    show PcOk (s.held c) (Function.update s.pc client pc c)
    by_cases hc : c = client
    · rw [hc, Function.update_self]
      exact hpc
    · rw [Function.update_of_ne hc]
      exact h.pcOk c

/-- What the places hold once a queue and a client's hand have changed. -/
lemma ids_of_ne {s s' : State}
    (hque : ∀ other, other ≠ which → s'.hndl.que other = s.hndl.que other)
    (hheld : ∀ c, c ≠ client → s'.held c = s.held c) {place : Place}
    (hw : place ≠ .que which) (hc : place ≠ .client client) : ids s' place = ids s place := by
  cases place with
  | que other =>
    unfold ids
    simp only
    rw [hque other fun heq => hw (heq ▸ rfl)]
  | client c => exact hheld c fun heq => hc (heq ▸ rfl)

/-- A client takes the first buffer of a queue. -/
lemma Inv.take (h : Inv numBuf s) {rest : List ℤ}
    (hcontents : (s.hndl.que which).contents = bufId :: rest) (hvalid : hndl'.Valid numBuf)
    (hrep : s.hndl.Replaced which rest hndl') : Inv numBuf (s.take client which bufId hndl') where
  valid := hvalid
  placed := by
    refine h.placed.move (p := .que which) (q := .client client) (a := bufId) (by simp) ?_ ?_
      fun r hrp hrq => ids_of_ne hrep.other (fun c hc => Function.update_of_ne hc _ _) hrp hrq
    · show (s.hndl.que which).contents.Perm (bufId :: (hndl'.que which).contents)
      rw [hcontents, hrep.contents_eq]
    · show (Function.update s.held client (bufId :: s.held client) client).Perm
        (bufId :: s.held client)
      rw [Function.update_self]
  order other := by
    show s.puts other
      = Function.update s.gets which (s.gets which ++ [bufId]) other ++ (hndl'.que other).contents
    by_cases hne : other = which
    · rw [hne, Function.update_self, hrep.contents_eq, h.order, hcontents, List.append_assoc]
      rfl
    · rw [Function.update_of_ne hne, hrep.other other hne, h.order]
  pcOk c := by
    show PcOk (Function.update s.held client (bufId :: s.held client) c) (s.pc c)
    by_cases hc : c = client
    · subst hc
      rw [Function.update_self]
      have hpc := h.pcOk c
      cases hp : s.pc c with
      | idle => trivial
      | get => trivial
      | put =>
        rw [hp] at hpc
        exact hpc
      | switchPut _ old _ =>
        rw [hp] at hpc
        exact List.mem_cons_of_mem bufId hpc
    · rw [Function.update_of_ne hc]
      exact h.pcOk c

/-- A client puts a buffer that it holds. -/
lemma Inv.give (h : Inv numBuf s) (hheld : bufId ∈ s.held client) (hpc : s.pc client = .idle)
    (hvalid : hndl'.Valid numBuf)
    (hrep : s.hndl.Replaced which ((s.hndl.que which).contents ++ [bufId]) hndl') :
    Inv numBuf (s.give client which bufId hndl') where
  valid := hvalid
  placed := by
    refine h.placed.move (p := .client client) (q := .que which) (a := bufId) (by simp) ?_ ?_
      fun r hrp hrq => ids_of_ne hrep.other (fun c hc => Function.update_of_ne hc _ _) hrq hrp
    · show (s.held client).Perm
        (bufId :: Function.update s.held client ((s.held client).erase bufId) client)
      rw [Function.update_self]
      exact List.perm_cons_erase hheld
    · show (hndl'.que which).contents.Perm (bufId :: (s.hndl.que which).contents)
      rw [hrep.contents_eq]
      exact List.perm_append_singleton bufId _
  order other := by
    show Function.update s.puts which (s.puts which ++ [bufId]) other
      = s.gets other ++ (hndl'.que other).contents
    by_cases hne : other = which
    · rw [hne, Function.update_self, hrep.contents_eq, h.order, List.append_assoc]
    · rw [Function.update_of_ne hne, hrep.other other hne, h.order]
  pcOk c := by
    show PcOk (Function.update s.held client ((s.held client).erase bufId) c) (s.pc c)
    by_cases hc : c = client
    · rw [hc, hpc]
      trivial
    · rw [Function.update_of_ne hc]
      exact h.pcOk c

/-- A buffer that a client holds is one of the buffers. -/
lemma Inv.mem_of_held (h : Inv numBuf s) (hheld : bufId ∈ s.held client) :
    0 ≤ bufId ∧ bufId < numBuf :=
  (h.placed.mem_iff bufId).mpr ⟨.client client, hheld⟩

/-- While a client holds a buffer no queue is full. -/
lemma Inv.room (h : Inv numBuf s) (hheld : bufId ∈ s.held client) (which : Which) :
    (s.hndl.que which).contents.length < numBuf.toNat := by
  have hsub (i : ℤ) (hi : 0 ≤ i ∧ i < numBuf) : i ∈ Finset.Ico 0 numBuf := Finset.mem_Ico.mpr hi
  have := h.placed.length_lt_card hsub (p := .client client) (q := .que which) hheld (by simp)
  rw [Int.card_Ico, Int.sub_zero] at this
  exact this

/-! ## One queue call -/

lemma Inv.getStep (h : Inv numBuf s) (client : ℕ) (which : Which) (timeout : ℕ) :
    ∃ s', s.getStep client which timeout = some s' ∧ Inv numBuf s' := by
  cases hcontents : (s.hndl.que which).contents with
  | nil =>
    unfold State.getStep
    rw [BufHndl.bufGet_nil hcontents]
    by_cases ht : timeout = osaTimeoutNone
    · rw [if_pos ht]
      exact ⟨_, rfl, h.ret osaEfail osaBufIdInvalid⟩
    · rw [if_neg ht]
      exact ⟨_, rfl, h.goto trivial⟩
  | cons bufId rest =>
    obtain ⟨hndl', hget, hvalid, hrep⟩ := h.valid.bufGet_cons hcontents timeout
    unfold State.getStep
    rw [hget]
    exact ⟨_, rfl, (h.take hcontents hvalid hrep).ret osaSok bufId⟩

lemma Inv.putStep (h : Inv numBuf s) (hpc : s.pc client = .idle) (hheld : bufId ∈ s.held client)
    (which : Which) : ∃ s', s.putStep client which bufId = some s' ∧ Inv numBuf s' := by
  obtain ⟨hndl', hput, hvalid, hrep⟩ :=
    h.valid.bufPut_room (h.mem_of_held hheld) (h.room hheld which)
  unfold State.putStep
  rw [hput]
  exact ⟨_, rfl, (h.give hheld hpc hvalid hrep).ret osaSok bufId⟩

/-- A switch that finds no buffer only returns. -/
lemma State.switchGet_nil (client : ℕ) (bufId : ℤ)
    (hcontents : (s.hndl.que which.other).contents = []) :
    s.switchGet client which bufId = some (s.ret client osaEfail bufId) := by
  unfold State.switchGet
  rw [BufHndl.bufGet_nil hcontents, if_pos rfl]
  rfl

/-- A switch that finds a buffer takes it, and goes on with the put if there is one to make. -/
lemma Inv.switchGet_cons (h : Inv numBuf s) (client : ℕ) (bufId : ℤ) {newBufId : ℤ}
    {rest : List ℤ} (hcontents : (s.hndl.que which.other).contents = newBufId :: rest) :
    ∃ hndl', Inv numBuf (s.take client which.other newBufId hndl') ∧
      s.switchGet client which bufId = some
        (if bufId ≠ osaBufIdInvalid then
          (s.take client which.other newBufId hndl').goto client (.switchPut which bufId newBufId)
        else (s.take client which.other newBufId hndl').ret client osaSok newBufId) := by
  obtain ⟨hndl', hget, hvalid, hrep⟩ := h.valid.bufGet_cons hcontents osaTimeoutNone
  refine ⟨hndl', h.take hcontents hvalid hrep, ?_⟩
  unfold State.switchGet
  rw [hget]
  simp only [if_true]
  split <;> rfl

lemma Inv.switchGet (h : Inv numBuf s) (hheld : bufId = osaBufIdInvalid ∨ bufId ∈ s.held client)
    (which : Which) : ∃ s', s.switchGet client which bufId = some s' ∧ Inv numBuf s' := by
  cases hcontents : (s.hndl.que which.other).contents with
  | nil => exact ⟨_, State.switchGet_nil client bufId hcontents, h.ret osaEfail bufId⟩
  | cons newBufId rest =>
    obtain ⟨hndl', htake, hget⟩ := h.switchGet_cons client bufId hcontents
    refine ⟨_, hget, ?_⟩
    split_ifs with hid
    · refine htake.goto ?_
      show bufId ∈ Function.update s.held client (newBufId :: s.held client) client
      rw [Function.update_self]
      exact List.mem_cons_of_mem newBufId (hheld.resolve_left hid)
    · exact htake.ret osaSok newBufId

/-- The put of a switch, which returns `OSA_SOK`. -/
lemma Inv.switchPut (h : Inv numBuf s) (hheld : bufId ∈ s.held client) (which : Which)
    (newBufId : ℤ) : ∃ hndl', s.switchPut client which bufId newBufId
        = some ((s.give client which bufId hndl').ret client osaSok newBufId) ∧
      Inv numBuf ((s.give client which bufId hndl').ret client osaSok newBufId) := by
  obtain ⟨hndl', hput, hvalid, hrep⟩ :=
    h.valid.bufPut_room (h.mem_of_held hheld) (h.room hheld which)
  refine ⟨hndl', ?_, ?_⟩
  · unfold State.switchPut
    rw [hput]
    rfl
  · -- the client leaves the switch with its put
    have hidle : (s.ret client osaSok newBufId).pc client = .idle := Function.update_self ..
    exact (h.ret osaSok newBufId).give hheld hidle hvalid hrep

/-- A call that is allowed goes on, and keeps the invariant. -/
lemma inv_act (h : Inv numBuf s) {e : Event} (hallowed : Allowed s e) :
    ∃ s', act s e = some s' ∧ Inv numBuf s' := by
  cases e with
  | get client which timeout => exact h.getStep client which timeout
  | put client which bufId => exact h.putStep hallowed.1 hallowed.2 which
  | switch client which bufId => exact h.switchGet hallowed.2 which
  | resume client =>
    have hpc := h.pcOk client
    cases hp : s.pc client with
    | idle => exact absurd hp hallowed
    | get which timeout =>
      simp only [act, hp]
      exact h.getStep client which timeout
    | put which bufId => exact absurd hpc (by rw [hp]; exact id)
    | switchPut which bufId newBufId =>
      simp only [act, hp]
      obtain ⟨hndl', hput, hinv⟩ := h.switchPut (by rw [hp] at hpc; exact hpc) which newBufId
      exact ⟨_, hput, hinv⟩

theorem inv_step (s : State) (e : Event) (s' : State) (h : Inv numBuf s)
    (hstep : step s e = some s') : Inv numBuf s' := by
  by_cases hallowed : Allowed s e
  · obtain ⟨t, hact, ht⟩ := inv_act h hallowed
    rw [step, if_pos hallowed, hact, Option.some.injEq] at hstep
    exact hstep ▸ ht
  · rw [step, if_neg hallowed] at hstep
    simp at hstep

/-- What a step that is allowed looks like from outside. -/
lemma Inv.stepOk (h : Inv numBuf s) (e : Event) : StepOk s e where
  defined hallowed := by
    obtain ⟨s', hact, -⟩ := inv_act h hallowed
    exact ⟨s', by rw [step, if_pos hallowed, hact]⟩
  room which hallowed hput := by
    -- whoever puts holds the buffer until then
    have hheld : ∃ client bufId, bufId ∈ s.held client := by
      cases e with
      | get => simp [putOf] at hput
      | put client _ bufId => exact ⟨client, bufId, hallowed.2⟩
      | switch => simp [putOf] at hput
      | resume client =>
        have hpc := h.pcOk client
        cases hp : s.pc client with
        | idle => exact absurd hp hallowed
        | get => simp [putOf, hp] at hput
        | put => exact absurd hpc (by rw [hp]; exact id)
        | switchPut _ bufId _ => exact ⟨client, bufId, by rw [hp] at hpc; exact hpc⟩
    obtain ⟨client, bufId, hheld⟩ := hheld
    have := h.room hheld which
    rw [CellRing.length_contents] at this
    rw [h.valid.len_eq]
    exact this
  switch client bufId s' status bufId' hswitch hstep hidle hret hne := by
    by_cases hallowed : Allowed s e
    swap
    · rw [step, if_neg hallowed] at hstep
      simp at hstep
    rw [step, if_pos hallowed] at hstep
    cases e with
    | get => simp [switchOf] at hswitch
    | put => simp [switchOf] at hswitch
    | switch k which old =>
      simp only [switchOf, Option.some.injEq, Prod.mk.injEq] at hswitch
      obtain ⟨rfl, rfl⟩ := hswitch
      cases hcontents : (s.hndl.que which.other).contents with
      | nil =>
        have hact := State.switchGet_nil k old hcontents
        obtain rfl : s.ret k osaEfail old = s' := Option.some.inj (hact.symm.trans hstep)
        simp only [State.ret, Function.update_self, Option.some.injEq, Prod.mk.injEq] at hret
        exact ⟨hret.2.symm, rfl⟩
      | cons newBufId rest =>
        obtain ⟨hndl', -, hact⟩ := h.switchGet_cons k old hcontents
        have hs' := Option.some.inj (hact.symm.trans hstep)
        split_ifs at hs' with hid
        · -- the switch is not over yet
          rw [← hs'] at hidle
          simp [State.goto] at hidle
        · rw [← hs'] at hret
          simp only [State.ret, Function.update_self, Option.some.injEq, Prod.mk.injEq] at hret
          exact absurd hret.1.symm hne
    | resume k =>
      cases hp : s.pc k with
      | idle => exact absurd hp hallowed
      | get => simp [switchOf, hp] at hswitch
      | put => simp [switchOf, hp] at hswitch
      | switchPut which old newBufId =>
        simp only [switchOf, hp, Option.some.injEq, Prod.mk.injEq] at hswitch
        obtain ⟨rfl, rfl⟩ := hswitch
        have hpc := h.pcOk k
        rw [hp] at hpc
        obtain ⟨hndl', hact, -⟩ := h.switchPut hpc which newBufId
        simp only [act, hp] at hstep
        rw [← Option.some.inj (hact.symm.trans hstep)] at hret
        simp only [State.ret, Function.update_self, Option.some.injEq, Prod.mk.injEq] at hret
        exact absurd hret.1.symm hne

end Inv

/-! ## The creation -/

/-- Putting a list of numbers into a queue with room for them. -/
lemma putAll_room {que : QueHndl} (h : que.Valid) {ids : List ℤ}
    (hroom : que.contents.length + ids.length ≤ que.len) :
    ∃ que', putAll que ids = .ok que' ∧ que'.Valid ∧ que'.len = que.len ∧
      que'.contents = que.contents ++ ids := by
  induction ids generalizing que with
  | nil => exact ⟨que, rfl, h, rfl, (List.append_nil _).symm⟩
  | cons i rest ih =>
    rw [List.length_cons] at hroom
    obtain ⟨que₁, hput, hvalid, hlen, hcontents⟩ := h.putPass_room (by omega) i osaTimeoutForever
    have hroom₁ : que₁.contents.length + rest.length ≤ que₁.len := by
      rw [hcontents, hlen, List.length_append, List.length_singleton]
      omega
    obtain ⟨que', hall, hvalid', hlen', hcontents'⟩ := ih hvalid hroom₁
    refine ⟨que', ?_, hvalid', hlen'.trans hlen, ?_⟩
    · unfold putAll osaQuePut
      rw [hput]
      exact hall
    · rw [hcontents', hcontents, List.append_assoc]
      rfl

lemma mem_buffers {numBuf i : ℤ} :
    i ∈ (List.range numBuf.toNat).map Int.ofNat ↔ 0 ≤ i ∧ i < numBuf := by
  rw [List.mem_map]
  constructor
  · rintro ⟨k, hk, rfl⟩
    have := List.mem_range.mp hk
    show (0 : ℤ) ≤ k ∧ (k : ℤ) < numBuf
    omega
  · rintro ⟨hlo, hhi⟩
    refine ⟨i.toNat, List.mem_range.mpr (by omega), ?_⟩
    exact Int.toNat_of_nonneg hlo

/-- A handle for 1 to 32 buffers starts with all of them in `emptyQue`. -/
lemma osaBufCreate_ok {numBuf : ℤ} (hpos : 1 ≤ numBuf) (hmax : numBuf ≤ osaBufNumMax)
    (emptyMemory fullMemory : ℕ → ℤ) :
    ∃ hndl, osaBufCreate numBuf (some emptyMemory) (some fullMemory) = .ok (osaSok, some hndl) ∧
      hndl.Valid numBuf ∧
      hndl.emptyQue.contents = (List.range numBuf.toNat).map Int.ofNat ∧
      hndl.fullQue.contents = [] := by
  have hmax' : numBuf ≤ 32 := hmax
  have hmod : (numBuf % 2 ^ 32).toNat = numBuf.toNat := by omega
  have hcells : numBuf.toNat ≤ 4 * numBuf.toNat % 2 ^ 32 / 4 := by omega
  have hvalid (memory : ℕ → ℤ) : Handle.Valid
      (⟨.empty numBuf.toNat memory, 4 * numBuf.toNat % 2 ^ 32 / 4⟩ : QueHndl) :=
    ⟨.empty (by omega) memory, hcells⟩
  have hroom : (Handle.contents
        (⟨.empty numBuf.toNat emptyMemory, 4 * numBuf.toNat % 2 ^ 32 / 4⟩ : QueHndl)).length
      + ((List.range numBuf.toNat).map Int.ofNat).length ≤ numBuf.toNat := by
    rw [List.length_map, List.length_range]
    exact (Nat.zero_add _).le
  obtain ⟨que, hall, hque, hlen, hcontents⟩ := putAll_room (hvalid emptyMemory) hroom
  refine ⟨⟨que, ⟨.empty numBuf.toNat fullMemory, 4 * numBuf.toNat % 2 ^ 32 / 4⟩, numBuf⟩,
    ?_, ⟨rfl, ?_, ?_⟩, hcontents, rfl⟩
  · unfold osaBufCreate
    rw [if_neg (by omega)]
    simp only [osaQueCreate, Option.map_some, hmod, hall]
  · rintro (_ | _)
    · exact hque
    · exact hvalid fullMemory
  · rintro (_ | _)
    · exact hlen
    · rfl

/-- The creation establishes the invariant. -/
lemma inv_init {numBuf : ℤ} {hndl : BufHndl} (h : hndl.Valid numBuf)
    (hempty : hndl.emptyQue.contents = (List.range numBuf.toNat).map Int.ofNat)
    (hfull : hndl.fullQue.contents = []) : Inv numBuf (State.init hndl) where
  valid := h
  order _ := rfl
  pcOk _ := trivial
  placed := by
    have hids (place : Place) : ids (State.init hndl) place
        = if place = .que .empty then (List.range numBuf.toNat).map Int.ofNat else [] := by
      rcases place with (_ | _) | c
      · exact hempty
      · exact hfull
      · rfl
    refine ⟨fun p => ?_, fun p q a hp hq => ?_, fun a => ?_⟩
    · rw [hids]
      split
      · exact List.nodup_range.map fun _ _ => Int.ofNat.inj
      · exact List.nodup_nil
    · -- what is anywhere is in `emptyQue`
      have honly (r : Place) (hr : a ∈ ids (State.init hndl) r) : r = .que .empty := by
        by_contra hne
        rw [hids, if_neg hne] at hr
        exact absurd hr List.not_mem_nil
      rw [honly p hp, honly q hq]
    · rw [← mem_buffers]
      constructor
      · intro ha
        exact ⟨.que .empty, by rw [hids, if_pos rfl]; exact ha⟩
      · rintro ⟨r, hr⟩
        rw [hids] at hr
        split at hr
        · exact hr
        · exact absurd hr List.not_mem_nil

/-- **Buffers are conserved.** For 1 to 32 buffers and all runs of all clients: the buffers in
the queues and in the clients' hands are `0` to `numBuf - 1`, each at one place; the queues keep
their order; every put finds room; and a switch that fails changes nothing. -/
theorem buffers_conserved {numBuf : ℤ} (hpos : 1 ≤ numBuf) (hmax : numBuf ≤ osaBufNumMax)
    (emptyMemory fullMemory : ℕ → ℤ) :
    ∃ hndl, osaBufCreate numBuf (some emptyMemory) (some fullMemory) = .ok (osaSok, some hndl) ∧
      ∀ events, Always step (Conserved numBuf) (State.init hndl) events ∧
        EveryStep step StepOk (State.init hndl) events := by
  obtain ⟨hndl, hcreate, hvalid, hempty, hfull⟩ :=
    osaBufCreate_ok hpos hmax emptyMemory fullMemory
  have hinit : Inv numBuf (State.init hndl) := inv_init hvalid hempty hfull
  refine ⟨hndl, hcreate, fun events => ⟨?_, ?_⟩⟩
  · exact always_of_invariant (fun _ h => h.toConserved) inv_step events hinit
  · exact everyStep_of_invariant (fun _ e h => h.stepOk e) inv_step events hinit

/-- Three buffers. -/
theorem three_buffers_conserved :
    ∃ hndl, osaBufCreate 3 (some fun _ => 0) (some fun _ => 0) = .ok (osaSok, some hndl) ∧
      ∀ events, Always step (Conserved 3) (State.init hndl) events ∧
        EveryStep step StepOk (State.init hndl) events :=
  buffers_conserved (by decide) (by decide) (fun _ => 0) fun _ => 0

end IpncRdk.OsaBuf
