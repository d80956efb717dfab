import IpncRdk.HttpThread.ReqReply

/-!
# A reply that arrives in several buffers

Every call of `req_reply` has an effect of its own on the report: it writes some of the fields
and may mark the report valid. The calls of a delivery leave the last value written to each
field.

* `Effect`, `act` — what a reply writes, and the state after it;
* `replyOf` — the effect of a buffer, or what it stops the handler with;
* `deliver_eq` — a delivery has the effects of its buffers one after the other;
* `repliesOf_eq` — the first buffer that stops the handler stops it, else the last writes stay.
-/

namespace IpncRdk.HttpThread

open Lib CJson
open SysCfg (Report)

/-! ## Effects -/

/-- What a reply writes. -/
@[ext]
structure Effect where
  valid : Bool
  percent : Option ℤ
  result : Option ℤ
  imgId : Option (List UInt8)
  deriving DecidableEq, Repr

namespace Effect

/-- A reply without data writes nothing. -/
def nothing : Effect := ⟨false, none, none, none⟩

/-- The state after a reply. -/
def act (e : Effect) (s : State) : State where
  report := { s.report with
    percent := e.percent.getD s.report.percent
    result := e.result.getD s.report.result
    isValid := e.valid || s.report.isValid }
  imgId := e.imgId.getD s.imgId

/-- Two replies, one after the other. -/
def andThen (e e' : Effect) : Effect where
  valid := e'.valid || e.valid
  percent := e'.percent.or e.percent
  result := e'.result.or e.result
  imgId := e'.imgId.or e.imgId

lemma act_andThen (e e' : Effect) (s : State) : (e.andThen e').act s = e'.act (e.act s) := by
  simp only [act, andThen, Option.getD_or, Bool.or_assoc]

/-- An optional write is known from what it leaves of any value. -/
lemma eq_of_getD_eq {α : Type} [Nontrivial α] {p q : Option α}
    (h : ∀ x, p.getD x = q.getD x) : p = q := by
  cases p with
  | none =>
    cases q with
    | none => rfl
    | some b =>
      obtain ⟨x, hx⟩ := exists_ne b
      exact absurd (h x) hx
  | some a =>
    cases q with
    | none =>
      obtain ⟨x, hx⟩ := exists_ne a
      exact absurd (h x).symm hx
    | some b =>
      have hab : a = b := h a
      rw [hab]

/-- An effect is known from what it does to every state. -/
lemma eq_of_act_eq {e e' : Effect} (h : ∀ s, e.act s = e'.act s) : e = e' := by
  -- blank reports that differ in one field each tell the writes apart
  have : Nontrivial (List UInt8) := ⟨[], [0], by decide⟩
  have hstate : ∀ x y z, e.act ⟨⟨[], x, y, false, 0⟩, z⟩ = e'.act ⟨⟨[], x, y, false, 0⟩, z⟩ :=
    fun x y z => h _
  simp only [act, State.mk.injEq, Report.mk.injEq, Bool.or_false, true_and, and_true]
    at hstate
  apply Effect.ext
  · exact (hstate 0 0 []).1.2.2
  · exact eq_of_getD_eq fun x => (hstate x 0 []).1.1
  · exact eq_of_getD_eq fun y => (hstate 0 y []).1.2.1
  · exact eq_of_getD_eq fun z => (hstate 0 0 z).2

end Effect

/-! ## The effect of a buffer -/

/-- What the data of a reply writes. -/
def dataEffect (format : Json) : Except Fault Effect := do
  let imgId ← match getObjectItem format imageIdKey with
    | none => pure none
    | some node => do
      let text ← deref (valuestring node)
      pure (some (formatImgId text))
  pure ⟨true, (getObjectItem format percentKey).map valueint,
    (getObjectItem format resultKey).map valueint, imgId⟩

/-- What a parsed reply writes. -/
def rootEffect (root : Json) : Except Fault Effect := do
  let code ← deref (getObjectItem root codeKey)
  if valueint code = 0 then
    match getObjectItem root dataKey with
    | none => pure .nothing
    | some format => dataEffect format
  else do
    let msg ← deref (getObjectItem root msgKey)
    let _ ← deref (valuestring msg)
    pure .nothing

/-- What a buffer, read for itself, writes, or what it stops the handler with. -/
def replyOf (intOf : List UInt8 → ℤ) (b : Buffer) : Except Fault Effect := do
  match ← parseReply intOf b.mem with
  | none => do
    printText b.mem
    pure .nothing
  | some root => rootEffect root

section ReplyOf
variable (intOf : List UInt8 → ℤ)

lemma deref_eq_ok_iff {α : Type} {p : Option α} {a : α} : deref p = .ok a ↔ p = some a := by
  cases p with
  | none => exact iff_of_false (fun h => by cases h) (fun h => by cases h)
  | some b =>
    show Except.ok b = .ok a ↔ some b = some a
    rw [Except.ok.injEq, Option.some.injEq]

lemma valuestring_eq_some_iff {node : Json} {text : List UInt8} :
    valuestring node = some text ↔ node = .string text := by
  cases node with
  | string text' =>
    show some text' = some text ↔ _
    rw [Option.some.injEq, Item.string.injEq]
  | _ => exact iff_of_false (fun h => by cases h) (fun h => by cases h)

lemma storeData_eq (format : Json) (s : State) :
    storeData format s = (dataEffect format).map fun e => e.act s := by
  unfold storeData dataEffect
  cases hpercent : getObjectItem format percentKey <;>
    cases hresult : getObjectItem format resultKey <;>
    cases himage : getObjectItem format imageIdKey with
    | none => rfl
    | some node => cases htext : valuestring node <;> simp [deref, htext] <;> rfl

lemma rootEffect_eq (root : Json) (s : State) :
    (do
      let code ← deref (getObjectItem root codeKey)
      if valueint code = 0 then
        match getObjectItem root dataKey with
        | none => pure s
        | some format => storeData format s
      else do
        let msg ← deref (getObjectItem root msgKey)
        let _ ← deref (valuestring msg)
        pure s) = (rootEffect root).map fun e => e.act s := by
  unfold rootEffect
  cases hcode : getObjectItem root codeKey with
  | none => rfl
  | some code =>
    simp only [deref, bind, Except.bind]
    by_cases hzero : valueint code = 0
    · rw [if_pos hzero, if_pos hzero]
      cases hdata : getObjectItem root dataKey with
      | none => rfl
      | some format => exact storeData_eq format s
    · rw [if_neg hzero, if_neg hzero]
      cases hmsg : getObjectItem root msgKey with
      | none => rfl
      | some msg => cases htext : valuestring msg <;> simp [htext] <;> rfl

lemma reqReply_eq (b : Buffer) (s : State) :
    reqReply intOf b s = (replyOf intOf b).map fun e => e.act s := by
  unfold reqReply replyOf
  cases hparse : parseReply intOf b.mem with
  | error f => rfl
  | ok root =>
    cases root with
    | none =>
      show (printText b.mem >>= fun _ => pure s) = _
      cases printText b.mem <;> rfl
    | some root => exact rootEffect_eq root s

/-- A text that is no JSON is printed up to a NUL. -/
lemma replyOf_none {b : Buffer} (h : parseReply intOf b.mem = .ok none) :
    replyOf intOf b = if (0 : UInt8) ∈ b.mem then .ok .nothing else .error .outOfBounds := by
  unfold replyOf
  rw [h]
  show (printText b.mem >>= fun _ => pure Effect.nothing) = _
  unfold printText
  split <;> rfl

lemma replyOf_some {b : Buffer} {root : Json} (h : parseReply intOf b.mem = .ok (some root)) :
    replyOf intOf b = rootEffect root := by
  unfold replyOf
  rw [h]
  rfl

/-- The data of a reply is handled where it names its image by a string, if at all. -/
lemma dataEffect_eq_ok_iff {format : Json} {e : Effect} : dataEffect format = .ok e ↔
    (∀ node, getObjectItem format imageIdKey = some node → ∃ text, node = .string text) ∧
      e = ⟨true, (getObjectItem format percentKey).map valueint,
        (getObjectItem format resultKey).map valueint,
        ((getObjectItem format imageIdKey).bind valuestring).map formatImgId⟩ := by
  unfold dataEffect
  cases getObjectItem format imageIdKey with
  | none =>
    rw [and_iff_right fun node hnode => by cases hnode]
    constructor
    · intro h
      exact (Except.ok.inj h).symm
    · rintro rfl
      rfl
  | some node =>
    rw [bind_eq_ok_iff]
    constructor
    · rintro ⟨text, htext, he⟩
      obtain rfl := valuestring_eq_some_iff.mp (deref_eq_ok_iff.mp htext)
      exact ⟨fun node' hnode' => ⟨text, (Option.some.inj hnode').symm⟩, (Except.ok.inj he).symm⟩
    · rintro ⟨hstring, rfl⟩
      obtain ⟨text, rfl⟩ := hstring node rfl
      exact ⟨text, rfl, rfl⟩

/-- A reply is handled if it has a code: with data where that is 0, and with a text elsewhere. -/
lemma rootEffect_eq_ok_iff {root : Json} {e : Effect} : rootEffect root = .ok e ↔
    ∃ code, getObjectItem root codeKey = some code ∧
      ((valueint code = 0 ∧ getObjectItem root dataKey = none ∧ e = .nothing) ∨
        (valueint code = 0 ∧ ∃ format, getObjectItem root dataKey = some format ∧
          dataEffect format = .ok e) ∨
        (valueint code ≠ 0 ∧ (∃ text, getObjectItem root msgKey = some (.string text)) ∧
          e = .nothing)) := by
  unfold rootEffect
  rw [bind_eq_ok_iff]
  refine exists_congr fun code => ?_
  rw [deref_eq_ok_iff]
  refine and_congr_right fun _ => ?_
  by_cases hzero : valueint code = 0
  · rw [if_pos hzero]
    cases hdata : getObjectItem root dataKey with
    | none => simp [hzero, pure, Except.pure, eq_comm]
    | some format => simp [hzero]
  · rw [if_neg hzero, bind_eq_ok_iff]
    rw [or_iff_right fun h => hzero h.1, or_iff_right fun h => hzero h.1, and_iff_right hzero]
    constructor
    · rintro ⟨msg, hmsg, h⟩
      obtain ⟨text, htext, he⟩ := bind_eq_ok_iff.mp h
      obtain rfl := valuestring_eq_some_iff.mp (deref_eq_ok_iff.mp htext)
      exact ⟨⟨text, deref_eq_ok_iff.mp hmsg⟩, (Except.ok.inj he).symm⟩
    · rintro ⟨⟨text, hmsg⟩, rfl⟩
      exact ⟨.string text, deref_eq_ok_iff.mpr hmsg, rfl⟩

lemma dataEffect_valid {format : Json} {e : Effect} (h : dataEffect format = .ok e) :
    e.valid = true := by
  rw [(dataEffect_eq_ok_iff.mp h).2]

/-- A reply that writes anything marks the report valid. -/
lemma rootEffect_eq_nothing {root : Json} {e : Effect} (h : rootEffect root = .ok e)
    (hvalid : e.valid = false) : e = .nothing := by
  obtain ⟨code, -, ⟨-, -, he⟩ | ⟨-, format, -, hdata⟩ | ⟨-, -, he⟩⟩ := rootEffect_eq_ok_iff.mp h
  · exact he
  · -- the branch with data marks the report valid
    exact absurd (dataEffect_valid hdata) (by rw [hvalid]; exact Bool.false_ne_true)
  · exact he

lemma replyOf_eq_nothing {b : Buffer} {e : Effect} (h : replyOf intOf b = .ok e)
    (hvalid : e.valid = false) : e = .nothing := by
  obtain ⟨parsed, -, h⟩ := bind_eq_ok_iff.mp h
  cases parsed with
  | none =>
    obtain ⟨_, -, h⟩ := bind_eq_ok_iff.mp h
    exact (Except.ok.inj h).symm
  | some root => exact rootEffect_eq_nothing h hvalid

end ReplyOf

/-! ## The effect of a delivery -/

section Deliver
variable (intOf : List UInt8 → ℤ)

/-- The effects of the buffers, one after the other. -/
def repliesOf : List Buffer → Except Fault Effect
  | [] => pure .nothing
  | b :: bs => do
    let e ← replyOf intOf b
    let e' ← repliesOf bs
    pure (e.andThen e')

/-- A delivery has the effects of its buffers, one after the other. -/
theorem deliver_eq (bs : List Buffer) (s : State) :
    deliver intOf bs s = (repliesOf intOf bs).map fun e => e.act s := by
  induction bs generalizing s with
  | nil => rfl
  | cons b bs ih =>
    unfold deliver repliesOf
    rw [reqReply_eq]
    cases hb : replyOf intOf b with
    | error f => rfl
    | ok e =>
      show deliver intOf bs (e.act s) = _
      rw [ih (e.act s)]
      cases hbs : repliesOf intOf bs with
      | error f => rfl
      | ok e' =>
        show Except.ok (e'.act (e.act s)) = Except.ok ((e.andThen e').act s)
        rw [Effect.act_andThen]

/-- What stops the handler in a buffer. -/
def faultOf (b : Buffer) : Option Fault :=
  match replyOf intOf b with
  | .error f => some f
  | .ok _ => none

/-- What a buffer writes, nothing where it stops the handler. -/
def effectOf (b : Buffer) : Effect :=
  match replyOf intOf b with
  | .error _ => .nothing
  | .ok e => e

/-- What the last buffer that writes a field writes there. -/
def lastWritten {α : Type} (field : Effect → Option α) (bs : List Buffer) : Option α :=
  bs.reverse.findSome? fun b => field (effectOf intOf b)

/-- The last writes of the buffers. -/
def lastWrites (bs : List Buffer) : Effect where
  valid := bs.any fun b => (effectOf intOf b).valid
  percent := lastWritten intOf Effect.percent bs
  result := lastWritten intOf Effect.result bs
  imgId := lastWritten intOf Effect.imgId bs

lemma replyOf_eq (b : Buffer) :
    replyOf intOf b = match faultOf intOf b with
      | some f => .error f
      | none => .ok (effectOf intOf b) := by
  unfold faultOf effectOf
  cases replyOf intOf b <;> rfl

lemma lastWritten_cons {α : Type} (field : Effect → Option α) (b : Buffer) (bs : List Buffer) :
    lastWritten intOf field (b :: bs) =
      (lastWritten intOf field bs).or (field (effectOf intOf b)) := by
  unfold lastWritten
  rw [List.reverse_cons, List.findSome?_append]
  simp

lemma lastWrites_cons (b : Buffer) (bs : List Buffer) :
    lastWrites intOf (b :: bs) = (effectOf intOf b).andThen (lastWrites intOf bs) := by
  simp only [lastWrites, Effect.andThen, lastWritten_cons, List.any_cons, Bool.or_comm]

/-- The first buffer that stops the handler stops the delivery; else the last writes stay. -/
lemma repliesOf_eq (bs : List Buffer) :
    repliesOf intOf bs = match bs.findSome? (faultOf intOf) with
      | some f => .error f
      | none => .ok (lastWrites intOf bs) := by
  induction bs with
  | nil => rfl
  | cons b bs ih =>
    unfold repliesOf
    rw [replyOf_eq, ih, List.findSome?_cons, lastWrites_cons]
    cases faultOf intOf b with
    | some f => rfl
    | none => cases bs.findSome? (faultOf intOf) <;> rfl

/-- A delivery that comes to an end leaves the last writes of its buffers. -/
lemma deliver_eq_ok {bs : List Buffer} {s t : State} (h : deliver intOf bs s = .ok t) :
    t = (lastWrites intOf bs).act s := by
  rw [deliver_eq, repliesOf_eq] at h
  cases hfault : bs.findSome? (faultOf intOf) with
  | some f =>
    rw [hfault] at h
    nomatch h
  | none =>
    rw [hfault] at h
    exact (Except.ok.inj h).symm

/-- A delivery without a success reply writes nothing. -/
lemma lastWrites_eq_nothing {bs : List Buffer}
    (h : (bs.any fun b => (effectOf intOf b).valid) = false) :
    lastWrites intOf bs = .nothing := by
  induction bs with
  | nil => rfl
  | cons b bs ih =>
    rw [List.any_cons, Bool.or_eq_false_iff] at h
    have hb : effectOf intOf b = .nothing := by
      unfold effectOf at h ⊢
      cases hreply : replyOf intOf b with
      | error f => rfl
      | ok e =>
        rw [hreply] at h
        exact replyOf_eq_nothing intOf hreply h.1
    rw [lastWrites_cons, hb, ih h.2]
    rfl

end Deliver

end IpncRdk.HttpThread
