import IpncRdk.HttpThread.SafeReply

/-!
# Replies that update the report as a whole

`req_reply` tests and stores the members of a reply one by one, casts their numbers to `int`s, and
marks the report valid whichever of them there were.

* `Reports` — the reply is a success and has both numbers, as they are written;
* `AllOrNothing` — the handler takes over both numbers or leaves everything as it is;
* `Complete` — the members that the handler uses are there, with the types it takes for granted, and
  its casts keep their numbers;
* `all_or_nothing_iff` — exactly the replies that are handled so.
-/

namespace IpncRdk.HttpThread

open Lib CJson

/-- The member is there and is the number `k`. -/
def IsNumber (member : Option Json) (k : ℤ) : Prop := ∃ d v, member = some (.number d v) ∧ d.IsInt k

/-- A success reply with both numbers. -/
structure Reports (root : Json) (percent result : ℤ) : Prop where
  code : IsNumber (getObjectItem root codeKey) 0
  percent : IsNumber (dataMember root percentKey) percent
  result : IsNumber (dataMember root resultKey) result

/-- For every report: the handler comes to its end, and leaves all as it was, or has marked the
report valid and filled it in with the two numbers of a success reply. -/
def AllOrNothing (intOf : List UInt8 → ℤ) (b : Buffer) (parsed : Option Json) : Prop :=
  ∀ s, ∃ t, reqReply intOf b s = .ok t ∧ (t = s ∨
    ∃ root, parsed = some root ∧ t.report.isValid = true ∧
      Reports root t.report.percent t.report.result)

/-- The member is there and is a number that its cast to `int` keeps. -/
def KeepsNumber (member : Option Json) : Prop := ∃ d v, member = some (.number d v) ∧ d.IsInt v

/-- The members of a reply that its code asks for are there, and of the right type. -/
structure Complete (root : Json) : Prop where
  code : (getObjectItem root codeKey).isSome = true
  /-- an error reply has a text -/
  msg : ∀ code, getObjectItem root codeKey = some code → valueint code ≠ 0 →
    ∃ text, getObjectItem root msgKey = some (.string text)
  /-- a code that is cast to 0 and comes with data is 0, and both numbers are there -/
  data : ∀ code format, getObjectItem root codeKey = some code → valueint code = 0 →
    getObjectItem root dataKey = some format →
      KeepsNumber (some code) ∧ KeepsNumber (getObjectItem format percentKey) ∧
        KeepsNumber (getObjectItem format resultKey)
  /-- an image is named by a string -/
  imageId : ∀ code node, getObjectItem root codeKey = some code → valueint code = 0 →
    dataMember root imageIdKey = some node → ∃ text, node = .string text

/-- A text that is no JSON ends in its buffer's memory, any other has what it needs. -/
def Orderly (b : Buffer) : Option Json → Prop
  | none => (0 : UInt8) ∈ b.mem
  | some root => Complete root

section Effects
variable {root : Json}

lemma Complete.usable (h : Complete root) : Usable root := ⟨h.code, h.msg, h.imageId⟩

/-- The number that a cast keeps. -/
lemma KeepsNumber.isNumber {member : Option Json} (h : KeepsNumber member) :
    ∃ k, member.map valueint = some k ∧ IsNumber member k := by
  obtain ⟨d, v, rfl, hint⟩ := h
  exact ⟨v, rfl, d, v, rfl, hint⟩

/-- A number is kept if it is what the cast makes of it. -/
lemma IsNumber.keeps {member : Option Json} {k x : ℤ} (h : IsNumber member k)
    (hcast : (member.map valueint).getD x = k) : KeepsNumber member := by
  obtain ⟨d, v, rfl, hint⟩ := h
  obtain rfl : v = k := hcast
  exact ⟨d, v, rfl, hint⟩

/-- A complete reply writes nothing, or both numbers of a success reply. -/
lemma rootEffect_of_complete (h : Complete root) :
    rootEffect root = .ok .nothing ∨ ∃ percent result imgId, Reports root percent result ∧
      rootEffect root = .ok ⟨true, some percent, some result, imgId⟩ := by
  obtain ⟨e, he⟩ := rootEffect_isOk_iff.mpr h.usable
  obtain ⟨code, hcode, ⟨-, -, rfl⟩ | ⟨hzero, format, hdata, heffect⟩ | ⟨-, -, rfl⟩⟩ :=
    rootEffect_eq_ok_iff.mp he
  · exact .inl he
  · obtain ⟨hkeeps, hpercent, hresult⟩ := h.data code format hcode hzero hdata
    obtain ⟨k, hk, hnumber⟩ := hkeeps.isNumber
    obtain ⟨percent, hcastPercent, hisPercent⟩ := hpercent.isNumber
    obtain ⟨result, hcastResult, hisResult⟩ := hresult.isNumber
    -- the code is the number that it is cast to
    obtain rfl : 0 = k := hzero.symm.trans (Option.some.inj hk)
    have hreports : Reports root percent result :=
      ⟨hcode ▸ hnumber, (dataMember_eq hdata percentKey).symm ▸ hisPercent,
        (dataMember_eq hdata resultKey).symm ▸ hisResult⟩
    obtain ⟨-, hwrites⟩ := dataEffect_eq_ok_iff.mp heffect
    rw [hcastPercent, hcastResult] at hwrites
    exact .inr ⟨percent, result, _, hreports, hwrites ▸ he⟩
  · exact .inl he

/-- A reply that is handled without a fault, and marks the report valid with both numbers only,
is complete. -/
lemma complete_of_rootEffect {e : Effect} (h : rootEffect root = .ok e)
    (hvalid : e.valid = true → ∃ x y, Reports root (e.percent.getD x) (e.result.getD y)) :
    Complete root := by
  have husable := rootEffect_isOk_iff.mp ⟨e, h⟩
  refine ⟨husable.code, husable.msg, fun code format hcode hzero hdata => ?_, husable.imageId⟩
  obtain ⟨code', hcode', hcases⟩ := rootEffect_eq_ok_iff.mp h
  obtain rfl := Option.some.inj (hcode.symm.trans hcode')
  rcases hcases with ⟨-, hnone, -⟩ | ⟨-, format', hdata', heffect⟩ | ⟨hne, -, -⟩
  · cases hdata.symm.trans hnone
  · -- with a code of 0 the handler looks at the data
    obtain rfl := Option.some.inj (hdata.symm.trans hdata')
    obtain ⟨x, y, hreports⟩ := hvalid (dataEffect_valid heffect)
    obtain ⟨-, rfl⟩ := dataEffect_eq_ok_iff.mp heffect
    have hpercent := hreports.percent
    have hresult := hreports.result
    rw [dataMember_eq hdata] at hpercent hresult
    exact ⟨(hcode ▸ hreports.code).keeps (x := 0) hzero, hpercent.keeps rfl, hresult.keeps rfl⟩
  · exact absurd hzero hne

end Effects

/-! ## The handler -/

section Main
variable {intOf : List UInt8 → ℤ} {b : Buffer}

/-- The handler on a text that is no JSON. -/
lemma allOrNothing_none (hparse : parseReply intOf b.mem = .ok none) :
    AllOrNothing intOf b none ↔ (0 : UInt8) ∈ b.mem := by
  have hreply : ∀ s, reqReply intOf b s =
      (if (0 : UInt8) ∈ b.mem then .ok .nothing else .error .outOfBounds : Except Fault Effect).map
        fun e => e.act s := fun s => by
    rw [reqReply_eq, replyOf_none intOf hparse]
  constructor
  · intro h
    obtain ⟨t, ht, -⟩ := h ⟨⟨[], 0, 0, false, 0⟩, []⟩
    rw [hreply] at ht
    by_contra hnul
    rw [if_neg hnul] at ht
    cases ht
  · intro hnul s
    exact ⟨s, by rw [hreply, if_pos hnul]; rfl, Or.inl rfl⟩

/-- The handler on a parsed reply. -/
lemma allOrNothing_some {root : Json} (hparse : parseReply intOf b.mem = .ok (some root)) :
    AllOrNothing intOf b (some root) ↔ Complete root := by
  have hreply : ∀ s, reqReply intOf b s = (rootEffect root).map fun e => e.act s := fun s => by
    rw [reqReply_eq, replyOf_some intOf hparse]
  constructor
  · intro h
    -- a report that is not valid shows whether the handler marks it
    obtain ⟨t, ht, hwhole⟩ := h ⟨⟨[], 0, 0, false, 0⟩, []⟩
    rw [hreply] at ht
    obtain ⟨e, heffect, hact⟩ := map_eq_ok_iff.mp ht
    refine complete_of_rootEffect heffect fun hvalid => ?_
    rcases hwhole with hsame | ⟨root', hroot, -, hreports⟩
    · have hno := congrArg (fun s => s.report.isValid) (hact.trans hsame)
      simp [Effect.act, hvalid] at hno
    · obtain rfl := Option.some.inj hroot
      rw [← hact] at hreports
      exact ⟨0, 0, hreports⟩
  · intro h s
    rw [hreply]
    rcases rootEffect_of_complete h with hnothing | ⟨percent, result, imgId, hreports, heffect⟩
    · rw [hnothing]
      exact ⟨s, rfl, Or.inl rfl⟩
    · rw [heffect]
      exact ⟨_, rfl, Or.inr ⟨root, rfl, rfl, hreports⟩⟩

/-- **Which replies are taken over as a whole or not at all.** For every buffer that the parser
returns from: exactly those that are in order. -/
theorem all_or_nothing_iff {parsed : Option Json} (hparse : parseReply intOf b.mem = .ok parsed) :
    AllOrNothing intOf b parsed ↔ Orderly b parsed := by
  cases parsed with
  | none => exact allOrNothing_none hparse
  | some root => exact allOrNothing_some hparse

/-- `{"code":0,"data":{"predict_percent":42}}` -/
def partialReply : Buffer where
  bytes := [123, 34] ++ codeKey ++ [34, 58, 48, 44, 34] ++ dataKey ++ [34, 58, 123, 34] ++
    percentKey ++ [34, 58, 52, 50, 125, 125]
  behind := [0]

def partialRoot : Json :=
  .object [(codeKey, .number ⟨0, 0⟩ 0), (dataKey, .object [(percentKey, .number ⟨42, 0⟩ 42)])]

/-- A reply without `"predict_result"` marks the report valid with the result of the last one. -/
theorem partialReply_not_allOrNothing :
    parseReply decimal partialReply.mem = .ok (some partialRoot) ∧
    ¬ AllOrNothing decimal partialReply (some partialRoot) := by
  have hparse : parseReply decimal partialReply.mem = .ok (some partialRoot) := rfl
  refine ⟨hparse, fun h => ?_⟩
  have hcomplete := (allOrNothing_some hparse).mp h
  obtain ⟨-, -, d, v, hresult, -⟩ := hcomplete.data _ _ rfl rfl rfl
  nomatch hresult

theorem partialReply_all_or_nothing : parseReply decimal partialReply.mem = .ok (some partialRoot) ∧
    (AllOrNothing decimal partialReply (some partialRoot) ↔
      Orderly partialReply (some partialRoot)) :=
  ⟨rfl, all_or_nothing_iff rfl⟩

end Main

end IpncRdk.HttpThread
