import IpncRdk.CJson.ParseTheorems
import IpncRdk.HttpThread.Delivery

/-!
# Replies that cannot stop the handler

`req_reply` uses some members of a reply without a look at whether they are there, and hands a
buffer without a NUL to functions that read up to one.

* `Survives` — the handler comes to its end within the bytes that were delivered;
* `Usable` — the members that it uses are there, and the strings among them are strings;
* `survives_iff` — exactly the replies that cannot stop it;
* `reqReply_behind` — it then does the same whatever lies behind the bytes.
-/

namespace IpncRdk.HttpThread

open Lib CJson

/-- A buffer with nothing to read behind it. -/
def alone (bytes : List UInt8) : Buffer := ⟨bytes, []⟩

/-- For every report: the handler comes to its end without a null pointer, and without a byte
behind those that were delivered. -/
def Survives (intOf : List UInt8 → ℤ) (bytes : List UInt8) : Prop :=
  ∀ s, ∃ t, reqReply intOf (alone bytes) s = .ok t

/-- A member of `"data"`. -/
def dataMember (root : Json) (key : List UInt8) : Option Json :=
  (getObjectItem root dataKey).bind fun format => getObjectItem format key

/-- What the handler uses of a reply without a test. -/
structure Usable (root : Json) : Prop where
  code : (getObjectItem root codeKey).isSome = true
  /-- an error reply has a text -/
  msg : ∀ code, getObjectItem root codeKey = some code → valueint code ≠ 0 →
    ∃ text, getObjectItem root msgKey = some (.string text)
  /-- an image is named by a string -/
  imageId : ∀ code node, getObjectItem root codeKey = some code → valueint code = 0 →
    dataMember root imageIdKey = some node → ∃ text, node = .string text

/-- The parser comes to a result within the bytes. What it refuses has a NUL among them, as it is
printed, and what it accepts is usable. -/
def Answerable (intOf : List UInt8 → ℤ) (bytes : List UInt8) : Prop :=
  (parseReply intOf bytes = .ok none ∧ (0 : UInt8) ∈ bytes) ∨
    ∃ root, parseReply intOf bytes = .ok (some root) ∧ Usable root

section Reply
variable {intOf : List UInt8 → ℤ} {bytes : List UInt8} {root : Json}

lemma dataMember_eq {format : Json} (hdata : getObjectItem root dataKey = some format)
    (key : List UInt8) : dataMember root key = getObjectItem format key := by
  unfold dataMember
  rw [hdata]
  rfl

lemma dataEffect_isOk_iff {format : Json} : (∃ e, dataEffect format = .ok e) ↔
    ∀ node, getObjectItem format imageIdKey = some node → ∃ text, node = .string text := by
  constructor
  · rintro ⟨e, he⟩
    exact (dataEffect_eq_ok_iff.mp he).1
  · intro h
    exact ⟨_, dataEffect_eq_ok_iff.mpr ⟨h, rfl⟩⟩

/-- The replies that the handler has an effect for. -/
lemma rootEffect_isOk_iff : (∃ e, rootEffect root = .ok e) ↔ Usable root := by
  constructor
  · rintro ⟨e, he⟩
    obtain ⟨code, hcode, hcases⟩ := rootEffect_eq_ok_iff.mp he
    have hsome : (getObjectItem root codeKey).isSome = true := by rw [hcode]; rfl
    have hsame : ∀ {code'}, getObjectItem root codeKey = some code' → code' = code :=
      fun hcode' => Option.some.inj (hcode'.symm.trans hcode)
    rcases hcases with ⟨hzero, hdata, -⟩ | ⟨hzero, format, hdata, heffect⟩ | ⟨hne, htext, -⟩
    · refine ⟨hsome, fun _ hcode' hne => absurd (hsame hcode' ▸ hzero) hne, ?_⟩
      intro _ node _ _ hnode
      obtain ⟨format, hformat, -⟩ := Option.bind_eq_some_iff.mp hnode
      cases hdata.symm.trans hformat
    · refine ⟨hsome, fun _ hcode' hne => absurd (hsame hcode' ▸ hzero) hne, ?_⟩
      intro _ node _ _ hnode
      rw [dataMember_eq hdata] at hnode
      exact dataEffect_isOk_iff.mp ⟨e, heffect⟩ node hnode
    · exact ⟨hsome, fun _ _ _ => htext,
        fun _ _ hcode' hzero => absurd (hsame hcode' ▸ hzero) hne⟩
  · intro h
    obtain ⟨code, hcode⟩ := Option.isSome_iff_exists.mp h.code
    by_cases hzero : valueint code = 0
    · cases hdata : getObjectItem root dataKey with
      | none => exact ⟨_, rootEffect_eq_ok_iff.mpr ⟨code, hcode, .inl ⟨hzero, hdata, rfl⟩⟩⟩
      | some format =>
        obtain ⟨e, he⟩ := dataEffect_isOk_iff.mpr fun node hnode =>
          h.imageId code node hcode hzero ((dataMember_eq hdata imageIdKey).trans hnode)
        exact ⟨e, rootEffect_eq_ok_iff.mpr ⟨code, hcode, .inr (.inl ⟨hzero, format, hdata, he⟩)⟩⟩
    · exact ⟨_, rootEffect_eq_ok_iff.mpr
        ⟨code, hcode, .inr (.inr ⟨hzero, h.msg code hcode hzero, rfl⟩)⟩⟩

/-- The handler ends on a buffer if it has an effect for it. -/
lemma survives_iff_replyOf : Survives intOf bytes ↔ ∃ e, replyOf intOf (alone bytes) = .ok e := by
  unfold Survives
  simp only [reqReply_eq, map_eq_ok_iff]
  constructor
  · intro h
    obtain ⟨t, e, he, -⟩ := h ⟨⟨[], 0, 0, false, 0⟩, []⟩
    exact ⟨e, he⟩
  · rintro ⟨e, he⟩ s
    exact ⟨e.act s, e, he, rfl⟩

/-- The handler has an effect for what the parser refuses, if it can be printed, and for what is
usable. -/
lemma replyOf_isOk_iff (b : Buffer) : (∃ e, replyOf intOf b = .ok e) ↔
    (parseReply intOf b.mem = .ok none ∧ (0 : UInt8) ∈ b.mem) ∨
      ∃ root, parseReply intOf b.mem = .ok (some root) ∧ Usable root := by
  constructor
  · rintro ⟨e, he⟩
    obtain ⟨parsed, hparse, -⟩ := bind_eq_ok_iff.mp he
    cases parsed with
    | none =>
      rw [replyOf_none intOf hparse] at he
      by_cases hnul : (0 : UInt8) ∈ b.mem
      · exact Or.inl ⟨hparse, hnul⟩
      · rw [if_neg hnul] at he
        cases he
    | some root =>
      rw [replyOf_some intOf hparse] at he
      exact Or.inr ⟨root, hparse, rootEffect_isOk_iff.mp ⟨e, he⟩⟩
  · rintro (⟨hparse, hnul⟩ | ⟨root, hparse, husable⟩)
    · exact ⟨.nothing, (replyOf_none intOf hparse).trans (if_pos hnul)⟩
    · rw [replyOf_some intOf hparse]
      exact rootEffect_isOk_iff.mpr husable

lemma mem_alone (bytes : List UInt8) : (alone bytes).mem = bytes := List.append_nil bytes

/-- **Exactly the replies that cannot stop the handler.** For every byte string, and every way in
which its numbers may be read. -/
theorem survives_iff (intOf : List UInt8 → ℤ) (bytes : List UInt8) :
    Survives intOf bytes ↔ Answerable intOf bytes := by
  rw [survives_iff_replyOf, replyOf_isOk_iff, mem_alone]
  exact Iff.rfl

/-- What lies behind the bytes does not matter to a handler that survives them. -/
lemma reqReply_behind (h : Answerable intOf bytes) (behind : List UInt8) (s : State) :
    reqReply intOf ⟨bytes, behind⟩ s = reqReply intOf (alone bytes) s := by
  have hmore : ∀ {parsed}, parseReply intOf bytes = .ok parsed →
      parseReply intOf (Buffer.mem ⟨bytes, behind⟩) = .ok parsed := fun hparse =>
    parse_append hparse behind
  rw [reqReply_eq, reqReply_eq]
  rcases h with ⟨hnone, hnul⟩ | ⟨root, hsome, -⟩
  · have hmem : (0 : UInt8) ∈ Buffer.mem ⟨bytes, behind⟩ := List.mem_append_left behind hnul
    rw [replyOf_none intOf (hmore hnone), replyOf_none intOf ((mem_alone bytes).symm ▸ hnone),
      if_pos hmem, if_pos ((mem_alone bytes).symm ▸ hnul)]
  · rw [replyOf_some intOf (hmore hsome), replyOf_some intOf ((mem_alone bytes).symm ▸ hsome)]

end Reply

/-- `{}` -/
def emptyReply : List UInt8 := [123, 125]

/-- `<html>` -/
def htmlReply : List UInt8 := [60, 104, 116, 109, 108, 62]

/-- A reply without `"code"` leads to a null pointer, and an error page is printed beyond its
end. -/
theorem emptyReply_not_survives :
    (∀ s, reqReply decimal (alone emptyReply) s = .error .nullDeref) ∧
      ∀ s, reqReply decimal (alone htmlReply) s = .error .outOfBounds :=
  ⟨fun _ => rfl, fun _ => rfl⟩

end IpncRdk.HttpThread
