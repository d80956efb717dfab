import IpncRdk.HttpThread.SafeReply

/-!
# A reply in parts

`req_reply` parses every buffer for itself, with whatever lies behind it in memory. How a body is
cut does not matter if what the parser makes of the parts says the same as what it makes of the
whole body.

* `Stops` — what the parser makes of a buffer is something that the handler does not get past;
* `dataOf` — the data of the success reply that the parser finds in a buffer;
* `SaysTheSame` — the first part that stops the handler does so like the whole body, and the last
  part with a member has the value of the whole body for it;
* `delivery_irrelevant_iff` — the delivery does not matter exactly then;
* `delivery_irrelevant_of_first` — for instance, when the first buffer holds the whole reply;
* `delivery_matters_of_lost` — a report that no part has for itself is lost.
-/

namespace IpncRdk.HttpThread

open Lib CJson

/-- The body of a delivery in one buffer. -/
def wholeBody (bs : List Buffer) (behind : List UInt8) : Buffer where
  bytes := bs.flatMap Buffer.bytes
  behind := behind

/-! ## What the parser makes of a buffer -/

section Parsed
variable (intOf : List UInt8 → ℤ)

/-- The handler does not get past a buffer that stops the parser, a text that is no JSON and has no
NUL, and a tree that is not usable. -/
inductive Stops (b : Buffer) : Fault → Prop
  | parser {f : Fault} (h : parseReply intOf b.mem = .error f) : Stops b f
  | text (h : parseReply intOf b.mem = .ok none) (hnul : (0 : UInt8) ∉ b.mem) :
    Stops b .outOfBounds
  | tree {root : Json} (h : parseReply intOf b.mem = .ok (some root)) (hroot : ¬ Usable root) :
    Stops b .nullDeref

/-- The first buffer that the handler does not get past stops it with `f`. -/
def FirstStop (bs : List Buffer) (f : Fault) : Prop :=
  ∃ before b after, bs = before ++ b :: after ∧ Stops intOf b f ∧
    ∀ b' ∈ before, ∀ g, ¬ Stops intOf b' g

/-- `"data"` of the tree in a buffer, if its code is 0. -/
def dataOf (b : Buffer) : Option Json :=
  match parseReply intOf b.mem with
  | .ok (some root) =>
    if (getObjectItem root codeKey).map valueint = some 0 then getObjectItem root dataKey else none
  | _ => none

/-- A member of the last data that has it. -/
def lastMember (bs : List Buffer) (key : List UInt8) : Option Json :=
  bs.reverse.findSome? fun b => (dataOf intOf b).bind fun format => getObjectItem format key

/-- The name of an image, as far as `imgId` has room for it. -/
def imageName (node : Json) : Option (List UInt8) := (valuestring node).map formatImgId

/-- The parts, each parsed for itself, say what the buffer `whole` says: the first of them that the
handler does not get past stops it as `whole` does, and where `whole` does not, one of them is a
success reply with data if `whole` is, and the last one with a member has the value of `whole` for
it. -/
structure SaysTheSame (bs : List Buffer) (whole : Buffer) : Prop where
  stops : ∀ f, FirstStop intOf bs f ↔ Stops intOf whole f
  data : (∀ f, ¬ Stops intOf whole f) →
    ((∃ b ∈ bs, (dataOf intOf b).isSome = true) ↔ (dataOf intOf whole).isSome = true)
  percent : (∀ f, ¬ Stops intOf whole f) →
    (lastMember intOf bs percentKey).map valueint =
      (lastMember intOf [whole] percentKey).map valueint
  result : (∀ f, ¬ Stops intOf whole f) →
    (lastMember intOf bs resultKey).map valueint =
      (lastMember intOf [whole] resultKey).map valueint
  imageId : (∀ f, ¬ Stops intOf whole f) →
    (lastMember intOf bs imageIdKey).bind imageName =
      (lastMember intOf [whole] imageIdKey).bind imageName

end Parsed

/-! ## The effects of the trees -/

section Effects
variable {intOf : List UInt8 → ℤ} {b whole : Buffer} {bs : List Buffer} {root : Json} {f : Fault}

/-- The only thing in the way is a null pointer. -/
def OnlyNull {α : Type} (x : Except Fault α) : Prop := ∀ f, x = .error f → f = .nullDeref

lemma onlyNull_ok {α : Type} (a : α) : OnlyNull (.ok a : Except Fault α) := fun _ h => nomatch h

lemma onlyNull_deref {α : Type} (p : Option α) : OnlyNull (deref p) := by
  intro f h
  cases p with
  | none => exact (Except.error.inj h).symm
  | some a => nomatch h

lemma OnlyNull.bind {α β : Type} {x : Except Fault α} {next : α → Except Fault β}
    (hx : OnlyNull x) (hnext : ∀ a, OnlyNull (next a)) : OnlyNull (x >>= next) := by
  intro f h
  cases x with
  | error g => exact Except.error.inj h ▸ hx g rfl
  | ok a => exact hnext a f h

lemma onlyNull_dataEffect (format : Json) : OnlyNull (dataEffect format) := by
  unfold dataEffect
  cases getObjectItem format imageIdKey with
  | none => exact onlyNull_ok _
  | some node => exact (onlyNull_deref (valuestring node)).bind fun _ => onlyNull_ok _

lemma onlyNull_rootEffect (root : Json) : OnlyNull (rootEffect root) := by
  unfold rootEffect
  refine (onlyNull_deref _).bind fun code => ?_
  split
  · split
    · exact onlyNull_ok _
    · exact onlyNull_dataEffect _
  · exact (onlyNull_deref _).bind fun _ => (onlyNull_deref _).bind fun _ => onlyNull_ok _

/-- What the handler does not get past is what it has no effect for. -/
lemma stops_iff : Stops intOf b f ↔ replyOf intOf b = .error f := by
  constructor
  · rintro (h | ⟨h, hnul⟩ | ⟨h, hroot⟩)
    · unfold replyOf
      rw [h]
      rfl
    · rw [replyOf_none intOf h, if_neg hnul]
    · rw [replyOf_some intOf h]
      cases heffect : rootEffect _ with
      | error g => rw [onlyNull_rootEffect _ g heffect]
      | ok e => exact absurd (rootEffect_isOk_iff.mp ⟨e, heffect⟩) hroot
  · intro h
    cases hparse : parseReply intOf b.mem with
    | error g =>
      unfold replyOf at h
      rw [hparse] at h
      exact .parser (Except.error.inj h ▸ hparse)
    | ok parsed =>
      cases parsed with
      | none =>
        rw [replyOf_none intOf hparse] at h
        split at h
        · nomatch h
        · next hnul => exact Except.error.inj h ▸ .text hparse hnul
      | some root =>
        rw [replyOf_some intOf hparse] at h
        have hroot : ¬ Usable root := fun husable => by
          obtain ⟨e, he⟩ := rootEffect_isOk_iff.mpr husable
          nomatch he.symm.trans h
        exact onlyNull_rootEffect root f h ▸ .tree hparse hroot

lemma stops_iff_faultOf : Stops intOf b f ↔ faultOf intOf b = some f := by
  rw [stops_iff]
  unfold faultOf
  cases replyOf intOf b with
  | error g =>
    show Except.error g = Except.error f ↔ some g = some f
    rw [Except.error.injEq, Option.some.injEq]
  | ok e => exact iff_of_false (fun h => nomatch h) fun h => nomatch h

lemma firstStop_iff : FirstStop intOf bs f ↔ bs.findSome? (faultOf intOf) = some f := by
  unfold FirstStop
  simp only [List.findSome?_eq_some_iff, stops_iff_faultOf, Option.eq_none_iff_forall_ne_some]

/-- Where no buffer is the first to stop the handler, none stops it. -/
lemma not_stops_of_firstStop (h : ∀ f, ¬ FirstStop intOf bs f) : ∀ b ∈ bs, ∀ f,
    ¬ Stops intOf b f := by
  have hnone : bs.findSome? (faultOf intOf) = none :=
    Option.eq_none_iff_forall_ne_some.mpr fun f hf => h f (firstStop_iff.mpr hf)
  intro b hb f hstops
  have hfault := List.findSome?_eq_none_iff.mp hnone b hb
  nomatch hfault.symm.trans (stops_iff_faultOf.mp hstops)

/-- What the data of a success reply writes. -/
def writes : Option Json → Effect
  | none => .nothing
  | some format =>
    ⟨true, (getObjectItem format percentKey).map valueint,
      (getObjectItem format resultKey).map valueint,
      (getObjectItem format imageIdKey).bind imageName⟩

lemma dataOf_of_some (hparse : parseReply intOf b.mem = .ok (some root)) {code : Json}
    (hcode : getObjectItem root codeKey = some code) :
    dataOf intOf b = if valueint code = 0 then getObjectItem root dataKey else none := by
  unfold dataOf
  rw [hparse]
  simp only [hcode, Option.map_some, Option.some.injEq]

/-- A buffer that does not stop the handler writes the data that the parser finds. -/
lemma effectOf_eq (h : ∀ f, ¬ Stops intOf b f) : effectOf intOf b = writes (dataOf intOf b) := by
  unfold effectOf
  cases hreply : replyOf intOf b with
  | error f => exact absurd (stops_iff.mpr hreply) (h f)
  | ok e =>
    dsimp only
    obtain ⟨parsed, hparse, hrest⟩ := bind_eq_ok_iff.mp hreply
    cases parsed with
    | none =>
      obtain ⟨_, -, he⟩ := bind_eq_ok_iff.mp hrest
      unfold dataOf
      rw [hparse, ← Except.ok.inj he]
      rfl
    | some root =>
      obtain ⟨code, hcode, ⟨hzero, hdata, rfl⟩ | ⟨hzero, format, hdata, heffect⟩ | ⟨hne, -, rfl⟩⟩ :=
        rootEffect_eq_ok_iff.mp hrest
      · rw [dataOf_of_some hparse hcode, if_pos hzero, hdata]
        rfl
      · rw [dataOf_of_some hparse hcode, if_pos hzero, hdata, (dataEffect_eq_ok_iff.mp heffect).2]
        unfold writes imageName
        rw [Option.map_bind]
        rfl
      · rw [dataOf_of_some hparse hcode, if_neg hne]
        rfl

/-- The image of a success reply that does not stop the handler has a name. -/
lemma imageName_of_not_stops (h : ∀ f, ¬ Stops intOf b f) {node : Json}
    (hnode : ((dataOf intOf b).bind fun format => getObjectItem format imageIdKey) = some node) :
    (imageName node).isSome = true := by
  obtain ⟨format, hformat, hnode⟩ := Option.bind_eq_some_iff.mp hnode
  unfold dataOf at hformat
  split at hformat
  · next root hparse =>
    have husable : Usable root := by
      by_contra hroot
      exact h _ (.tree hparse hroot)
    split at hformat
    · next hcode =>
      obtain ⟨code, hcode, hzero⟩ := Option.map_eq_some_iff.mp hcode
      obtain ⟨text, rfl⟩ := husable.imageId code node hcode hzero
        ((dataMember_eq hformat imageIdKey).trans hnode)
      rfl
    · nomatch hformat
  · nomatch hformat

/-- The first value found, where a value is found with every item. -/
lemma findSome?_bind {α β γ : Type} {l : List α} {x : α → Option β} {val : β → Option γ}
    {y : α → Option γ} (hy : ∀ a ∈ l, y a = (x a).bind val)
    (hval : ∀ a ∈ l, ∀ c, x a = some c → (val c).isSome = true) :
    l.findSome? y = (l.findSome? x).bind val := by
  induction l with
  | nil => rfl
  | cons a l ih =>
    rw [List.findSome?_cons, List.findSome?_cons, hy a List.mem_cons_self]
    cases hx : x a with
    | none =>
      exact ih (fun a' ha' => hy a' (List.mem_cons_of_mem a ha'))
        fun a' ha' => hval a' (List.mem_cons_of_mem a ha')
    | some c =>
      obtain ⟨v, hv⟩ := Option.isSome_iff_exists.mp (hval a List.mem_cons_self c hx)
      rw [Option.bind_some, hv]

/-- The last write of a field is the last member that it is taken from. -/
lemma lastWritten_eq {α : Type} {field : Effect → Option α} {key : List UInt8}
    {val : Json → Option α} (hfield : ∀ data, field (writes data) =
      (data.bind fun format => getObjectItem format key).bind val)
    (hstops : ∀ b ∈ bs, ∀ f, ¬ Stops intOf b f)
    (hval : ∀ b ∈ bs, ∀ node,
      ((dataOf intOf b).bind fun format => getObjectItem format key) = some node →
        (val node).isSome = true) :
    lastWritten intOf field bs = (lastMember intOf bs key).bind val := by
  refine findSome?_bind (fun b hb => ?_) fun b hb => hval b (List.mem_reverse.mp hb)
  rw [effectOf_eq (hstops b (List.mem_reverse.mp hb)), hfield]

/-- The writes of buffers that do not stop the handler. -/
lemma lastWrites_eq (hstops : ∀ b ∈ bs, ∀ f, ¬ Stops intOf b f) :
    lastWrites intOf bs =
      ⟨bs.any fun b => (dataOf intOf b).isSome, (lastMember intOf bs percentKey).map valueint,
        (lastMember intOf bs resultKey).map valueint,
        (lastMember intOf bs imageIdKey).bind imageName⟩ := by
  have hnumber : ∀ {field : Effect → Option ℤ} {key : List UInt8},
      (∀ data, field (writes data) =
        (data.bind fun format => getObjectItem format key).map valueint) →
      lastWritten intOf field bs = (lastMember intOf bs key).map valueint := by
    intro field key hfield
    rw [Option.map_eq_bind]
    refine lastWritten_eq (fun data => ?_) hstops fun _ _ _ _ => ?_
    · rw [hfield, Option.map_eq_bind]
    · rfl
  apply Effect.ext
  · show (bs.any fun b => (effectOf intOf b).valid) = _
    rw [Bool.eq_iff_iff, List.any_eq_true, List.any_eq_true]
    refine exists_congr fun b => and_congr_right fun hb => ?_
    rw [effectOf_eq (hstops b hb)]
    cases dataOf intOf b <;> rfl
  · exact hnumber fun data => by cases data <;> rfl
  · exact hnumber fun data => by cases data <;> rfl
  · refine lastWritten_eq (fun data => ?_) hstops
      fun b hb node => imageName_of_not_stops (hstops b hb)
    cases data <;> rfl

end Effects

/-! ## When the delivery does not matter -/

section Main
variable (intOf : List UInt8 → ℤ)

/-- Where the whole body stops the handler there is nothing else to compare. -/
lemma saysTheSame_of_stops (bs : List Buffer) {whole : Buffer} {f : Fault}
    (hwhole : Stops intOf whole f) :
    SaysTheSame intOf bs whole ↔ bs.findSome? (faultOf intOf) = some f := by
  have hno : ¬ ∀ g, ¬ Stops intOf whole g := fun h => h f hwhole
  constructor
  · exact fun h => firstStop_iff.mp ((h.stops f).mpr hwhole)
  · intro hbs
    refine ⟨fun g => ?_, (absurd · hno), (absurd · hno), (absurd · hno), (absurd · hno)⟩
    rw [firstStop_iff, hbs, stops_iff_faultOf, stops_iff_faultOf.mp hwhole]

/-- Where it does not, no part may stop it, and the parts have to write what the whole body
writes. -/
lemma saysTheSame_of_not_stops (bs : List Buffer) {whole : Buffer}
    (hwhole : ∀ f, ¬ Stops intOf whole f) :
    SaysTheSame intOf bs whole ↔
      bs.findSome? (faultOf intOf) = none ∧ lastWrites intOf bs = lastWrites intOf [whole] := by
  have hone : ∀ b ∈ [whole], ∀ f, ¬ Stops intOf b f := fun b hb => by
    rw [List.mem_singleton.mp hb]
    exact hwhole
  rw [lastWrites_eq hone]
  constructor
  · intro h
    have hfirst : ∀ f, ¬ FirstStop intOf bs f := fun f hf => hwhole f ((h.stops f).mp hf)
    refine ⟨Option.eq_none_iff_forall_ne_some.mpr fun f hf => hfirst f (firstStop_iff.mpr hf), ?_⟩
    rw [lastWrites_eq (not_stops_of_firstStop hfirst)]
    refine Effect.ext ?_ (h.percent hwhole) (h.result hwhole) (h.imageId hwhole)
    exact Bool.eq_iff_iff.mpr (by simpa using h.data hwhole)
  · rintro ⟨hbs, heq⟩
    have hfirst : ∀ f, ¬ FirstStop intOf bs f := fun f hf => by
      nomatch hbs.symm.trans (firstStop_iff.mp hf)
    rw [lastWrites_eq (not_stops_of_firstStop hfirst), Effect.mk.injEq] at heq
    obtain ⟨hvalid, hpercent, hresult, himgId⟩ := heq
    refine ⟨fun f => iff_of_false (hfirst f) (hwhole f), fun _ => ?_, fun _ => hpercent,
      fun _ => hresult, fun _ => himgId⟩
    simpa using Bool.eq_iff_iff.mp hvalid

/-- The parts say the same if they have the effect of the whole body. -/
lemma saysTheSame_iff (bs : List Buffer) (whole : Buffer) :
    SaysTheSame intOf bs whole ↔ repliesOf intOf bs = repliesOf intOf [whole] := by
  rw [repliesOf_eq, repliesOf_eq, List.findSome?_singleton]
  cases hwhole : faultOf intOf whole with
  | some f =>
    rw [saysTheSame_of_stops intOf bs (stops_iff_faultOf.mpr hwhole)]
    cases bs.findSome? (faultOf intOf) <;> simp
  | none =>
    have hnever : ∀ f, ¬ Stops intOf whole f := fun f hf => by
      nomatch hwhole.symm.trans (stops_iff_faultOf.mp hf)
    rw [saysTheSame_of_not_stops intOf bs hnever]
    cases bs.findSome? (faultOf intOf) <;> simp

/-- Replies that do the same to every state are the same. -/
lemma eq_of_map_act_eq {r r' : Except Fault Effect}
    (h : ∀ s, (r.map fun e => e.act s) = r'.map fun e => e.act s) : r = r' := by
  have hblank := h ⟨⟨[], 0, 0, false, 0⟩, []⟩
  cases r with
  | error f =>
    cases r' with
    | error g => exact congrArg Except.error (Except.error.inj hblank)
    | ok e' => nomatch hblank
  | ok e =>
    cases r' with
    | error g => nomatch hblank
    | ok e' =>
      apply congrArg Except.ok
      apply Effect.eq_of_act_eq
      intro s
      exact Except.ok.inj (h s)

/-- **When the delivery does not matter.** The buffers of a body leave the same report as the body
in one buffer, whatever the report was, exactly when they say the same, each parsed for itself. -/
theorem delivery_irrelevant_iff (bs : List Buffer) (behind : List UInt8) :
    (∀ s, deliver intOf bs s = deliver intOf [wholeBody bs behind] s) ↔
      SaysTheSame intOf bs (wholeBody bs behind) := by
  rw [saysTheSame_iff]
  constructor
  · intro h
    apply eq_of_map_act_eq
    intro s
    rw [← deliver_eq, ← deliver_eq]
    exact h s
  · intro h s
    rw [deliver_eq, deliver_eq, h]

/-- `{"code":0,"data":{"predict_percent":42}}`, split behind `"data"`, with a NUL behind each
buffer: neither part parses, and the report stays invalid. -/
theorem delivery_not_irrelevant :
    ¬ ∀ (bs : List Buffer) (behind : List UInt8) (s : State),
      deliver decimal bs s = deliver decimal [wholeBody bs behind] s := by
  intro h
  have hsplit := h
    [⟨[123, 34] ++ codeKey ++ [34, 58, 48, 44, 34] ++ dataKey ++ [34], [0]⟩,
      ⟨[58, 123, 34] ++ percentKey ++ [34, 58, 52, 50, 125, 125], [0]⟩]
    [0] ⟨⟨[], 0, 0, false, 0⟩, []⟩
  revert hsplit
  decide

/-- A report that is in no part for itself is lost, wherever the body was cut. -/
theorem delivery_matters_of_lost {bs : List Buffer} {behind : List UInt8}
    (hwhole : ∀ f, ¬ Stops intOf (wholeBody bs behind) f)
    (hdata : (dataOf intOf (wholeBody bs behind)).isSome = true)
    (hlost : ∀ b ∈ bs, dataOf intOf b = none) :
    ¬ ∀ s, deliver intOf bs s = deliver intOf [wholeBody bs behind] s := by
  rw [delivery_irrelevant_iff]
  intro h
  obtain ⟨b, hb, hsome⟩ := (h.data hwhole).mpr hdata
  rw [hlost b hb] at hsome
  nomatch hsome

/-! ## The whole reply in the first buffer -/

/-- A reply that lies in its buffer is the same with more bytes and other memory behind it. -/
lemma replyOf_append {b : Buffer} {root : Json} (h : parseReply intOf b.bytes = .ok (some root))
    (bytes behind : List UInt8) :
    replyOf intOf ⟨b.bytes ++ bytes, behind⟩ = replyOf intOf b := by
  have hb : parseReply intOf b.mem = .ok (some root) := parse_append h b.behind
  have hmore : parseReply intOf (Buffer.mem ⟨b.bytes ++ bytes, behind⟩) = .ok (some root) := by
    unfold Buffer.mem
    rw [List.append_assoc]
    exact parse_append h (bytes ++ behind)
  rw [replyOf_some intOf hb, replyOf_some intOf hmore]

/-- A buffer that does not stop the handler and has no data writes nothing. -/
lemma replyOf_of_noData {b : Buffer} (hstops : ∀ f, ¬ Stops intOf b f)
    (hdata : dataOf intOf b = none) : replyOf intOf b = .ok .nothing := by
  have heffect := effectOf_eq hstops
  rw [hdata] at heffect
  unfold effectOf at heffect
  cases hreply : replyOf intOf b with
  | error f => exact absurd (stops_iff.mpr hreply) (hstops f)
  | ok e =>
    rw [hreply] at heffect
    exact congrArg Except.ok heffect

/-- Buffers that write nothing have no effect. -/
lemma repliesOf_nothing {bs : List Buffer} (h : ∀ b ∈ bs, replyOf intOf b = .ok .nothing) :
    repliesOf intOf bs = .ok .nothing := by
  induction bs with
  | nil => rfl
  | cons b bs ih =>
    unfold repliesOf
    rw [h b List.mem_cons_self, ih fun b' hb' => h b' (List.mem_cons_of_mem b hb')]
    rfl

/-- Where the first buffer holds the whole JSON text, and no later one is a success reply with data
or stops the handler, the delivery does not matter. -/
theorem delivery_irrelevant_of_first {b : Buffer} {bs : List Buffer} {root : Json}
    (hfirst : parseReply intOf b.bytes = .ok (some root))
    (hlater : ∀ b' ∈ bs, (∀ f, ¬ Stops intOf b' f) ∧ dataOf intOf b' = none)
    (behind : List UInt8) (s : State) :
    deliver intOf (b :: bs) s = deliver intOf [wholeBody (b :: bs) behind] s := by
  have hwhole : replyOf intOf (wholeBody (b :: bs) behind) = replyOf intOf b :=
    replyOf_append intOf hfirst (bs.flatMap Buffer.bytes) behind
  have hrest : repliesOf intOf bs = .ok .nothing := repliesOf_nothing intOf fun b' hb' =>
    replyOf_of_noData intOf (hlater b' hb').1 (hlater b' hb').2
  have hsame : repliesOf intOf (b :: bs) = repliesOf intOf [wholeBody (b :: bs) behind] := by
    unfold repliesOf
    rw [hwhole, hrest]
    rfl
  rw [deliver_eq, deliver_eq, hsame]

end Main

end IpncRdk.HttpThread
