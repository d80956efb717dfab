import IpncRdk.Display.Show
import IpncRdk.PingHost.Checksum

/-!
# `pinghost.c`: the probe of the server

`isLive` sends an echo request and waits for a raw socket to become readable. Such a socket gets
every ICMP packet of the host, and the packet that has come is read but not looked at.

* `Probe` — what the function meets: its calls, and the packets that arrive;
* `isLive` — the function;
* `Sound` — it returns `True` only with a reply to its request;
* `isLive_sound_iff` — exactly the traffic for which that is true.
-/

namespace IpncRdk.PingHost

open Display (InAddr)

/-! ## The traffic -/

/-- The fields of the request before its checksum, on the little-endian target: type 8, code 0,
identifier 0 and sequence number 1. -/
def requestHeader : List UInt8 := [8, 0, 0, 0, 0, 0, 1, 0]

/-- The echo request; its data is what the 56 bytes behind the header hold. -/
def echoRequest (data : List UInt8) : List UInt8 :=
  store (calChksum (requestHeader ++ data)) (requestHeader ++ data)

/-- A packet as the raw socket gets it: its source, and the ICMP message. -/
structure Packet where
  source : InAddr
  message : List UInt8
  deriving DecidableEq, Repr

/-- Identifier and sequence number of a message. -/
def identity (message : List UInt8) : List UInt8 := (message.drop 4).take 4

/-- A packet, and when it arrives, in microseconds since the socket was made. -/
structure Arrival where
  time : ℕ
  packet : Packet
  deriving DecidableEq, Repr

/-- What `isLive` meets: whether its calls succeed, the address of `hostname`, when it calls
`select`, and the packets that arrive. -/
structure Probe where
  socket : Bool
  /-- `setsockopt`, which is not called without an interface -/
  bind : Option Bool
  sendto : Bool
  selects : Bool
  hostname : InAddr
  data : List UInt8
  selectAt : ℕ
  arrivals : List Arrival

/-- Five seconds. -/
abbrev selectTimeout : ℕ := 5000000

/-- When `select` finds the socket readable, if it does within its timeout. -/
def wakeUp (p : Probe) : Option ℕ :=
  (((p.arrivals.map Arrival.time).filter fun t => t ≤ p.selectAt + selectTimeout).min?).map
    (max p.selectAt)

/-- The packets that the socket has got by then. -/
def received (p : Probe) : List Packet :=
  match wakeUp p with
  | none => []
  | some t => (p.arrivals.filter fun a => a.time ≤ t).map Arrival.packet

/-- `isLive` -/
def isLive (p : Probe) : Bool :=
  if !p.socket then false
  else if p.bind = some false then false
  else if !p.sendto then false
  else if !p.selects then false
  else if (wakeUp p).isNone then false
  -- `recvfrom` takes a packet, and nothing is done with it
  else true

/-- An echo reply (type 0) to the request of a probe. -/
def EchoReply (p : Probe) (packet : Packet) : Prop :=
  packet.source = p.hostname ∧ packet.message.head? = some 0 ∧
    identity packet.message = identity (echoRequest p.data)

/-- `True` is returned only if a reply has been received. -/
def Sound (p : Probe) : Prop := isLive p = true → ∃ packet ∈ received p, EchoReply p packet

/-- All calls succeed. -/
structure Waits (p : Probe) : Prop where
  socket : p.socket = true
  bind : p.bind ≠ some false
  sendto : p.sendto = true
  selects : p.selects = true

/-- No packet arrives in time. -/
def Silent (p : Probe) : Prop := ∀ a ∈ p.arrivals, p.selectAt + selectTimeout < a.time

/-- A reply arrives in time, before `select` is called or no later than any other packet. -/
def AnsweredFirst (p : Probe) : Prop :=
  ∃ a ∈ p.arrivals, EchoReply p a.packet ∧ a.time ≤ p.selectAt + selectTimeout ∧
    (a.time ≤ p.selectAt ∨ ∀ b ∈ p.arrivals, a.time ≤ b.time)

/-! ## The request -/

section Request
variable {p : Probe}

/-- The request carries its checksum. -/
lemma calChksum_echoRequest {data : List UInt8} (h : data.length = 56) :
    calChksum (echoRequest data) = 0 := by
  have hlen : (requestHeader ++ data).length ≤ 65536 := by
    rw [List.length_append, h]
    decide
  exact calChksum_store hlen rfl rfl

/-- The checksum does not reach the fields that a reply repeats. -/
lemma identity_echoRequest (data : List UInt8) : identity (echoRequest data) = [0, 0, 1, 0] := rfl

/-! ## The wait -/

lemma isLive_iff : isLive p = true ↔ Waits p ∧ (wakeUp p).isSome = true := by
  unfold isLive
  constructor
  · intro h
    split_ifs at h with hsocket hbind hsendto hselects hwake
    refine ⟨⟨by simpa using hsocket, hbind, by simpa using hsendto, by simpa using hselects⟩, ?_⟩
    rwa [Bool.not_eq_true, Option.isNone_eq_false_iff] at hwake
  · rintro ⟨⟨hsocket, hbind, hsendto, hselects⟩, hwake⟩
    simp [hsocket, hbind, hsendto, hselects, Option.isNone_iff_eq_none,
      Option.ne_none_iff_isSome.mpr hwake]

/-- The first packet wakes the function up. -/
lemma wakeUp_eq_some_iff {t : ℕ} : wakeUp p = some t ↔
    ∃ a ∈ p.arrivals, a.time ≤ p.selectAt + selectTimeout ∧ t = max p.selectAt a.time ∧
      ∀ b ∈ p.arrivals, a.time ≤ b.time := by
  unfold wakeUp
  rw [Option.map_eq_some_iff]
  simp only [List.min?_eq_some_iff, List.mem_filter, List.mem_map, decide_eq_true_eq]
  constructor
  · rintro ⟨_, ⟨⟨⟨a, ha, rfl⟩, hintime⟩, hmin⟩, rfl⟩
    refine ⟨a, ha, hintime, rfl, fun b hb => ?_⟩
    rcases Nat.lt_or_ge (p.selectAt + selectTimeout) b.time with hlate | hearly
    · omega
    · exact hmin b.time ⟨⟨b, hb, rfl⟩, hearly⟩
  · rintro ⟨a, ha, hintime, rfl, hmin⟩
    refine ⟨a.time, ⟨⟨⟨a, ha, rfl⟩, hintime⟩, ?_⟩, rfl⟩
    rintro _ ⟨⟨b, hb, rfl⟩, -⟩
    exact hmin b hb

lemma wakeUp_eq_none_iff : wakeUp p = none ↔ Silent p := by
  unfold wakeUp Silent
  simp only [Option.map_eq_none_iff, List.min?_eq_none_iff, List.filter_eq_nil_iff, List.mem_map,
    decide_eq_true_eq, Nat.not_le, forall_exists_index, and_imp, forall_apply_eq_imp_iff₂]

/-- A packet has been received if it came by the time of the first one. -/
lemma mem_received_iff {packet : Packet} {t : ℕ} (ht : wakeUp p = some t) :
    packet ∈ received p ↔ ∃ a ∈ p.arrivals, a.time ≤ t ∧ a.packet = packet := by
  unfold received
  rw [ht]
  simp only [List.mem_map, List.mem_filter, decide_eq_true_eq, and_assoc]

/-- **Exactly when the probe can be believed.** For every traffic: one of its calls fails, or no
packet arrives in time, or a reply to the request is among the packets that have arrived when the
function wakes up. -/
theorem isLive_sound_iff (p : Probe) : Sound p ↔ ¬ Waits p ∨ Silent p ∨ AnsweredFirst p := by
  unfold Sound
  rw [isLive_iff]
  by_cases hwaits : Waits p
  · rw [or_iff_right (not_not_intro hwaits), and_iff_right hwaits]
    cases ht : wakeUp p with
    | none => exact iff_of_true (fun h => by cases h) (Or.inl (wakeUp_eq_none_iff.mp ht))
    | some t =>
      have hnoise : ¬ Silent p := fun hsilent =>
        Option.some_ne_none t (ht.symm.trans (wakeUp_eq_none_iff.mpr hsilent))
      obtain ⟨first, hfirst, hintime, hwake, hmin⟩ := wakeUp_eq_some_iff.mp ht
      rw [or_iff_right hnoise, Option.isSome_some, forall_prop_of_true rfl]
      constructor
      · rintro ⟨packet, hpacket, hreply⟩
        obtain ⟨a, ha, harrived, rfl⟩ := (mem_received_iff ht).mp hpacket
        refine ⟨a, ha, hreply, by omega, ?_⟩
        rcases Nat.lt_or_ge p.selectAt a.time with hlater | hbefore
        · -- it did not come before the call, so it came with the first packet
          exact Or.inr fun b hb => by
            have hfirstb := hmin b hb
            omega
        · exact Or.inl hbefore
      · rintro ⟨a, ha, hreply, -, hearly⟩
        refine ⟨a.packet, (mem_received_iff ht).mpr ⟨a, ha, ?_, rfl⟩, hreply⟩
        rcases hearly with hbefore | hleast
        · omega
        · have hfirsta := hleast first hfirst
          omega
  · exact iff_of_true (fun h => absurd h.1 hwaits) (Or.inl hwaits)

/-- A router reports that the server cannot be reached. -/
def unreachable : Probe where
  socket := true
  bind := some true
  sendto := true
  selects := true
  hostname := ⟨139, 129, 90, 163⟩
  data := List.replicate 56 0
  selectAt := 0
  arrivals := [⟨2000, ⟨⟨192, 168, 1, 1⟩, [3, 1, 0, 0, 0, 0, 0, 0]⟩⟩]

theorem unreachable_not_sound : ¬ Sound unreachable := by
  intro h
  obtain ⟨packet, hpacket, hsource, -⟩ := h rfl
  have hreceived : received unreachable = [⟨⟨192, 168, 1, 1⟩, [3, 1, 0, 0, 0, 0, 0, 0]⟩] := rfl
  rw [hreceived, List.mem_singleton] at hpacket
  rw [hpacket] at hsource
  exact absurd hsource (by decide)

end Request

end IpncRdk.PingHost
