import IpncRdk.Display.Show
import IpncRdk.Lib.CSemantics

/-!
# `airkissThr.c`: the wait for an address

Once AirKiss has succeeded, `airkissThr` asks thirty times, once a second, for the address of the
interface. `net_get_ifaddr` returns it in network order, which the little-endian target loads with
its last octet on top, and `airkissThr` takes it for an `int`.

* `getIp` — the loop, with what it leads to;
* `AddressConnects` — an address that is assigned in time is a success, and nothing else is;
* `addressConnects_iff` — exactly the waits of which that is true.
-/

namespace IpncRdk.AirkissThr

open Lib
open Display (InAddr)

/-- What `net_get_ifaddr` meets. -/
inductive IfAddr
  /-- `socket` fails -/
  | noSocket
  /-- `ioctl` fails, as the interface has no address -/
  | noAddress
  | address (ip : InAddr)
  deriving DecidableEq, Repr

/-- `sin_addr.s_addr` as the target loads it. -/
def sAddr (ip : InAddr) : ℤ :=
  ip.a.toNat + ip.b.toNat * 2 ^ 8 + ip.c.toNat * 2 ^ 16 + ip.d.toNat * 2 ^ 24

/-- `net_get_ifaddr`, an unsigned number of 32 bits. -/
def netGetIfaddr : IfAddr → ℤ
  | .noSocket => 2 ^ 32 - 1
  | .noAddress => 0
  | .address ip => sAddr ip

/-- What the loop does. -/
inductive Effect
  | getIpText (timeout : ℕ)
  | connectOkText
  /-- `airkiss_replayRandom`: the number that the phone waits for is broadcast -/
  | replayRandom (random : UInt8)
  /-- `start_led` of the success branch, and of the timeout branch -/
  | successLed
  | timeoutLed
  deriving DecidableEq, Repr

/-- What an effect draws. -/
def Effect.draws : Effect → List Display.Write
  | .getIpText timeout => Display.countdownText (Display.getIpText timeout)
  | .connectOkText => Display.countdownText Display.connectOkText
  | _ => []

/-- The loop, with `timeout` seconds left; `net` tells what each poll meets. -/
def getIp (random : UInt8) (net : ℕ → IfAddr) : ℕ → List Effect
  | 0 => []
  | timeout + 1 =>
    .getIpText (timeout + 1) ::
      if 0 < wrap32 (netGetIfaddr (net (timeout + 1))) then
        [.connectOkText, .replayRandom random, .successLed]
      else if timeout = 0 then [.timeoutLed]
      else getIp random net timeout

/-! ## The property -/

def InAddr.any : InAddr := ⟨0, 0, 0, 0⟩

def InAddr.broadcast : InAddr := ⟨255, 255, 255, 255⟩

/-- The interface has an address. -/
def Assigned (r : IfAddr) : Prop := ∃ ip, r = .address ip ∧ ip ≠ InAddr.any ∧ ip ≠ InAddr.broadcast

/-- An address that is assigned in one of the thirty polls leads to the broadcast, and the wait
times out exactly if there is none. -/
structure AddressConnects (random : UInt8) (net : ℕ → IfAddr) : Prop where
  connects : ∀ timeout, 1 ≤ timeout → timeout ≤ 30 → Assigned (net timeout) →
    .replayRandom random ∈ getIp random net 30
  timesOut : .timeoutLed ∈ getIp random net 30 ↔
    ∀ timeout, 1 ≤ timeout → timeout ≤ 30 → ¬ Assigned (net timeout)

/-- The interface has an address whose last octet is below 128. -/
def LowAddress (r : IfAddr) : Prop := ∃ ip, r = .address ip ∧ ip ≠ InAddr.any ∧ ip.d < 128

/-! ## The sign of an address -/

section Sign
variable {ip : InAddr} {r : IfAddr}

lemma sAddr_bounds (ip : InAddr) : 0 ≤ sAddr ip ∧ sAddr ip < 2 ^ 32 := by
  have ha := ip.a.toNat_lt
  have hb := ip.b.toNat_lt
  have hc := ip.c.toNat_lt
  have hd := ip.d.toNat_lt
  unfold sAddr
  omega

/-- The last octet decides about the sign. -/
lemma sAddr_lt_iff : sAddr ip < 2 ^ 31 ↔ ip.d < 128 := by
  have ha := ip.a.toNat_lt
  have hb := ip.b.toNat_lt
  have hc := ip.c.toNat_lt
  have hoctet : (128 : UInt8).toNat = 128 := rfl
  rw [UInt8.lt_iff_toNat_lt, hoctet]
  unfold sAddr
  omega

lemma sAddr_eq_zero_iff : sAddr ip = 0 ↔ ip = InAddr.any := by
  constructor
  · intro h
    unfold sAddr at h
    have ha : ip.a = 0 := UInt8.toNat_inj.mp (show ip.a.toNat = 0 by omega)
    have hb : ip.b = 0 := UInt8.toNat_inj.mp (show ip.b.toNat = 0 by omega)
    have hc : ip.c = 0 := UInt8.toNat_inj.mp (show ip.c.toNat = 0 by omega)
    have hd : ip.d = 0 := UInt8.toNat_inj.mp (show ip.d.toNat = 0 by omega)
    obtain ⟨a, b, c, d⟩ := ip
    dsimp only at ha hb hc hd
    rw [ha, hb, hc, hd]
    rfl
  · rintro rfl
    rfl

/-- The polls that the loop takes for a success. -/
lemma netGetIfaddr_pos_iff : 0 < wrap32 (netGetIfaddr r) ↔ LowAddress r := by
  unfold LowAddress
  cases r with
  | noSocket => exact iff_of_false (by decide) (by rintro ⟨ip, h, -⟩; cases h)
  | noAddress => exact iff_of_false (by decide) (by rintro ⟨ip, h, -⟩; cases h)
  | address ip =>
    have hpos : (∃ ip', IfAddr.address ip = .address ip' ∧ ip' ≠ InAddr.any ∧ ip'.d < 128) ↔
        ip ≠ InAddr.any ∧ ip.d < 128 := by
      constructor
      · rintro ⟨ip', h, hne, hlow⟩
        obtain rfl := IfAddr.address.inj h
        exact ⟨hne, hlow⟩
      · intro h
        exact ⟨ip, rfl, h⟩
    have hzero : ¬ sAddr ip = 0 ↔ ¬ ip = InAddr.any := sAddr_eq_zero_iff.not
    obtain ⟨hlo, hhi⟩ := sAddr_bounds ip
    rw [hpos, ← sAddr_lt_iff, Ne, ← hzero]
    show 0 < wrap32 (sAddr ip) ↔ _
    rcases lt_or_ge (sAddr ip) (2 ^ 31) with hlow | hhigh
    · rw [wrap32_of_bounds (by omega) hlow]
      omega
    · have hneg := wrap32_of_overflow hhigh hhi
      omega

lemma LowAddress.assigned (h : LowAddress r) : Assigned r := by
  obtain ⟨ip, rfl, hne, hlow⟩ := h
  refine ⟨ip, rfl, hne, ?_⟩
  rintro rfl
  exact absurd hlow (by decide)

end Sign

/-! ## The loop -/

section Loop
variable {random : UInt8} {net : ℕ → IfAddr}

/-- What the loop draws is the countdown as the display knows it. -/
lemma getIp_draws (random : UInt8) (net : ℕ → IfAddr) (timeout : ℕ) :
    (getIp random net timeout).flatMap Effect.draws =
      Display.getIpLoop (fun n => 0 < wrap32 (netGetIfaddr (net n))) timeout := by
  induction timeout with
  | zero => rfl
  | succ timeout ih =>
    unfold getIp Display.getIpLoop
    rw [List.flatMap_cons, ← ih]
    by_cases hlow : 0 < wrap32 (netGetIfaddr (net (timeout + 1)))
    · simp [hlow, Effect.draws]
    · cases timeout with
      | zero => simp [hlow, getIp, Effect.draws]
      | succ timeout => simp [hlow, Effect.draws]

/-- The loop ends in its success branch if one of the polls is taken for a success. -/
lemma replayRandom_mem_iff (timeout : ℕ) : .replayRandom random ∈ getIp random net timeout ↔
    ∃ n, 1 ≤ n ∧ n ≤ timeout ∧ LowAddress (net n) := by
  induction timeout with
  | zero => exact iff_of_false List.not_mem_nil (by rintro ⟨n, hlo, hhi, -⟩; omega)
  | succ timeout ih =>
    unfold getIp
    rw [List.mem_cons, or_iff_right (by simp)]
    by_cases hlow : LowAddress (net (timeout + 1))
    · rw [if_pos (netGetIfaddr_pos_iff.mpr hlow)]
      exact iff_of_true (by simp) ⟨timeout + 1, by omega, le_refl _, hlow⟩
    · have hlater : (∃ n, 1 ≤ n ∧ n ≤ timeout + 1 ∧ LowAddress (net n)) ↔
          ∃ n, 1 ≤ n ∧ n ≤ timeout ∧ LowAddress (net n) := by
        constructor
        · rintro ⟨n, hlo, hhi, h⟩
          have hne : n ≠ timeout + 1 := by
            rintro rfl
            exact hlow h
          exact ⟨n, hlo, by omega, h⟩
        · rintro ⟨n, hlo, hhi, h⟩
          exact ⟨n, hlo, by omega, h⟩
      rw [if_neg (netGetIfaddr_pos_iff.not.mpr hlow), hlater]
      by_cases hzero : timeout = 0
      · rw [if_pos hzero]
        exact iff_of_false (by simp) (by rintro ⟨n, hlo, hhi, -⟩; omega)
      · rw [if_neg hzero, ih]

/-- Otherwise it ends in its timeout branch. -/
lemma timeoutLed_mem_iff {timeout : ℕ} (hpos : 1 ≤ timeout) :
    .timeoutLed ∈ getIp random net timeout ↔
      .replayRandom random ∉ getIp random net timeout := by
  induction timeout with
  | zero => omega
  | succ timeout ih =>
    unfold getIp
    rw [List.mem_cons, or_iff_right (by simp), List.mem_cons, or_iff_right (by simp)]
    split_ifs with hlow hzero
    · simp
    · simp
    · exact ih (by omega)

/-- **Exactly when every assigned address counts.** For every wait: no address is assigned in any of
the thirty polls, or one of the addresses ends in an octet below 128. -/
theorem addressConnects_iff (random : UInt8) (net : ℕ → IfAddr) : AddressConnects random net ↔
    (∀ timeout, 1 ≤ timeout → timeout ≤ 30 → ¬ Assigned (net timeout)) ∨
      ∃ timeout, 1 ≤ timeout ∧ timeout ≤ 30 ∧ LowAddress (net timeout) := by
  have htimes : .timeoutLed ∈ getIp random net 30 ↔ .replayRandom random ∉ getIp random net 30 :=
    timeoutLed_mem_iff (by decide)
  rw [replayRandom_mem_iff] at htimes
  constructor
  · rintro ⟨hconnects, -⟩
    by_cases hnone : ∀ timeout, 1 ≤ timeout → timeout ≤ 30 → ¬ Assigned (net timeout)
    · exact Or.inl hnone
    · push Not at hnone
      obtain ⟨timeout, hlo, hhi, hassigned⟩ := hnone
      exact Or.inr ((replayRandom_mem_iff 30).mp (hconnects timeout hlo hhi hassigned))
  · rintro (hnone | hlow)
    · refine ⟨fun timeout hlo hhi h => absurd h (hnone timeout hlo hhi), ?_⟩
      refine iff_of_true (htimes.mpr ?_) hnone
      rintro ⟨n, hlo, hhi, h⟩
      exact hnone n hlo hhi h.assigned
    · refine ⟨fun _ _ _ _ => (replayRandom_mem_iff 30).mpr hlow, ?_⟩
      refine iff_of_false (fun h => htimes.mp h hlow) fun hnone => ?_
      obtain ⟨n, hlo, hhi, h⟩ := hlow
      exact hnone n hlo hhi h.assigned

/-- The address 192.168.1.200 is there from the first poll on. -/
theorem highAddress_not_connects :
    ¬ AddressConnects 7 fun _ => .address ⟨192, 168, 1, 200⟩ := by
  intro h
  have hassigned : Assigned (.address ⟨192, 168, 1, 200⟩) := ⟨_, rfl, by decide, by decide⟩
  have hmem := h.connects 30 (by decide) (by decide) hassigned
  obtain ⟨n, -, -, ip, heq, -, hlow⟩ := (replayRandom_mem_iff 30).mp hmem
  obtain rfl := IfAddr.address.inj heq
  exact absurd hlow (by decide)

end Loop

end IpncRdk.AirkissThr
