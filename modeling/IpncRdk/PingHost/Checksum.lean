import IpncRdk.Lib.CSemantics
import IpncRdk.Lib.OnesComplement

/-!
# `pinghost.c`: the Internet checksum

`cal_chksum` adds the 16-bit words of a packet, which the little-endian target loads with their
first byte low, in an `int`, folds the carries in twice, and returns the complement.

* `calChksum` — the function;
* `rfc1071` — the checksum as the protocol has it, in network order, with an end-around carry in
  every addition;
* `Checksummed` — what the function should be for a packet;
* `checksummed` — it is, for every packet of up to 65536 bytes.
-/

namespace IpncRdk.PingHost

open Lib OnesComplement

/-! ## The function -/

/-- The loop over the words, and the odd byte at the end. -/
def sumWords : List UInt8 → ℤ → ℤ
  | a :: b :: rest, sum => sumWords rest (wrap32 (sum + (a.toNat + b.toNat * 2 ^ 8 : ℕ)))
  | [a], sum => wrap32 (sum + a.toNat)
  | [], sum => sum

/-- `(sum >> 16) + (sum & 0xffff)` -/
def foldHigh (sum : ℤ) : ℤ := wrap32 (sum / 2 ^ 16 + sum % 2 ^ 16)

/-- `sum += (sum >> 16)` -/
def addHigh (sum : ℤ) : ℤ := wrap32 (sum + sum / 2 ^ 16)

/-- `cal_chksum`; `~sum` is stored in 16 bits. -/
def calChksum (packet : List UInt8) : ℕ :=
  ((-addHigh (foldHigh (sumWords packet 0)) - 1) % 2 ^ 16).toNat

/-! ## The checksum of the protocol -/

/-- The words of a packet as the target loads them. -/
def words : List UInt8 → List ℕ
  | a :: b :: rest => (a.toNat + b.toNat * 2 ^ 8) :: words rest
  | [a] => [a.toNat]
  | [] => []

/-- The words of a packet in network order; an odd byte is followed by a zero. -/
def netWords : List UInt8 → List ℕ
  | a :: b :: rest => (a.toNat * 2 ^ 8 + b.toNat) :: netWords rest
  | [a] => [a.toNat * 2 ^ 8]
  | [] => []

/-- The complement of the one's complement sum of the words. -/
def rfc1071 (packet : List UInt8) : ℕ := 65535 - onesSum 65535 (netWords packet)

/-- The packet with a checksum stored in its bytes 2 and 3. -/
def store (chksum : ℕ) (packet : List UInt8) : List UInt8 :=
  (packet.set 2 (UInt8.ofNat (chksum % 2 ^ 8))).set 3 (UInt8.ofNat (chksum / 2 ^ 8))

/-- The function on a packet. -/
structure Checksummed (packet : List UInt8) : Prop where
  /-- in every prefix the accumulator holds the sum of the words -/
  accumulates : ∀ n, sumWords (packet.take n) 0 = (words (packet.take n)).sum ∧
    (words (packet.take n)).sum < 2 ^ 31
  /-- after the two folds the low word is the sum with all its carries -/
  folds : addHigh (foldHigh (sumWords packet 0)) % 2 ^ 16 = onesSum 65535 (words packet)
  /-- the bytes that are stored are those of the checksum in network order -/
  rfc : swap (2 ^ 8) (calChksum packet) = rfc1071 packet
  /-- the packet that carries it verifies -/
  verifies : calChksum (store (calChksum packet) packet) = 0

/-! ## Words -/

section Words
variable {packet : List UInt8}

lemma words_le (packet : List UInt8) : ∀ w ∈ words packet, w ≤ 65535 := by
  induction packet using words.induct with
  | case1 a b rest ih =>
    have ha := a.toNat_lt
    have hb := b.toNat_lt
    rw [words, List.forall_mem_cons]
    exact ⟨by omega, ih⟩
  | case2 a =>
    have ha := a.toNat_lt
    rw [words, List.forall_mem_cons]
    exact ⟨by omega, List.forall_mem_nil _⟩
  | case3 => exact List.forall_mem_nil _

/-- In network order the bytes of every word are exchanged. -/
lemma netWords_eq (packet : List UInt8) : netWords packet = (words packet).map (swap (2 ^ 8)) := by
  induction packet using words.induct with
  | case1 a b rest ih =>
    have ha := a.toNat_lt
    have hword : swap (2 ^ 8) (a.toNat + b.toNat * 2 ^ 8) = a.toNat * 2 ^ 8 + b.toNat := by
      unfold swap
      omega
    rw [netWords, words, List.map_cons, hword, ih]
  | case2 a =>
    have ha := a.toNat_lt
    have hword : swap (2 ^ 8) a.toNat = a.toNat * 2 ^ 8 := by
      unfold swap
      omega
    rw [netWords, words, List.map_singleton, hword]
  | case3 => rfl

/-- A packet of `n` bytes has half as many words. -/
lemma sum_words_le (packet : List UInt8) :
    (words packet).sum ≤ (packet.length + 1) / 2 * 65535 := by
  induction packet using words.induct with
  | case1 a b rest ih =>
    have ha := a.toNat_lt
    have hb := b.toNat_lt
    have hlen : (rest.length + 1 + 1 + 1) / 2 = (rest.length + 1) / 2 + 1 := by omega
    rw [words, List.sum_cons, List.length_cons, List.length_cons, hlen, Nat.succ_mul]
    omega
  | case2 a =>
    have ha := a.toNat_lt
    rw [words, List.sum_singleton, List.length_singleton]
    omega
  | case3 => exact Nat.zero_le _

lemma sum_words_lt (h : packet.length ≤ 65536) : (words packet).sum < 2 ^ 31 := by
  have hsum := sum_words_le packet
  have hhalf : (packet.length + 1) / 2 ≤ 32768 := by omega
  have hmul : (packet.length + 1) / 2 * 65535 ≤ 32768 * 65535 := Nat.mul_le_mul_right _ hhalf
  omega

/-- Where the sum stays below `2 ^ 31`, the loop computes it. -/
lemma sumWords_eq (packet : List UInt8) (sum : ℕ) (h : sum + (words packet).sum < 2 ^ 31) :
    sumWords packet sum = (sum + (words packet).sum : ℕ) := by
  induction packet using words.induct generalizing sum with
  | case1 a b rest ih =>
    rw [words, List.sum_cons, ← Nat.add_assoc] at h ⊢
    have hwrap : wrap32 ((sum : ℤ) + (a.toNat + b.toNat * 2 ^ 8 : ℕ)) =
        (sum + (a.toNat + b.toNat * 2 ^ 8) : ℕ) := by
      rw [← Nat.cast_add]
      exact wrap32_of_bounds (by omega) (by omega)
    rw [sumWords, hwrap]
    exact ih _ h
  | case2 a =>
    rw [words, List.sum_singleton] at h ⊢
    rw [sumWords, Nat.cast_add]
    exact wrap32_of_bounds (by omega) (by omega)
  | case3 => rfl

end Words

/-! ## The folds -/

section Folds
variable {packet : List UInt8}

/-- Two folds make the one's complement sum of every sum that an `int` holds. -/
lemma addHigh_foldHigh {sum : ℕ} (h : sum < 2 ^ 31) :
    addHigh (foldHigh sum) % 2 ^ 16 = rep 65535 sum := by
  have hfold : foldHigh sum = (sum / (65535 + 1) + sum % (65535 + 1) : ℕ) := by
    unfold foldHigh
    rw [wrap32_of_bounds (by omega) (by omega)]
    omega
  have hle : sum / (65535 + 1) + sum % (65535 + 1) ≤ 2 * 65535 := fold_le (by omega)
  have hcarry := rep_carry hle
  rw [rep_fold] at hcarry
  rw [hfold, ← hcarry]
  generalize sum / (65535 + 1) + sum % (65535 + 1) = t at hle
  unfold addHigh
  rw [wrap32_of_bounds (by omega) (by omega)]
  omega

/-- The function, by the sum of the words. -/
lemma calChksum_eq (h : packet.length ≤ 65536) :
    calChksum packet = 65535 - rep 65535 (words packet).sum := by
  have hlt := sum_words_lt h
  have hsum := sumWords_eq packet 0 (by omega)
  rw [Nat.zero_add, Nat.cast_zero] at hsum
  have hfold := addHigh_foldHigh hlt
  have hle := rep_le (m := 65535) (by decide) (words packet).sum
  unfold calChksum
  rw [hsum]
  omega

lemma onesSum_words (packet : List UInt8) :
    onesSum 65535 (words packet) = rep 65535 (words packet).sum :=
  onesSum_eq (by decide) (words_le packet)

/-- The complement is exchanged digit by digit. -/
lemma swap_complement {v : ℕ} (hv : v ≤ 65535) :
    swap (2 ^ 8) (65535 - v) = 65535 - swap (2 ^ 8) v := by
  unfold swap
  omega

/-- The sum in network order is the sum of the loaded words with its bytes exchanged. -/
lemma onesSum_netWords (packet : List UInt8) :
    onesSum 65535 (netWords packet) = swap (2 ^ 8) (onesSum 65535 (words packet)) := by
  rw [netWords_eq]
  exact onesSum_map_swap (b := 2 ^ 8) (by decide) fun w hw =>
    Nat.lt_succ_of_le (words_le packet w hw)

end Folds

/-! ## The packet with its checksum -/

section Store
variable {packet : List UInt8}

/-- A checksum stored over a zero is added to the sum. -/
lemma sum_words_store {chksum : ℕ} (hchksum : chksum < 2 ^ 16) (h₂ : packet[2]? = some 0)
    (h₃ : packet[3]? = some 0) :
    (words (store chksum packet)).sum = (words packet).sum + chksum := by
  obtain ⟨a, b, c, d, rest, rfl⟩ : ∃ a b c d rest, packet = a :: b :: c :: d :: rest := by
    rcases packet with _ | ⟨a, _ | ⟨b, _ | ⟨c, _ | ⟨d, rest⟩⟩⟩⟩
    · cases h₃
    · cases h₃
    · cases h₃
    · cases h₃
    · exact ⟨a, b, c, d, rest, rfl⟩
  obtain rfl : c = 0 := Option.some.inj h₂
  obtain rfl : d = 0 := Option.some.inj h₃
  have hlow : (UInt8.ofNat (chksum % 2 ^ 8)).toNat = chksum % 2 ^ 8 := by
    rw [UInt8.toNat_ofNat']
    omega
  have hhigh : (UInt8.ofNat (chksum / 2 ^ 8)).toNat = chksum / 2 ^ 8 := by
    rw [UInt8.toNat_ofNat']
    omega
  have hzero : (0 : UInt8).toNat = 0 := rfl
  show (words (a :: b :: UInt8.ofNat (chksum % 2 ^ 8) :: UInt8.ofNat (chksum / 2 ^ 8) :: rest)).sum
    = (words (a :: b :: 0 :: 0 :: rest)).sum + chksum
  simp only [words, List.sum_cons, hlow, hhigh, hzero]
  omega

lemma length_store (chksum : ℕ) (packet : List UInt8) :
    (store chksum packet).length = packet.length := by
  unfold store
  rw [List.length_set, List.length_set]

/-- A packet that carries its checksum verifies. -/
lemma calChksum_store (h : packet.length ≤ 65536) (h₂ : packet[2]? = some 0)
    (h₃ : packet[3]? = some 0) : calChksum (store (calChksum packet) packet) = 0 := by
  have hchksum := calChksum_eq h
  have hsmall : calChksum packet < 2 ^ 16 := by omega
  rw [calChksum_eq ((length_store _ packet).trans_le h), sum_words_store hsmall h₂ h₃, hchksum,
    rep_add_complement (by decide)]

/-- **The function computes the Internet checksum.** For every packet of up to 65536 bytes, with an
even or an odd number of them, whose checksum is still zero. -/
theorem checksummed (packet : List UInt8) (h : packet.length ≤ 65536)
    (h₂ : packet[2]? = some 0) (h₃ : packet[3]? = some 0) : Checksummed packet := by
  have hle := rep_le (m := 65535) (by decide) (words packet).sum
  have hlt := sum_words_lt h
  have hsum := sumWords_eq packet 0 (by omega)
  rw [Nat.zero_add, Nat.cast_zero] at hsum
  refine ⟨fun n => ?_, ?_, ?_, calChksum_store h h₂ h₃⟩
  · have hprefix : (packet.take n).length ≤ 65536 := (List.length_take_le' n packet).trans h
    have hbound := sum_words_lt hprefix
    have haccumulated := sumWords_eq (packet.take n) 0 (by omega)
    rw [Nat.zero_add, Nat.cast_zero] at haccumulated
    exact ⟨haccumulated, hbound⟩
  · rw [hsum, addHigh_foldHigh hlt, onesSum_words]
  · rw [calChksum_eq h, swap_complement hle, rfc1071, onesSum_netWords, onesSum_words]

/-- The first bytes of an echo request. -/
theorem echoRequest_checksummed : Checksummed [8, 0, 0, 0, 0, 0, 1, 0] :=
  checksummed [8, 0, 0, 0, 0, 0, 1, 0] (by decide) rfl rfl

end Store

end IpncRdk.PingHost
