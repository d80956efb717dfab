import IpncRdk.SysCfg.GetTheorems

/-!
# The buffer that a value is stored in

`GetStringContentValue` gets a buffer and its length. A value of at least that length fills the
buffer, and the NUL that is stored behind the loop lies one byte behind it.

* `storeValue_overrun` — the value that does not fit;
* `staysInside_iff` — exactly when the buffer is not overrun.
-/

namespace IpncRdk.SysCfg

open Lib

section Copy
variable {outputLen : ℕ}

lemma put_of_lt {area : List UInt8} {i : ℕ} (h : i < area.length) (b : UInt8) :
    put area i b = .ok (area.set i b) := if_pos h

/-- A value that is too long is copied until the buffer is full. -/
lemma copyValue_filled (text copied rest : List UInt8)
    (hlen : copied.length + rest.length = outputLen) (hroom : rest ≠ [])
    (hlong : outputLen ≤ copied.length + (upToEnd text).length) :
    ∃ area, copyValue outputLen text true copied.length (copied ++ rest)
      = .ok (outputLen, area) ∧ area.length = outputLen := by
  have hpos := List.length_pos_of_ne_nil hroom
  induction text generalizing copied rest with
  | nil =>
    have hnil : (upToEnd []).length = 0 := rfl
    omega
  | cons b text ih =>
    rw [upToEnd_cons] at hlong
    rw [copyValue, if_neg (by simp)]
    by_cases hend : endsValue b = true
    · rw [if_pos hend, List.length_nil] at hlong
      omega
    · rw [if_neg hend, List.length_cons] at hlong
      rw [if_neg hend]
      obtain ⟨c, rest, rfl⟩ : ∃ c rest', rest = c :: rest' := List.exists_cons_of_ne_nil hroom
      rw [List.length_cons] at hlen
      rw [put_append]
      show ∃ area, (if copied.length + 1 = outputLen then _ else _) = _ ∧ _
      by_cases hfull : copied.length + 1 = outputLen
      · -- the last byte of the buffer becomes a NUL
        have hlast : outputLen - 1 < (copied ++ b :: rest).length := by
          simp only [List.length_append, List.length_cons]
          omega
        rw [if_pos hfull, put_of_lt hlast, hfull]
        refine ⟨_, rfl, ?_⟩
        simp only [List.length_set, List.length_append, List.length_cons]
        omega
      · have hcopied : (copied ++ [b]).length = copied.length + 1 := by simp
        have hnext := ih (copied ++ [b]) rest (by rw [hcopied]; omega)
          (List.ne_nil_of_length_pos (by omega)) (by rw [hcopied]; omega) (by omega)
        rw [hcopied, List.append_assoc, List.singleton_append] at hnext
        rw [if_neg hfull]
        exact hnext

/-- Behind a full buffer one more byte is stored. -/
lemma storeValue_overrun {text output : List UInt8} (hne : output ≠ [])
    (hlong : output.length ≤ (valueOf text).length) :
    storeValue output.length text output = .error .outOfBounds := by
  have hpos := List.length_pos_of_ne_nil hne
  obtain ⟨area, hcopy, harea⟩ := copyValue_filled (text.dropWhile (· == 32)) [] output
    (Nat.zero_add _) hne (by rw [List.length_nil, Nat.zero_add]; exact hlong)
  rw [List.length_nil, List.nil_append] at hcopy
  unfold storeValue
  rw [copyValue_blanks, hcopy]
  show (if 0 < output.length then put area output.length 0 else _) = _
  rw [if_pos hpos]
  exact if_neg (by omega)

end Copy

/-! ## The buffer of the caller -/

/-- `GetStringContentValue` stays in the buffer, and leaves the value it has found there as a
string, cut off where it does not fit. -/
def StaysInside (content : List UInt8) (sectionName keyName : CString) (output : List UInt8) :
    Prop :=
  ∃ output', getStringContentValue (content.length + 2) (fopen content) sectionName.bytes
      keyName.bytes output output.length = .ok output' ∧ output'.length = output.length ∧
    ∀ text, fileText sectionName.bytes keyName.bytes (linesRead content) = some text →
      valueOf text ≠ [] →
        (0 : UInt8) ∈ output' ∧ cstr output' = (valueOf text).take (output.length - 1)

section Inside
variable {content output : List UInt8} {S K : CString}

/-- A value that fits. -/
lemma staysInside_of_short (hsizes : S.bytes.length ≤ 97 ∧ K.bytes.length ≤ 99)
    (hshort : ∀ text, fileText S.bytes K.bytes (linesRead content) = some text →
      (valueOf text).length < output.length) : StaysInside content S K output := by
  unfold StaysInside
  rw [getStringContentValue_eq, copyNames_eq_ok.mpr hsizes]
  cases htext : fileText S.bytes K.bytes (linesRead content) with
  | none => exact ⟨output, rfl, rfl, nofun⟩
  | some text =>
    have hlong := hshort text htext
    have hstore := storeValue_eq text (le_refl output.length) hlong
    refine ⟨_, hstore, ?_, ?_⟩
    · split
      · rfl
      · exact length_strcpy hlong
    · rintro text' ⟨rfl⟩ hne
      rw [if_neg hne] at hstore ⊢
      refine ⟨by simp, ?_⟩
      have hcstr := cstr_storeValue (le_refl output.length) hlong hstore
      rw [if_neg hne] at hcstr
      rw [hcstr, List.take_of_length_le (by omega)]

/-- **Exactly when the buffer is not overrun.** For every file, section, key and buffer: the
names fit their own buffers, and the value that is found is shorter than the buffer. -/
theorem staysInside_iff (hne : 1 ≤ output.length) :
    StaysInside content S K output ↔
      S.bytes.length ≤ 97 ∧ K.bytes.length ≤ 99 ∧
        ∀ text, fileText S.bytes K.bytes (linesRead content) = some text →
          (valueOf text).length < output.length := by
  constructor
  · rintro ⟨output', hget, -, -⟩
    rw [getStringContentValue_eq] at hget
    by_cases hsizes : S.bytes.length ≤ 97 ∧ K.bytes.length ≤ 99
    · refine ⟨hsizes.1, hsizes.2, fun text htext => ?_⟩
      by_contra hlong
      rw [copyNames_eq_ok.mpr hsizes, htext] at hget
      have hstore : storeValue output.length text output = .ok output' := hget
      rw [storeValue_overrun (List.ne_nil_of_length_pos hne) (by omega)] at hstore
      cases hstore
    · rw [copyNames_of_long hsizes] at hget
      cases hget
  · rintro ⟨hS, hK, hshort⟩
    exact staysInside_of_short ⟨hS, hK⟩ hshort

/-- The value `1` in a buffer of two bytes. -/
theorem one_staysInside :
    StaysInside [91, 83, 93, 10, 65, 61, 49, 10] ⟨[83], by decide⟩ ⟨[65], by decide⟩ [7, 7] := by
  refine (staysInside_iff (by decide)).mpr ⟨by decide, by decide, fun text htext => ?_⟩
  have hsplit : splitLines [91, 83, 93, 10, 65, 61, 49, 10]
      = [[91, 83, 93, 10], [65, 61, 49, 10]] := by decide
  have hlines : ∀ l ∈ splitLines [91, 83, 93, 10, 65, 61, 49, 10], FitsLine l := by
    rw [hsplit]
    simp only [List.forall_mem_cons]
    exact ⟨⟨by decide, by decide⟩, ⟨by decide, by decide⟩, List.forall_mem_nil _⟩
  rw [fileText_linesRead hlines] at htext
  have hfound : fileText [83] [65] (splitLines [91, 83, 93, 10, 65, 61, 49, 10])
      = some [49, 10] := by decide
  obtain rfl : [49, 10] = text := Option.some.inj (hfound.symm.trans htext)
  decide

/-- The value `12` in a buffer of two bytes is followed by a NUL behind the buffer. -/
theorem two_not_staysInside :
    ¬ StaysInside [91, 83, 93, 10, 65, 61, 49, 50, 10] ⟨[83], by decide⟩ ⟨[65], by decide⟩
      [7, 7] := by
  rintro ⟨output', hget, -, -⟩
  have hover : getStringContentValue 11 (fopen [91, 83, 93, 10, 65, 61, 49, 50, 10]) [83] [65]
      [7, 7] 2 = .error .outOfBounds := by rfl
  exact absurd (hover.symm.trans hget) nofun

end Inside

end IpncRdk.SysCfg
