import IpncRdk.SysCfg.WriteRead

/-!
# Integer values

`SetConfigFileIntValue` formats a number in a buffer of four bytes, which three characters and a
NUL fill. What fits is written like any other value, and `atoi` reads it back.

* `IntRoundTrips` — the text stays in its buffer, and the number is read back;
* `intRoundTrips_iff` — exactly the numbers of at most three characters.
-/

namespace IpncRdk.SysCfg

open Lib

/-- A key of letters. -/
structure AlphaKey (key : List UInt8) : Prop where
  nonempty : key ≠ []
  letters : ∀ b ∈ key, isAlpha b = true

/-- The write comes to its end without leaving a buffer, and the number is what a lookup yields
afterwards, with every default. -/
def IntRoundTrips (content : List UInt8) (sectionName keyName : CString) (v : Int32) : Prop :=
  ∀ defaultVal : ℤ, ∃ content',
    setConfigFileIntValue sectionName.bytes keyName.bytes v.toInt (some content)
      = .ok (some content') ∧
    getConfigFileIntValue sectionName.bytes keyName.bytes defaultVal (some content') = .ok v.toInt

/-! ## Keys and texts -/

section Text
variable {key : List UInt8}

lemma AlphaKey.plain (h : AlphaKey key) : PlainKey key where
  letter := by
    cases key with
    | nil => exact absurd rfl h.nonempty
    | cons b key => exact h.letters b List.mem_cons_self
  bytes b hb := by
    have hletter := h.letters b hb
    refine ⟨?_, ?_, ?_, ?_⟩ <;> (rintro rfl; exact absurd hletter (by decide))

lemma AlphaKey.noLf (h : AlphaKey key) : lf ∉ key := fun hmem =>
  absurd (h.letters lf hmem) (by decide)

/-- A number is written with digits and a sign. -/
lemma mem_formatInt {n : ℤ} {b : UInt8} (h : b ∈ formatInt n) : b = 45 ∨ (48 ≤ b ∧ b ≤ 57) := by
  unfold formatInt at h
  split at h
  · rcases List.mem_cons.mp h with hminus | hdigit
    · exact Or.inl hminus
    · exact Or.inr (digit_of_mem_digits hdigit)
  · exact Or.inr (digit_of_mem_digits h)

lemma notMem_formatInt (n : ℤ) {b : UInt8} (hminus : b ≠ 45) (hdigit : b < 48) :
    b ∉ formatInt n := by
  intro h
  rcases mem_formatInt h with heq | ⟨hlow, -⟩
  · exact hminus heq
  · exact absurd hdigit (UInt8.not_lt.mpr hlow)

/-- The text of a number, as a value. -/
def intText (n : ℤ) : CString := ⟨formatInt n, notMem_formatInt n (by decide) (by decide)⟩

lemma formatInt_ne_nil (n : ℤ) : formatInt n ≠ [] := by
  obtain ⟨b, text, hdigits, -⟩ := digits_cons n.natAbs
  unfold formatInt
  rw [hdigits]
  split <;> exact List.cons_ne_nil _ _

lemma plainValue_formatInt (n : ℤ) : PlainValue (formatInt n) where
  nonempty := formatInt_ne_nil n
  noBreak :=
    ⟨notMem_formatInt n (by decide) (by decide), notMem_formatInt n (by decide) (by decide)⟩
  noBlank h := notMem_formatInt n (b := 32) (by decide) (by decide) (List.mem_of_head? h)

end Text

/-! ## The round trip -/

section RoundTrip
variable {content : List UInt8} {S K : CString}

lemma wrap32_toInt (v : Int32) : wrap32 v.toInt = v.toInt :=
  wrap32_of_bounds v.le_toInt v.toInt_lt

/-- A text of at most three characters is written like any other. -/
lemma setInt_of_short {v : Int32} (h : (formatInt v.toInt).length < 4) :
    setConfigFileIntValue S.bytes K.bytes v.toInt (some content)
      = setConfigFileStringValue S.bytes K.bytes (formatInt v.toInt) (some content) := by
  unfold setConfigFileIntValue
  rw [wrap32_toInt, if_pos h]

lemma setInt_of_long {v : Int32} (h : ¬ (formatInt v.toInt).length < 4) :
    setConfigFileIntValue S.bytes K.bytes v.toInt (some content) = .error .outOfBounds := by
  unfold setConfigFileIntValue
  rw [wrap32_toInt, if_neg h]

/-- The number that a lookup makes of its string. -/
lemma getInt_of_read {v : Int32} {area : List UInt8} (defaultVal : ℤ)
    (hget : getConfigFileStringValue S.bytes K.bytes none (List.replicate 512 0) 511 (some content)
      = .ok area) (harea : cstr area = formatInt v.toInt) :
    getConfigFileIntValue S.bytes K.bytes defaultVal (some content) = .ok v.toInt := by
  unfold getConfigFileIntValue
  rw [hget, ok_bind, harea]
  cases htext : formatInt v.toInt with
  | nil => exact absurd htext (formatInt_ne_nil _)
  | cons b text =>
    have hcomment : b ≠ 59 := by
      have hb : b ∈ formatInt v.toInt := htext ▸ List.mem_cons_self
      rintro rfl
      exact absurd (mem_formatInt hb) (by decide)
    have hlo := v.le_toInt
    have hhi := v.toInt_lt
    show Except.ok (if b = 59 then defaultVal else atoi (b :: text)) = _
    rw [if_neg hcomment, ← htext, atoi_formatInt (by omega) (by omega)]

/-- The row behind the last newline is a place at the latest. -/
lemma located_of_lastNewline (keyName : List UInt8) (hend : content.getLast? = some lf)
    (hheader : ∃ l ∈ splitLines content, strncasecmpEq (sectionHeader S.bytes) l = true) :
    ∃ before header mid row post,
      Located S.bytes keyName (rowsOf content) before header mid row post := by
  rcases located_or_unlocated keyName hheader with hlocated | ⟨before, header, mid, U⟩
  · exact hlocated
  · have hrow := U.endRow_eq_nil
    unfold endRow at hrow
    rw [if_pos (Or.inr hend)] at hrow
    cases hrow

/-- **Which numbers are read back.** For every INI file that ends in a newline, every section in
it, every key of letters and every 32-bit number: those of at most three characters, where the
names fit their buffers. -/
theorem intRoundTrips_iff (hfile : IniText content) (hend : content.getLast? = some lf)
    (hheader : ∃ l ∈ splitLines content, strncasecmpEq (sectionHeader S.bytes) l = true)
    (hkey : AlphaKey K.bytes) (v : Int32) :
    IntRoundTrips content S K v ↔
      -99 ≤ v.toInt ∧ v.toInt ≤ 999 ∧ S.bytes.length ≤ 97 ∧ K.bytes.length ≤ 99 := by
  constructor
  · intro h
    obtain ⟨content', hset, -⟩ := h 0
    have hshort : (formatInt v.toInt).length < 4 := by
      by_contra hlong
      rw [setInt_of_long hlong] at hset
      cases hset
    have hnames : S.bytes.length ≤ 97 ∧ K.bytes.length ≤ 99 := by
      by_contra hlong
      rw [setInt_of_short hshort, set_of_long_names hlong] at hset
      cases hset
    obtain ⟨hlo, hhi⟩ := (length_formatInt_lt_iff _).mp hshort
    exact ⟨by omega, by omega, hnames.1, hnames.2⟩
  · rintro ⟨hlo, hhi, hS, hK⟩ defaultVal
    have hshort : (formatInt v.toInt).length < 4 :=
      (length_formatInt_lt_iff _).mpr ⟨by omega, by omega⟩
    have hline : (keyLine K.bytes (intText v.toInt).bytes).length < 128 := by
      rw [length_keyLine]
      show K.bytes.length + (formatInt v.toInt).length + 3 < 128
      omega
    obtain ⟨before, header, mid, row, post, L⟩ := located_of_lastNewline K.bytes hend hheader
    have hreads : ReadsBack content S K (intText v.toInt) :=
      readsBack_of_located hfile hkey.plain (plainValue_formatInt v.toInt) hline ⟨hS, hK⟩
        hkey.noLf L
    have hlong : (intText v.toInt).bytes.length < 511 := hshort.trans (by decide)
    have hbuffer : (List.replicate 512 (0 : UInt8)).length = 512 := List.length_replicate
    obtain ⟨content', area, hset, hget, harea⟩ := hreads none (List.replicate 512 0) 511 hlong
      (hbuffer.symm ▸ by decide) (hbuffer.symm ▸ by decide)
    exact ⟨content', (setInt_of_short hshort).trans hset, getInt_of_read defaultVal hget harea⟩

end RoundTrip

/-- `"[S]\nA=1\n"` -/
def oneValue : List UInt8 := [91, 83, 93, 10, 65, 61, 49, 10]

lemma iniText_oneValue : IniText oneValue := ⟨by decide, by decide, by decide⟩

lemma header_oneValue :
    ∃ l ∈ splitLines oneValue, strncasecmpEq (sectionHeader [83]) l = true :=
  ⟨[91, 83, 93, 10], by decide, by decide⟩

lemma alphaKey_oneValue : AlphaKey [65] := ⟨by decide, List.all_eq_true.mp rfl⟩

/-- The number 42 is read back from the line of the key `A`. -/
theorem fortyTwo_intRoundTrips :
    IntRoundTrips oneValue ⟨[83], by decide⟩ ⟨[65], by decide⟩ 42 :=
  (intRoundTrips_iff iniText_oneValue rfl header_oneValue alphaKey_oneValue 42).mpr
    ⟨by decide, by decide, by decide, by decide⟩

/-- The numbers 1000 and -100 are written with a NUL behind their buffer. -/
theorem thousand_not_intRoundTrips :
    IniText oneValue ∧ oneValue.getLast? = some lf ∧
      (∃ l ∈ splitLines oneValue, strncasecmpEq (sectionHeader [83]) l = true) ∧ AlphaKey [65] ∧
      ¬ IntRoundTrips oneValue ⟨[83], by decide⟩ ⟨[65], by decide⟩ 1000 ∧
      ¬ IntRoundTrips oneValue ⟨[83], by decide⟩ ⟨[65], by decide⟩ (-100) := by
  refine ⟨iniText_oneValue, rfl, header_oneValue, alphaKey_oneValue, fun h => ?_, fun h => ?_⟩
  · obtain ⟨content', hset, -⟩ := h 0
    rw [setInt_of_long (by decide)] at hset
    cases hset
  · obtain ⟨content', hset, -⟩ := h 0
    rw [setInt_of_long (by decide)] at hset
    cases hset

end IpncRdk.SysCfg
