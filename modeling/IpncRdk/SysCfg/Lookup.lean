import IpncRdk.SysCfg.GetTheorems

/-!
# The meaning of an INI file

What a file says about a key of a section, without the loops that look for it.

* `sectionLines`, `keyText`, `iniValue` — the lines of a section, the text of a line for a key, and
  the value for a section and a key;
* `sectionText_of_key` — the inner loop finds the first text of a section;
* `Meets` — a lookup yields the value that the file says;
* `meets_iff` — exactly the sections and keys of which this holds.
-/

namespace IpncRdk.SysCfg

open Lib

/-! ## The reference -/

/-- The lines behind the first one that begins with the section's name in brackets. -/
def behindHeader (sectionName : List UInt8) (lines : List (List UInt8)) : List (List UInt8) :=
  (lines.dropWhile fun line => !strncasecmpEq (sectionHeader sectionName) line).tail

/-- A line begins with `[`. -/
def isHeader (line : List UInt8) : Bool := line.head? == some 91

/-- A line begins with `;`. -/
def isComment (line : List UInt8) : Bool := line.head? == some 59

/-- The lines of a section that are no comments. -/
def sectionLines (sectionName : List UInt8) (lines : List (List UInt8)) : List (List UInt8) :=
  ((behindHeader sectionName lines).takeWhile fun line => !isHeader line).filter
    fun line => !isComment line

/-- The text of a line that begins with the key, in either case, blanks and `=`. -/
def keyText (keyName line : List UInt8) : Option (List UInt8) :=
  if (line.take keyName.length).map toLower = keyName.map toLower then
    textBehindEq keyName line
  else none

/-- A text without its leading blanks, up to the first CR or LF. -/
def iniValueOf (text : List UInt8) : List UInt8 :=
  (text.dropWhile (· == 32)).takeWhile fun b => b != cr && b != lf

/-- The value in the text that has been found, or the default where it is empty. -/
def valueOr (defaultVal : List UInt8) : Option (List UInt8) → List UInt8
  | some text => if iniValueOf text = [] then defaultVal else iniValueOf text
  | none => defaultVal

/-- What a file says about a key: the value in its first line of the section. -/
def iniValue (sectionName keyName defaultVal content : List UInt8) : List UInt8 :=
  valueOr defaultVal
    ((sectionLines sectionName (splitLines content)).findSome? (keyText keyName))

/-- Into every buffer that is longer than the default and than any value for the key, a lookup
yields what the file says. -/
def Meets (content : List UInt8) (sectionName keyName : CString) : Prop :=
  ∀ (defaultVal : Option CString) (output : List UInt8) (outputLen : ℕ),
    outputLen ≤ output.length →
    ((defaultVal.map CString.bytes).getD []).length < output.length →
    (∀ line ∈ splitLines content, ∀ text, keyText keyName.bytes line = some text →
      (iniValueOf text).length < outputLen) →
    ∃ output', getConfigFileStringValue sectionName.bytes keyName.bytes
        (defaultVal.map CString.bytes) output outputLen (some content) = .ok output' ∧
      cstr output' = iniValue sectionName.bytes keyName.bytes
        ((defaultVal.map CString.bytes).getD []) content

/-- The names fit their buffers. For the empty key, which every line begins with, the scan does
not end with the section: the section has a line of blanks and `=`, or the first one behind the
header has no value. -/
structure Understood (content sectionName keyName : List UInt8) : Prop where
  names : sectionName.length ≤ 97 ∧ keyName.length ≤ 99
  emptyKey : keyName = [] →
    ((sectionLines sectionName (splitLines content)).findSome? (keyText [])).isSome = true ∨
      ∀ text, ((behindHeader sectionName (splitLines content)).filter
          fun line => !isComment line).findSome? (keyText []) = some text →
        iniValueOf text = []

/-! ## One line -/

section Line
variable {keyName line text : List UInt8}

lemma keyText_eq : keyText keyName line =
    if strncasecmpEq keyName line then textBehindEq keyName line else none := by
  unfold keyText
  simp only [strncasecmpEq_iff]

lemma suffix_of_textBehindEq (h : textBehindEq keyName line = some text) : text <:+ line := by
  unfold textBehindEq at h
  split at h
  next c rest hrest =>
    split at h
    · obtain rfl := Option.some.inj h
      have hcons : rest <:+ (line.drop keyName.length).dropWhile (· == 32) :=
        hrest ▸ List.suffix_cons c rest
      exact hcons.trans ((List.dropWhile_suffix _).trans (List.drop_suffix _ _))
    · cases h
  next => cases h

lemma textBehindEq_of_keyText (h : keyText keyName line = some text) :
    textBehindEq keyName line = some text := by
  unfold keyText at h
  split at h
  · exact h
  · cases h

lemma keyText_of_react (h : react keyName line = .value text) :
    keyText keyName line = some text := by
  unfold react at h
  split_ifs at h with hcomment hcmp hheader
  rw [keyText_eq, if_pos hcmp]
  cases htext : textBehindEq keyName line with
  | none => simp [htext] at h
  | some text' => simpa [htext] using h

/-- Without a NUL in it the value ends at the end of the line. -/
lemma valueOf_eq (h : (0 : UInt8) ∉ text) : valueOf text = iniValueOf text := by
  unfold valueOf iniValueOf
  have hnul : (0 : UInt8) ∉ text.dropWhile (· == 32) := fun hmem =>
    h ((List.dropWhile_suffix _).subset hmem)
  generalize text.dropWhile (· == 32) = rest at hnul
  induction rest with
  | nil => rfl
  | cons b rest ih =>
    rw [List.mem_cons, not_or] at hnul
    have hzero : (b == 0) = false := beq_eq_false_iff_ne.mpr (Ne.symm hnul.1)
    have hends : endsValue b = !(b != cr && b != lf) := by
      unfold endsValue
      rw [hzero, Bool.or_false, Bool.not_and, bne, bne, Bool.not_not, Bool.not_not]
    rw [upToEnd_cons, List.takeWhile_cons, hends, ih hnul.2]
    cases b != cr && b != lf <;> rfl

/-- A line that begins with a key is no header, unless the key is empty or begins with `[`. -/
lemma isHeader_of_key (hne : keyName ≠ []) (hkey : keyName.head? ≠ some 91)
    (h : strncasecmpEq keyName line = true) : isHeader line = false := by
  cases keyName with
  | nil => exact absurd rfl hne
  | cons k key =>
    cases line with
    | nil => rfl
    | cons b line =>
      rw [strncasecmpEq, Bool.and_eq_true, beq_iff_eq] at h
      show (some b == some 91) = false
      rw [beq_eq_false_iff_ne]
      intro hb
      obtain rfl := Option.some.inj hb
      exact hkey (congrArg some (toLower_eq_of_notAlpha rfl h.1.symm).symm)

end Line

/-! ## A section -/

section Section
variable {keyName : List UInt8}

/-- The inner loop finds the first text of a section. -/
lemma sectionText_of_key (hne : keyName ≠ []) (hkey : keyName.head? ≠ some 91)
    (lines : List (List UInt8)) :
    sectionText keyName lines
      = ((lines.takeWhile fun line => !isHeader line).filter
          fun line => !isComment line).findSome? (keyText keyName) := by
  induction lines with
  | nil => rfl
  | cons line lines ih =>
    rw [sectionText, react, List.takeWhile_cons]
    by_cases hcomment : line.head? = some 59
    · -- a comment is no header
      have hisComment : isComment line = true := beq_iff_eq.mpr hcomment
      have hisHeader : isHeader line = false := by
        unfold isHeader
        rw [hcomment]
        rfl
      rw [if_pos hcomment, hisHeader]
      simp only [Bool.not_false, if_true, List.filter_cons, hisComment, Bool.not_true,
        Bool.false_eq_true, if_false]
      exact ih
    have hisComment : isComment line = false := beq_eq_false_iff_ne.mpr hcomment
    rw [if_neg hcomment]
    by_cases hcmp : strncasecmpEq keyName line = true
    · rw [if_pos hcmp, isHeader_of_key hne hkey hcmp]
      simp only [Bool.not_false, if_true, List.filter_cons, hisComment, List.findSome?_cons,
        keyText_eq, hcmp]
      cases textBehindEq keyName line with
      | some text => rfl
      | none => exact ih
    rw [if_neg hcmp]
    by_cases hheader : line.head? = some 91
    · have hisHeader : isHeader line = true := beq_iff_eq.mpr hheader
      rw [if_pos hheader, hisHeader]
      rfl
    · have hisHeader : isHeader line = false := beq_eq_false_iff_ne.mpr hheader
      rw [if_neg hheader, hisHeader]
      simp only [Bool.not_false, if_true, List.filter_cons, hisComment, List.findSome?_cons,
        keyText_eq, if_neg hcmp]
      exact ih

/-- With the empty key it goes on behind the section. -/
lemma sectionText_emptyKey (lines : List (List UInt8)) :
    sectionText [] lines
      = (lines.filter fun line => !isComment line).findSome? (keyText []) := by
  induction lines with
  | nil => rfl
  | cons line lines ih =>
    rw [sectionText, react, List.filter_cons]
    by_cases hcomment : line.head? = some 59
    · have hisComment : isComment line = true := beq_iff_eq.mpr hcomment
      rw [if_pos hcomment, hisComment]
      exact ih
    · have hisComment : isComment line = false := beq_eq_false_iff_ne.mpr hcomment
      rw [if_neg hcomment, hisComment, if_pos (strncasecmpEq_nil line)]
      simp only [Bool.not_false, if_true, List.findSome?_cons, keyText_eq, strncasecmpEq_nil]
      cases textBehindEq [] line with
      | some text => rfl
      | none => exact ih

lemma fileText_eq_sectionText (sectionName : List UInt8) (lines : List (List UInt8)) :
    fileText sectionName keyName lines = sectionText keyName (behindHeader sectionName lines) := by
  unfold behindHeader
  induction lines with
  | nil => rfl
  | cons line lines ih =>
    rw [fileText, List.dropWhile_cons]
    by_cases hheader : strncasecmpEq (sectionHeader sectionName) line = true
    · rw [if_pos hheader, hheader]
      rfl
    · rw [if_neg hheader, ih, if_pos (by simpa using hheader)]

/-- What the loops find is the text of a line for the key. -/
lemma keyText_of_sectionText {lines : List (List UInt8)} {text : List UInt8}
    (h : sectionText keyName lines = some text) :
    ∃ line ∈ lines, keyText keyName line = some text := by
  induction lines with
  | nil => cases h
  | cons line lines ih =>
    rw [sectionText] at h
    cases hreact : react keyName line with
    | skip =>
      simp only [hreact] at h
      obtain ⟨line', hmem, htext⟩ := ih h
      exact ⟨line', List.mem_cons_of_mem line hmem, htext⟩
    | stop =>
      simp only [hreact] at h
      cases h
    | value text' =>
      simp only [hreact] at h
      obtain rfl := Option.some.inj h
      exact ⟨line, List.mem_cons_self, keyText_of_react hreact⟩

lemma keyText_of_fileText {sectionName : List UInt8} {lines : List (List UInt8)}
    {text : List UInt8} (h : fileText sectionName keyName lines = some text) :
    ∃ line ∈ lines, keyText keyName line = some text := by
  rw [fileText_eq_sectionText] at h
  obtain ⟨line, hmem, htext⟩ := keyText_of_sectionText h
  exact ⟨line, (List.dropWhile_suffix _).subset (List.mem_of_mem_tail hmem), htext⟩

end Section

/-! ## The lookup -/

section Lookup
variable {content : List UInt8} {S K : CString}

/-- A lookup yields the value in the text that the loops find. -/
lemma get_found (hfits : ∀ l ∈ splitLines content, FitsLine l)
    (hnames : S.bytes.length ≤ 97 ∧ K.bytes.length ≤ 99) (defaultVal : Option CString)
    {output : List UInt8} {outputLen : ℕ} (hle : outputLen ≤ output.length)
    (hdefault : ((defaultVal.map CString.bytes).getD []).length < output.length)
    (hlong : ∀ line ∈ splitLines content, ∀ text, keyText K.bytes line = some text →
      (iniValueOf text).length < outputLen) :
    ∃ output', getConfigFileStringValue S.bytes K.bytes (defaultVal.map CString.bytes) output
        outputLen (some content) = .ok output' ∧
      cstr output' = valueOr ((defaultVal.map CString.bytes).getD [])
        (fileText S.bytes K.bytes (splitLines content)) := by
  have hnul : (0 : UInt8) ∉ (defaultVal.map CString.bytes).getD [] := by
    cases defaultVal with
    | none => exact List.not_mem_nil
    | some text => exact text.noNul
  rw [get_reads, fileText_linesRead hfits, strcpy_eq_ok hdefault, copyNames_eq_ok.mpr hnames]
  cases hfound : fileText S.bytes K.bytes (splitLines content) with
  | none => exact ⟨_, rfl, cstr_append_nul hnul _⟩
  | some text =>
    obtain ⟨line, hmem, htext⟩ := keyText_of_fileText hfound
    have hvalue : valueOf text = iniValueOf text := valueOf_eq fun hzero =>
      (hfits line hmem).noNul
        ((suffix_of_textBehindEq (textBehindEq_of_keyText htext)).subset hzero)
    have hshort : (valueOf text).length < outputLen := hvalue ▸ hlong line hmem text htext
    have harea := length_strcpy hdefault
    have hstore := storeValue_eq text (harea.symm ▸ hle) hshort
    refine ⟨_, hstore, ?_⟩
    rw [cstr_storeValue (harea.symm ▸ hle) hshort hstore, hvalue, cstr_append_nul hnul]
    rfl

/-- A buffer that is longer than the file is longer than any value. -/
lemma length_iniValueOf_lt {line text : List UInt8} (hmem : line ∈ splitLines content)
    (htext : keyText K.bytes line = some text) : (iniValueOf text).length < content.length + 1 := by
  have hvalue : (iniValueOf text).length ≤ text.length :=
    ((List.takeWhile_prefix _).length_le).trans (List.dropWhile_suffix _).length_le
  have hline : text.length ≤ line.length :=
    (suffix_of_textBehindEq (textBehindEq_of_keyText htext)).length_le
  have hcontent : line.length ≤ content.length := by
    have hsub := (List.sublist_flatten_of_mem hmem).length_le
    rwa [splitLines_flatten] at hsub
  omega

/-- The first text of a section is the first one behind its header. -/
lemma findSome?_takeWhile {p q : List UInt8 → Bool} {f : List UInt8 → Option (List UInt8)}
    {lines : List (List UInt8)} {text : List UInt8}
    (h : ((lines.takeWhile p).filter q).findSome? f = some text) :
    (lines.filter q).findSome? f = some text := by
  conv_lhs => rw [← List.takeWhile_append_dropWhile (p := p) (l := lines)]
  rw [List.filter_append, List.findSome?_append, h, Option.some_or]

/-- What the loops find is what the file says, unless they go on behind the section. -/
lemma fileText_of_understood (hkey : K.bytes.head? ≠ some 91)
    (h : Understood content S.bytes K.bytes) (defaultVal : List UInt8) :
    valueOr defaultVal (fileText S.bytes K.bytes (splitLines content))
      = iniValue S.bytes K.bytes defaultVal content := by
  unfold iniValue
  rw [fileText_eq_sectionText]
  by_cases hne : K.bytes = []
  · have hempty := h.emptyKey hne
    rw [hne, sectionText_emptyKey]
    cases hsection : (sectionLines S.bytes (splitLines content)).findSome? (keyText []) with
    | some text => rw [findSome?_takeWhile hsection]
    | none =>
      rw [hsection] at hempty
      have hnovalue := hempty.resolve_left Bool.false_ne_true
      cases hbehind : ((behindHeader S.bytes (splitLines content)).filter
          fun line => !isComment line).findSome? (keyText []) with
      | none => rfl
      | some text => exact if_pos (hnovalue text hbehind)
  · unfold sectionLines
    rw [sectionText_of_key hne hkey]

/-- A section and a key of which the lookup holds. -/
lemma understood_of_meets (hfits : ∀ l ∈ splitLines content, FitsLine l)
    (h : Meets content S K) : Understood content S.bytes K.bytes := by
  -- a buffer that is long enough for all values
  have hle : content.length + 1 ≤ (List.replicate (content.length + 1) (0 : UInt8)).length := by
    rw [List.length_replicate]
  have hdefault : (((none : Option CString).map CString.bytes).getD []).length
      < (List.replicate (content.length + 1) (0 : UInt8)).length := by
    rw [List.length_replicate]
    exact Nat.succ_pos _
  have hlong : ∀ line ∈ splitLines content, ∀ text, keyText K.bytes line = some text →
      (iniValueOf text).length < content.length + 1 :=
    fun line hmem text htext => length_iniValueOf_lt hmem htext
  obtain ⟨output', hget, hvalue⟩ := h none _ _ hle hdefault hlong
  have hnames : S.bytes.length ≤ 97 ∧ K.bytes.length ≤ 99 := by
    by_contra hnot
    rw [get_reads, strcpy_eq_ok hdefault, copyNames_of_long hnot] at hget
    cases hget
  refine ⟨hnames, fun hne => ?_⟩
  obtain ⟨found', hget', hfound⟩ := get_found hfits hnames none hle hdefault hlong
  obtain rfl := Except.ok.inj (hget.symm.trans hget')
  rw [hfound, fileText_eq_sectionText, iniValue, hne, sectionText_emptyKey] at hvalue
  by_cases hsection : ((sectionLines S.bytes (splitLines content)).findSome?
      (keyText [])).isSome = true
  · exact Or.inl hsection
  · right
    intro text htext
    rw [htext, Option.not_isSome_iff_eq_none.mp hsection] at hvalue
    by_contra hvalueOf
    exact hvalueOf ((if_neg hvalueOf).symm.trans hvalue)

/-- **Exactly when a lookup means what the file says.** For every file of NUL-free lines of at
most 254 bytes, every section, and every key that does not begin with `[`. -/
theorem meets_iff (hfits : ∀ l ∈ splitLines content, FitsLine l)
    (hkey : K.bytes.head? ≠ some 91) :
    Meets content S K ↔ Understood content S.bytes K.bytes := by
  constructor
  · exact understood_of_meets hfits
  · intro h defaultVal output outputLen hle hdefault hlong
    obtain ⟨output', hget, hvalue⟩ := get_found hfits h.names defaultVal hle hdefault hlong
    exact ⟨output', hget, hvalue.trans (fileText_of_understood hkey h _)⟩

end Lookup

/-- `"[S]\n[T]\n=1\n"` -/
def twoSections : List UInt8 := [91, 83, 93, 10, 91, 84, 93, 10, 61, 49, 10]

lemma splitLines_twoSections :
    splitLines twoSections = [[91, 83, 93, 10], [91, 84, 93, 10], [61, 49, 10]] := by decide

lemma fitsLine_twoSections : ∀ l ∈ splitLines twoSections, FitsLine l := by
  rw [splitLines_twoSections]
  simp only [List.forall_mem_cons]
  exact ⟨⟨by decide, by decide⟩, ⟨by decide, by decide⟩, ⟨by decide, by decide⟩,
    List.forall_mem_nil _⟩

/-- A section's name of 98 bytes overruns its buffer, and the empty key of section `S` finds the
value in section `T`. -/
theorem twoSections_not_meets :
    ¬ Meets twoSections ⟨List.replicate 98 65, by decide⟩ ⟨[65], by decide⟩ ∧
      ¬ Meets twoSections ⟨[83], by decide⟩ ⟨[], by decide⟩ := by
  constructor
  · intro h
    have hnames := (understood_of_meets fitsLine_twoSections h).names
    revert hnames
    decide
  · intro h
    have hempty := (understood_of_meets fitsLine_twoSections h).emptyKey rfl
    rw [splitLines_twoSections] at hempty
    rcases hempty with hsection | hvalue
    · revert hsection
      decide
    · have hone := hvalue [49, 10] (by decide)
      revert hone
      decide

theorem twoSections_meets_iff : (∀ l ∈ splitLines twoSections, FitsLine l) ∧
    (Meets twoSections ⟨[84], by decide⟩ ⟨[65], by decide⟩ ↔
      Understood twoSections [84] [65]) :=
  ⟨fitsLine_twoSections, meets_iff fitsLine_twoSections (by decide)⟩

end IpncRdk.SysCfg
