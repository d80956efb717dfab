import IpncRdk.SysCfg.SetTheorems

/-!
# Writing a value and reading it back

A value is read back where the write finds a place for it: a line of the section that begins
with the key, one that does not begin with a letter, or the end of a file that ends in a
newline. Behind a last line without newline the search runs off the rows and the value is
lost.
-/

namespace IpncRdk.SysCfg

open Lib

/-! ## Keys and values -/

/-- A key that begins with a letter and has no blank, `=` or bracket. -/
structure PlainKey (key : List UInt8) : Prop where
  letter : startsAlpha key = true
  bytes : ∀ b ∈ key, b ≠ 32 ∧ b ≠ 61 ∧ b ≠ 91 ∧ b ≠ 93

/-- A value that is not empty, stays on its line and does not begin with a blank. -/
structure PlainValue (value : List UInt8) : Prop where
  nonempty : value ≠ []
  noBreak : cr ∉ value ∧ lf ∉ value
  noBlank : value.head? ≠ some 32

/-- After a write the value is what a lookup yields, in every buffer longer than the value and
with every default. -/
def ReadsBack (content : List UInt8) (sectionName keyName value : CString) : Prop :=
  ∀ (defaultVal : Option CString) (output : List UInt8) (outputLen : ℕ),
    value.bytes.length < outputLen → outputLen ≤ output.length →
    ((defaultVal.map CString.bytes).getD []).length < output.length →
    ∃ content' output',
      setConfigFileStringValue sectionName.bytes keyName.bytes value.bytes (some content)
        = .ok (some content') ∧
      getConfigFileStringValue sectionName.bytes keyName.bytes (defaultVal.map CString.bytes) output
        outputLen (some content') = .ok output' ∧
      cstr output' = value.bytes

/-! ## The line that is written -/

section KeyLine
variable {key value : List UInt8}

lemma keyLine_eq (key value : List UInt8) :
    keyLine key value = (key ++ 61 :: (value ++ [cr])) ++ [lf] := by
  simp [keyLine]

lemma isLine_keyLine (hkey : lf ∉ key) (hvalue : lf ∉ value) : IsLine (keyLine key value) := by
  refine ⟨key ++ 61 :: (value ++ [cr]), keyLine_eq key value, ?_⟩
  simp [hkey, hvalue]
  decide

lemma shortLine_keyLine (hkey : (0 : UInt8) ∉ key) (hvalue : (0 : UInt8) ∉ value)
    (hlen : (keyLine key value).length < 128) : ShortLine (keyLine key value) :=
  ⟨by omega, by simp [keyLine, hkey, hvalue]; decide⟩

/-- The reader takes the value from the line of its key. -/
lemma react_keyLine (hkey : key.head? ≠ some 59) (hne : key ≠ []) :
    react key (keyLine key value) = .value (value ++ [cr, lf]) := by
  have hhead : (keyLine key value).head? = key.head? := by
    cases key with
    | nil => exact absurd rfl hne
    | cons k key => rfl
  have htext : textBehindEq key (keyLine key value) = some (value ++ [cr, lf]) := by
    unfold textBehindEq keyLine
    rw [List.drop_left, List.dropWhile_cons_of_neg (by decide)]
    rfl
  unfold react
  rw [hhead, if_neg hkey, keyLine, strncasecmpEq_append, if_pos rfl, ← keyLine, htext]

lemma valueOf_append (hvalue : PlainValue value) (h0 : (0 : UInt8) ∉ value) :
    valueOf (value ++ [cr, lf]) = value := by
  have hblank : (value ++ [cr, lf]).dropWhile (· == 32) = value ++ [cr, lf] := by
    cases value with
    | nil => exact absurd rfl hvalue.nonempty
    | cons b value =>
      have hb : b ≠ 32 := fun h => hvalue.noBlank (by rw [h]; rfl)
      exact List.dropWhile_cons_of_neg (by simpa using hb)
  unfold valueOf upToEnd
  rw [hblank, List.takeWhile_append_of_pos]
  · simp [endsValue]
  · intro b hb
    have hcr : b ≠ cr := fun h => hvalue.noBreak.1 (h ▸ hb)
    have hlf : b ≠ lf := fun h => hvalue.noBreak.2 (h ▸ hb)
    have hnul : b ≠ 0 := fun h => h0 (h ▸ hb)
    simp [endsValue, hcr, hlf, hnul]

end KeyLine

/-! ## Reading back -/

/-- A line the writer's search passes over says nothing to the reader. -/
lemma react_of_not_place {key line : List UInt8} (h : isPlace key line = false) :
    react key line = .skip := by
  unfold isPlace at h
  rw [Bool.or_eq_false_iff, Bool.not_eq_false'] at h
  obtain ⟨hkey, halpha⟩ := h
  have hhead : ∀ b, line.head? = some b → isAlpha b = true := by
    intro b hb
    rwa [startsAlpha, hb] at halpha
  unfold react
  rw [if_neg fun h => absurd (hhead 59 h) (by decide), hkey, if_neg Bool.false_ne_true,
    if_neg fun h => absurd (hhead 91 h) (by decide)]

lemma ShortLine.of_row {l : List UInt8} (h : RowLine l) (hl : IsLine l) : ShortLine l :=
  ⟨by have := h.length_of_isLine hl; omega, h.noNul⟩

lemma rowLine_of_mem_rowsOf {content l : List UInt8} (h : IniText content)
    (hl : l ∈ rowsOf content) : RowLine l := by
  rcases List.mem_append.mp hl with hl | hl
  · exact rowLine_of_iniText h l hl
  · unfold endRow at hl
    split at hl
    · rw [List.mem_singleton] at hl
      subst hl
      exact ⟨by simp, by simp⟩
    · cases hl

/-- Where the search ends at a row, the value is read back. -/
theorem readsBack_of_located {content header row : List UInt8} {before mid post : List (List UInt8)}
    {S K V : CString} (hfile : IniText content) (hkey : PlainKey K.bytes)
    (hvalue : PlainValue V.bytes) (hlen : (keyLine K.bytes V.bytes).length < 128)
    (hsizes : S.bytes.length ≤ 97 ∧ K.bytes.length ≤ 99) (hlf : lf ∉ K.bytes)
    (L : Located S.bytes K.bytes (rowsOf content) before header mid row post) :
    ReadsBack content S K V := by
  intro defaultVal output outputLen hlong hle hdefault
  have hset := set_of_located hsizes (readRows_of_iniText hfile) L hlen
  have hfront : ∀ l ∈ before ++ header :: mid, IsLine l :=
    isLine_of_rowsOf L.front
  have hmem : ∀ l ∈ before ++ header :: mid, l ∈ rowsOf content := by
    intro l hl
    rw [L.rows]
    simp only [List.mem_append, List.mem_cons] at hl ⊢
    tauto
  have hwhole : ∀ l ∈ before ++ header :: (mid ++ [keyLine K.bytes V.bytes]),
      l ∈ before ++ header :: mid ∨ l = keyLine K.bytes V.bytes := by
    intro l hl
    simp only [List.mem_append, List.mem_cons, List.not_mem_nil, or_false] at hl ⊢
    tauto
  have hne : K.bytes ≠ [] := by
    intro hnil
    have := hkey.letter
    rw [hnil] at this
    cases this
  have hcomment : K.bytes.head? ≠ some 59 := by
    intro hhead
    have := hkey.letter
    rw [startsAlpha, hhead] at this
    exact absurd this (by decide)
  -- whatever lies behind the new line is not read
  obtain ⟨rest, hrest⟩ : ∃ rest, overwrite content
      (before ++ header ::
        (mid ++ keyLine K.bytes V.bytes :: rowsBehind K.bytes row post)).flatten
      = (before ++ header :: (mid ++ [keyLine K.bytes V.bytes])).flatten ++ rest :=
    ⟨_, by unfold overwrite; simp only [List.flatten_append, List.flatten_cons,
      List.flatten_nil, List.append_assoc, List.nil_append]; rfl⟩
  rw [hrest] at hset
  -- the reader passes every line that the writer's search has passed
  have hget := get_of_lines rest output outputLen (defaultVal.map CString.bytes)
    (fun l hl => (hwhole l hl).elim (hfront l) fun h => h ▸ isLine_keyLine hlf hvalue.noBreak.2)
    (fun l hl => (hwhole l hl).elim
      (fun h => .of_row (rowLine_of_mem_rowsOf hfile (hmem l h)) (hfront l h))
      fun h => h ▸ shortLine_keyLine K.noNul V.noNul hlen)
    L.noHeader L.header (fun l hl => react_of_not_place (L.passed l hl))
    (react_keyLine hcomment hne)
  have hcopied := length_strcpy hdefault
  -- the carriage return of the written line ends the value
  have hval := valueOf_append hvalue V.noNul
  have hstore := storeValue_eq (V.bytes ++ [cr, lf]) (hle.trans hcopied.ge)
    (by rw [hval]; exact hlong)
  rw [hval, if_neg hvalue.nonempty] at hstore
  rw [strcpy_eq_ok hdefault, copyNames_eq_ok.mpr hsizes] at hget
  exact ⟨_, _, hset, hget.trans hstore, cstr_append_nul V.noNul _⟩

/-! ## Where it is not read back -/

/-- A newline is the last byte of a line. -/
lemma getElem?_takeLine {n i : ℕ} {bytes : List UInt8} (h : (takeLine n bytes)[i]? = some lf) :
    i + 1 = (takeLine n bytes).length := by
  induction n generalizing bytes i with
  | zero => simp [takeLine] at h
  | succ n ih =>
    cases bytes with
    | nil => simp [takeLine] at h
    | cons b bs =>
      rw [takeLine] at h ⊢
      split at h
      next hb =>
        rw [if_pos hb]
        cases i with
        | zero => rfl
        | succ i => simp at h
      next hb =>
        rw [if_neg hb]
        cases i with
        | zero =>
          rw [List.getElem?_cons_zero, Option.some.injEq] at h
          exact absurd h hb
        | succ i =>
          rw [List.getElem?_cons_succ] at h
          rw [List.length_cons, ih h]

/-- No line has a value for a key with a newline in it. -/
lemma react_of_lf {key : List UInt8} (hkey : lf ∈ key) (size : ℕ) (fp : Stream)
    (text : List UInt8) : react key (cstr (fgets size fp).1) ≠ .value text := by
  intro h
  unfold react at h
  split at h
  · cases h
  split at h
  next hmatch =>
    obtain ⟨i, hi⟩ := List.mem_iff_getElem?.mp hkey
    -- the comparison matches the newline of the key with one of the line
    have hline : (cstr (fgets size fp).1)[i]? = some lf :=
      getElem?_of_strncasecmpEq hmatch hi (by decide)
    have hpre : cstr (fgets size fp).1 <+: (fgets size fp).1 := List.takeWhile_prefix _
    have hwhole : (takeLine (size - 1) fp.rest)[i]? = some lf := by
      obtain ⟨hi, hbyte⟩ := List.getElem?_eq_some_iff.mp hline
      show (fgets size fp).1[i]? = some lf
      rw [List.prefix_iff_getElem?.mp hpre i hi, hbyte]
    have hlast := getElem?_takeLine hwhole
    have hle := hpre.length_le
    have hi' : i < key.length := (List.getElem?_eq_some_iff.mp hi).1
    -- so the key takes the whole line, and no `=` is left behind it
    have hnone : textBehindEq key (cstr (fgets size fp).1) = none := by
      unfold textBehindEq
      rw [List.drop_eq_nil_of_le (by simp only [fgets] at hle ⊢; omega)]
      rfl
    rw [hnone] at h
    cases h
  next => split at h <;> cases h

lemma scanKeys_of_lf {key output : List UInt8} (hkey : lf ∈ key) {outputLen fuel : ℕ}
    {fp : Stream} {output' : List UInt8}
    (h : scanKeys key outputLen fuel fp output = .ok output') : output' = output := by
  induction fuel generalizing fp with
  | zero => cases h
  | succ fuel ih =>
    rw [scanKeys] at h
    split at h
    · exact (Except.ok.inj h).symm
    · split at h
      next => exact ih h
      next => exact (Except.ok.inj h).symm
      next text hreact => exact absurd hreact (react_of_lf hkey 256 fp text)

lemma scanSections_of_lf {sectionName key output : List UInt8} (hkey : lf ∈ key)
    {outputLen fuel : ℕ} {fp : Stream} {output' : List UInt8}
    (h : scanSections sectionName key outputLen fuel fp output = .ok output') :
    output' = output := by
  induction fuel generalizing fp with
  | zero => cases h
  | succ fuel ih =>
    rw [scanSections] at h
    split at h
    · exact (Except.ok.inj h).symm
    · split at h
      · exact ih h
      · split at h
        · exact scanKeys_of_lf hkey h
        · exact ih h

/-- The buffers of the converse: one byte more than the value, and no default. -/
lemma ReadsBack.read {content : List UInt8} {S K V : CString} (h : ReadsBack content S K V) :
    ∃ content' output',
      setConfigFileStringValue S.bytes K.bytes V.bytes (some content) = .ok (some content') ∧
      getConfigFileStringValue S.bytes K.bytes none (List.replicate (V.bytes.length + 1) 0)
        (V.bytes.length + 1) (some content') = .ok output' ∧
      cstr output' = V.bytes :=
  h none (List.replicate (V.bytes.length + 1) 0) (V.bytes.length + 1) (by omega) (by simp)
    (by simp)

lemma strcpy_replicate (n : ℕ) : strcpy (List.replicate (n + 1) 0) [] =
    .ok (List.replicate (n + 1) 0) := by
  rw [strcpy_eq_ok (by simp)]
  simp [List.replicate_succ]

lemma not_readsBack_of_lf {content : List UInt8} {S K V : CString} (hvalue : PlainValue V.bytes)
    (hkey : lf ∈ K.bytes) : ¬ ReadsBack content S K V := by
  intro h
  obtain ⟨content', output', -, hget, hread⟩ := h.read
  unfold getConfigFileStringValue getStringContentValue at hget
  rw [Option.getD_none, strcpy_replicate] at hget
  have hkept : output' = List.replicate (V.bytes.length + 1) 0 := by
    cases hnames : copyNames S.bytes K.bytes with
    | error fault =>
      simp only [hnames] at hget
      cases hget
    | ok u =>
      simp only [hnames] at hget
      exact scanSections_of_lf hkey hget
  rw [hkept, List.replicate_succ] at hread
  exact hvalue.nonempty hread.symm

/-- Where the search has no place there is no empty row at the end. -/
lemma Unlocated.endRow_eq_nil {sectionName key content header : List UInt8}
    {before mid : List (List UInt8)}
    (U : Unlocated sectionName key (rowsOf content) before header mid) :
    endRow content = [] := by
  by_contra hne
  have hrow : endRow content = [[]] := by
    unfold endRow at hne ⊢
    split at hne
    next h => rw [if_pos h]
    next => exact absurd rfl hne
  have hsplit := U.rows
  unfold rowsOf at hsplit
  rw [hrow] at hsplit
  -- the empty row would be the header or one that the search has passed
  have hlast : (header :: mid).getLast? = some [] := by
    have := congrArg List.getLast? hsplit
    rw [List.getLast?_append, List.getLast?_append_of_ne_nil _ (by simp)] at this
    simpa using this.symm
  rcases List.mem_cons.mp (List.mem_of_getLast? hlast) with hheader | hmid
  · have := U.header
    rw [← hheader] at this
    cases this
  · have := U.passed [] hmid
    simp [isPlace, startsAlpha] at this

/-- Then every row is a line of the file. -/
lemma Unlocated.lines {sectionName key content header : List UInt8}
    {before mid : List (List UInt8)}
    (U : Unlocated sectionName key (rowsOf content) before header mid) :
    splitLines content = before ++ header :: mid := by
  have hrows := U.rows
  unfold rowsOf at hrows
  rwa [U.endRow_eq_nil, List.append_nil] at hrows

lemma shortLine_of_iniText {content : List UInt8} (h : IniText content) :
    ∀ l ∈ splitLines content, ShortLine l := by
  intro l hl
  have hrow := rowLine_of_iniText h l hl
  refine ⟨?_, hrow.noNul⟩
  rcases line_cases hl with hline | ⟨hnot, -⟩
  · have := hrow.length_of_isLine hline
    omega
  · have := hrow.length_of_notMem hnot
    omega

lemma not_readsBack_of_unlocated {content header : List UInt8} {before mid : List (List UInt8)}
    {S K V : CString} (hfile : IniText content) (hkey : PlainKey K.bytes)
    (hvalue : PlainValue V.bytes) (hsizes : S.bytes.length ≤ 97 ∧ K.bytes.length ≤ 99)
    (U : Unlocated S.bytes K.bytes (rowsOf content) before header mid) :
    ¬ ReadsBack content S K V := by
  intro h
  obtain ⟨content', output', hset, hget, hread⟩ := h.read
  have hsame : content' = content := by
    rcases set_of_unlocated V.bytes hsizes hfile U with hok | ⟨hnil, -⟩
    · rw [hok, Except.ok.injEq, Option.some.injEq] at hset
      exact hset.symm
    -- the other outcome needs an empty key
    · have := hkey.letter
      rw [hnil] at this
      cases this
  -- the file is as before, and the section holds no line of this key
  have hnone : fileText S.bytes K.bytes (splitLines content) = none := by
    rw [U.lines, fileText_append U.noHeader U.header]
    have := sectionText_skip (fun l hl => react_of_not_place (U.passed l hl)) []
    rwa [List.append_nil] at this
  rw [hsame, get_eq (shortLine_of_iniText hfile), Option.getD_none, strcpy_replicate,
    copyNames_eq_ok.mpr hsizes, hnone] at hget
  have hkept : List.replicate (V.bytes.length + 1) 0 = output' := Except.ok.inj hget
  rw [← hkept, List.replicate_succ] at hread
  exact hvalue.nonempty hread.symm

/-- **Exactly when a written value is read back.** For every INI file, section, key and value
of the stated kind the value comes back if and only if the names fit their buffers, the key has
no newline in it, and the first section with this name has a place for the key. -/
theorem write_read_iff {content : List UInt8} {S K V : CString} (hfile : IniText content)
    (hheader : ∃ l ∈ splitLines content, strncasecmpEq (sectionHeader S.bytes) l = true)
    (hkey : PlainKey K.bytes) (hvalue : PlainValue V.bytes)
    (hlen : K.bytes.length + V.bytes.length + 3 < 128) :
    ReadsBack content S K V ↔
      S.bytes.length ≤ 97 ∧ K.bytes.length ≤ 99 ∧ lf ∉ K.bytes ∧
        placeOf S.bytes K.bytes content ≠ none := by
  have hline : (keyLine K.bytes V.bytes).length < 128 := by rw [length_keyLine]; exact hlen
  constructor
  · intro h
    have hsizes : S.bytes.length ≤ 97 ∧ K.bytes.length ≤ 99 := by
      by_contra hlong
      obtain ⟨content', output', hset, -⟩ := h.read
      rw [set_of_long_names hlong] at hset
      cases hset
    have hlf : lf ∉ K.bytes := fun hmem => not_readsBack_of_lf hvalue hmem h
    refine ⟨hsizes.1, hsizes.2, hlf, ?_⟩
    rcases located_or_unlocated K.bytes hheader with
      ⟨before, header, mid, row, post, L⟩ | ⟨before, header, mid, U⟩
    · rw [L.placeOf_eq]
      exact Option.some_ne_none _
    · exact absurd h (not_readsBack_of_unlocated hfile hkey hvalue hsizes U)
  · rintro ⟨hS, hK, hlf, hplace⟩
    rcases located_or_unlocated K.bytes hheader with
      ⟨before, header, mid, row, post, L⟩ | ⟨before, header, mid, U⟩
    · exact readsBack_of_located hfile hkey hvalue hline ⟨hS, hK⟩ hlf L
    · exact absurd U.placeOf_eq hplace

/-- The file `[S]`, `A=1` with a newline at its end takes the new key `B`. -/
theorem write_read_new_key :
    ReadsBack [91, 83, 93, 10, 65, 61, 49, 10] ⟨[83], by decide⟩ ⟨[66], by decide⟩
      ⟨[50], by decide⟩ :=
  (write_read_iff ⟨by decide, by decide, by decide⟩ ⟨[91, 83, 93, 10], by decide, by decide⟩
    ⟨by decide, by simp⟩ ⟨by decide, by decide, by decide⟩ (by decide)).mpr
    ⟨by decide, by decide, by decide, by decide⟩

/-- The same file without a newline at its end loses the new key. -/
theorem write_not_read :
    IniText [91, 83, 93, 10, 65, 61, 49] ∧
      (∃ l ∈ splitLines [91, 83, 93, 10, 65, 61, 49],
        strncasecmpEq (sectionHeader [83]) l = true) ∧
      PlainKey [66] ∧ PlainValue [50] ∧
      ¬ ReadsBack [91, 83, 93, 10, 65, 61, 49] ⟨[83], by decide⟩ ⟨[66], by decide⟩
        ⟨[50], by decide⟩ := by
  refine ⟨⟨by decide, by decide, by decide⟩, ⟨[91, 83, 93, 10], by decide, by decide⟩,
    ⟨by decide, by simp⟩, ⟨by decide, by decide, by decide⟩, fun h => ?_⟩
  obtain ⟨content', output', hset, hget, hread⟩ := h none [0, 0] 2 (by decide) (by decide)
    (by decide)
  have hkept : setConfigFileStringValue [83] [66] [50] (some [91, 83, 93, 10, 65, 61, 49])
      = .ok (some [91, 83, 93, 10, 65, 61, 49]) := rfl
  rw [hkept, Except.ok.injEq, Option.some.injEq] at hset
  subst hset
  have hnone : getConfigFileStringValue [83] [66] none [0, 0] 2
      (some [91, 83, 93, 10, 65, 61, 49]) = .ok [0, 0] := rfl
  rw [Option.map_none, hnone, Except.ok.injEq] at hget
  subst hget
  exact absurd hread (by decide)

end IpncRdk.SysCfg
