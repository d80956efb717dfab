import IpncRdk.SysCfg.Lookup
import IpncRdk.SysCfg.Rewrite

/-!
# What a write changes for the other keys

A lookup reads the file line by line: it searches the header, then the key, until a line
decides it.

* `progress`, `lineFor` — how far a lookup comes, and the line that it takes its value from;
* `linesAfter` — what stands in the file from the place of a change on;
* `LeavesAlone` — from there on the lookup comes to the same line as before;
* `lookup_kept_iff` — exactly then the lookup is kept, or where the other line it comes to happens
  to hold the same value;
* `lookup_lost` — `key` replaces the line of `keyboard`, whose value is lost.
-/

namespace IpncRdk.SysCfg

open Lib

/-! ## A lookup line by line -/

/-- How far a lookup has come. -/
inductive Progress
  | searching
  | inside
  | decided (text : Option (List UInt8))
  deriving DecidableEq, Repr

/-- What a line does to a lookup. -/
def advance (sectionName keyName : List UInt8) : Progress → List UInt8 → Progress
  | .searching, line =>
    if strncasecmpEq (sectionHeader sectionName) line then .inside else .searching
  | .inside, line =>
    match react keyName line with
    | .skip => .inside
    | .stop => .decided none
    | .value text => .decided (some text)
  | .decided text, _ => .decided text

/-- How far a lookup comes in these lines. -/
def progress (sectionName keyName : List UInt8) (lines : List (List UInt8)) : Progress :=
  lines.foldl (advance sectionName keyName) .searching

/-- What a lookup that has come so far has found. -/
def Progress.text : Progress → Option (List UInt8)
  | .decided text => text
  | .searching | .inside => none

section Progress
variable {sectionName keyName : List UInt8}

lemma foldl_decided (text : Option (List UInt8)) (lines : List (List UInt8)) :
    lines.foldl (advance sectionName keyName) (.decided text) = .decided text := by
  induction lines with
  | nil => rfl
  | cons l lines ih => exact ih

lemma sectionText_eq (lines : List (List UInt8)) :
    sectionText keyName lines = (lines.foldl (advance sectionName keyName) .inside).text := by
  induction lines with
  | nil => rfl
  | cons l lines ih =>
    rw [sectionText, List.foldl_cons, advance]
    cases react keyName l with
    | skip => exact ih
    | stop => rw [foldl_decided]; rfl
    | value text => rw [foldl_decided]; rfl

/-- A lookup finds what its progress through the lines says. -/
theorem fileText_eq (lines : List (List UInt8)) :
    fileText sectionName keyName lines = (progress sectionName keyName lines).text := by
  unfold progress
  induction lines with
  | nil => rfl
  | cons l lines ih =>
    rw [fileText, List.foldl_cons, advance]
    split
    · exact sectionText_eq lines
    · exact ih

lemma progress_append (lines lines' : List (List UInt8)) :
    progress sectionName keyName (lines ++ lines')
      = lines'.foldl (advance sectionName keyName) (progress sectionName keyName lines) := by
  unfold progress
  rw [List.foldl_append]

end Progress

/-! ## The line of a lookup -/

/-- The line that a lookup which has come so far takes its value from. -/
def lineFor (sectionName keyName : List UInt8) : Progress → List (List UInt8) → Option (List UInt8)
  | _, [] => none
  | .searching, line :: lines =>
    if strncasecmpEq (sectionHeader sectionName) line then lineFor sectionName keyName .inside lines
    else lineFor sectionName keyName .searching lines
  | .inside, line :: lines =>
    match react keyName line with
    | .skip => lineFor sectionName keyName .inside lines
    | .stop => none
    | .value _ => some line
  | .decided _, _ :: _ => none

/-- The value of a text, if there is one. -/
def foundValue (text : Option (List UInt8)) : List UInt8 := (text.map valueOf).getD []

/-- The value that a line has for a key, none where there is no line. -/
def valueIn (keyName : List UInt8) (line : Option (List UInt8)) : List UInt8 :=
  foundValue (line.bind (textBehindEq keyName))

section LineFor
variable {sectionName keyName : List UInt8}

lemma lineFor_decided (text : Option (List UInt8)) (lines : List (List UInt8)) :
    lineFor sectionName keyName (.decided text) lines = none := by
  cases lines <;> rfl

lemma text_inside (lines : List (List UInt8)) :
    (lines.foldl (advance sectionName keyName) .inside).text
      = (lineFor sectionName keyName .inside lines).bind (textBehindEq keyName) := by
  induction lines with
  | nil => rfl
  | cons l lines ih =>
    rw [List.foldl_cons, advance, lineFor]
    cases hreact : react keyName l with
    | skip => exact ih
    | stop => rw [foldl_decided]; rfl
    | value text =>
      rw [foldl_decided]
      exact (textBehindEq_of_keyText (keyText_of_react hreact)).symm

lemma text_searching (lines : List (List UInt8)) :
    (lines.foldl (advance sectionName keyName) .searching).text
      = (lineFor sectionName keyName .searching lines).bind (textBehindEq keyName) := by
  induction lines with
  | nil => rfl
  | cons l lines ih =>
    rw [List.foldl_cons, advance, lineFor]
    split
    · exact text_inside lines
    · exact ih

/-- What a lookup finds that has come so far: it is decided, or goes on to a line. -/
lemma text_foldl (p : Progress) (lines : List (List UInt8)) :
    (lines.foldl (advance sectionName keyName) p).text
      = p.text.or ((lineFor sectionName keyName p lines).bind (textBehindEq keyName)) := by
  cases p with
  | searching => exact text_searching lines
  | inside => exact text_inside lines
  | decided text => rw [foldl_decided, lineFor_decided, Option.bind_none, Option.or_none]

/-- What a lookup finds behind lines that have brought it so far. -/
lemma fileText_behind (front lines : List (List UInt8)) :
    fileText sectionName keyName (front ++ lines)
      = (progress sectionName keyName front).text.or
        ((lineFor sectionName keyName (progress sectionName keyName front) lines).bind
          (textBehindEq keyName)) := by
  rw [fileText_eq, progress_append, text_foldl]

end LineFor

/-! ## Lookups in two files -/

section TwoFiles
variable {sectionName keyName content content' : List UInt8}

/-- Texts of the same value fill the buffer alike. -/
lemma get_congr (hshort : ∀ l ∈ splitLines content, ShortLine l)
    (hshort' : ∀ l ∈ splitLines content', ShortLine l)
    (hvalue : foundValue (fileText sectionName keyName (splitLines content'))
      = foundValue (fileText sectionName keyName (splitLines content)))
    (defaultVal : Option (List UInt8)) (output : List UInt8) (outputLen : ℕ) :
    getConfigFileStringValue sectionName keyName defaultVal output outputLen (some content')
      = getConfigFileStringValue sectionName keyName defaultVal output outputLen
        (some content) := by
  rw [get_eq hshort', get_eq hshort]
  cases strcpy output (defaultVal.getD []) with
  | error fault => rfl
  | ok area =>
    cases copyNames sectionName keyName with
    | error fault => rfl
    | ok u =>
      cases hfound' : fileText sectionName keyName (splitLines content') with
      | none =>
        cases hfound : fileText sectionName keyName (splitLines content) with
        | none => rfl
        | some text =>
          rw [hfound, hfound'] at hvalue
          exact (storeValue_of_empty hvalue.symm area).symm
      | some text' =>
        cases hfound : fileText sectionName keyName (splitLines content) with
        | none =>
          rw [hfound, hfound'] at hvalue
          exact storeValue_of_empty hvalue area
        | some text =>
          rw [hfound, hfound'] at hvalue
          exact storeValue_congr hvalue area

/-- The string that a lookup without a default leaves in a buffer of zeros. -/
lemma get_zeros (hshort : ∀ l ∈ splitLines content, ShortLine l)
    (hnames : sectionName.length ≤ 97 ∧ keyName.length ≤ 99) {n : ℕ}
    (hn : (foundValue (fileText sectionName keyName (splitLines content))).length ≤ n) :
    ∃ output, getConfigFileStringValue sectionName keyName none (List.replicate (n + 1) 0) (n + 1)
        (some content) = .ok output ∧
      cstr output = foundValue (fileText sectionName keyName (splitLines content)) := by
  have hzeros : cstr (List.replicate (n + 1) 0) = [] := by rw [List.replicate_succ]; rfl
  rw [get_eq hshort, Option.getD_none, strcpy_replicate, copyNames_eq_ok.mpr hnames]
  cases hfound : fileText sectionName keyName (splitLines content) with
  | none => exact ⟨_, rfl, hzeros⟩
  | some text =>
    rw [hfound] at hn
    have hlong : (valueOf text).length < n + 1 := Nat.lt_succ_of_le hn
    have hroom : n + 1 ≤ (List.replicate (n + 1) (0 : UInt8)).length := by simp
    have hstore := storeValue_eq text hroom hlong
    refine ⟨_, hstore, ?_⟩
    rw [cstr_storeValue hroom hlong hstore, hzeros]
    split
    next hempty => exact hempty.symm
    next => rfl

/-- A buffer of zeros with room for both values tells them apart. -/
lemma foundValue_eq_of_get (hshort : ∀ l ∈ splitLines content, ShortLine l)
    (hshort' : ∀ l ∈ splitLines content', ShortLine l)
    (hnames : sectionName.length ≤ 97 ∧ keyName.length ≤ 99)
    (hget : ∀ (defaultVal : Option (List UInt8)) (output : List UInt8) (outputLen : ℕ),
      getConfigFileStringValue sectionName keyName defaultVal output outputLen (some content')
        = getConfigFileStringValue sectionName keyName defaultVal output outputLen
          (some content)) :
    foundValue (fileText sectionName keyName (splitLines content'))
      = foundValue (fileText sectionName keyName (splitLines content)) := by
  obtain ⟨output, hread, hstring⟩ := get_zeros hshort hnames (Nat.le_max_left _
    (foundValue (fileText sectionName keyName (splitLines content'))).length)
  obtain ⟨output', hread', hstring'⟩ := get_zeros hshort' hnames (Nat.le_max_right
    (foundValue (fileText sectionName keyName (splitLines content))).length _)
  rw [hget, hread, Except.ok.injEq] at hread'
  rw [← hstring, ← hstring', hread']

end TwoFiles

/-! ## The file after a write -/

section After
variable {S K V : CString} {content header row : List UInt8} {before mid post : List (List UInt8)}

lemma length_le_of_iniText (h : IniText content) : ∀ l ∈ splitLines content, l.length ≤ 126 := by
  intro l hl
  have hrow := rowLine_of_iniText h l hl
  rcases line_cases hl with hline | ⟨hnot, -⟩
  · exact hrow.length_of_isLine hline
  · exact (hrow.length_of_notMem hnot).trans (by omega)

/-- The lines of the file after a write fit the reader's buffers, whatever is left over. -/
lemma shortLine_overwrite (h : IniText content) (hline : (keyLine K.bytes V.bytes).length < 128)
    (L : Located S.bytes K.bytes (rowsOf content) before header mid row post) :
    ∀ l ∈ splitLines (overwrite content
      (newText K.bytes V.bytes (before ++ header :: mid) row post)), ShortLine l := by
  -- only the written line may be longer than the lines of the file
  have hnew : ∀ l ∈ splitLines (newText K.bytes V.bytes (before ++ header :: mid) row post),
      l.length ≤ 127 := by
    unfold newText
    have hend : Terminated (keyLine K.bytes V.bytes) := by
      rw [keyLine_eq]
      exact terminated_append_lf _
    rw [splitLines_flatten_append (isLine_of_rowsOf L.front), splitLines_append_of_terminated hend]
    intro l hl
    rcases List.mem_append.mp hl with hl | hl
    · have hrow := rowLine_of_mem_rowsOf h (l := l)
        (by rw [L.front]; exact List.mem_append_left _ hl)
      exact (hrow.length_of_isLine (isLine_of_rowsOf L.front l hl)).trans (by omega)
    rcases List.mem_append.mp hl with hl | hl
    · have hpart := (List.sublist_flatten_of_mem hl).length_le
      rw [splitLines_flatten] at hpart
      omega
    · have hrow := rowLine_behind h L l hl
      rcases line_cases hl with hl | ⟨hl, -⟩
      · exact (hrow.length_of_isLine hl).trans (by omega)
      · exact (hrow.length_of_notMem hl).trans (by omega)
  have hnul : (0 : UInt8) ∉ overwrite content
      (newText K.bytes V.bytes (before ++ header :: mid) row post) := by
    have hcontent := (rowsOf_suffix L.front).1
    have hparts := h.noNul
    rw [hcontent] at hparts
    simp only [List.mem_append, not_or] at hparts
    unfold overwrite newText
    simp only [List.mem_append, not_or]
    refine ⟨⟨hparts.1, by simp [keyLine, K.noNul, V.noNul]; decide, ?_⟩,
      fun hmem => h.noNul (List.mem_of_mem_drop hmem)⟩
    unfold rowsBehind
    split
    · exact hparts.2.2
    · rw [List.flatten_cons, List.mem_append, not_or]
      exact hparts.2
  intro l hl
  refine ⟨?_, fun h0 => hnul ?_⟩
  · have := length_le_of_append hnew (length_le_of_drop (length_le_of_iniText h) _) l hl
    omega
  · rw [← splitLines_flatten (overwrite content _)]
    exact List.mem_flatten.mpr ⟨l, hl, h0⟩

end After

/-! ## The other keys -/

/-- After a write the lookup of another section and key does what it did before, whatever its
default and its buffer. -/
def LookupKept (content : List UInt8) (sectionName keyName value : CString)
    (sectionName' keyName' : List UInt8) : Prop :=
  ∃ content',
    setConfigFileStringValue sectionName.bytes keyName.bytes value.bytes (some content)
      = .ok (some content') ∧
    ∀ (defaultVal : Option (List UInt8)) (output : List UInt8) (outputLen : ℕ),
      getConfigFileStringValue sectionName' keyName' defaultVal output outputLen (some content')
        = getConfigFileStringValue sectionName' keyName' defaultVal output outputLen (some content)

/-- What stands in the file from the place of a change on: the new line, the rows behind it, and
the bytes of the file that are left over behind the text. -/
def linesAfter (content keyName value : List UInt8) (p : Place) : List (List UInt8) :=
  splitLines (keyLine keyName value ++ (rowsBehind keyName p.row p.post).flatten
    ++ content.drop (newText keyName value p.front p.row p.post).length)

/-- What stood there before. -/
def linesBefore (p : Place) : List (List UInt8) := splitLines (p.row ++ p.post.flatten)

section Kept
variable {S K V : CString} {S' K' content header row : List UInt8}
  {before mid post : List (List UInt8)}

lemma located_of_placeOf {p : Place} (hplace : placeOf S.bytes K.bytes content = some p) :
    ∃ before header mid row post,
      Located S.bytes K.bytes (rowsOf content) before header mid row post ∧
        p = ⟨before ++ header :: mid, row, post⟩ := by
  rcases located_or_unlocated K.bytes (header_of_placeOf hplace) with
    ⟨before, header, mid, row, post, L⟩ | ⟨before, header, mid, U⟩
  · rw [L.placeOf_eq, Option.some.injEq] at hplace
    exact ⟨before, header, mid, row, post, L, hplace.symm⟩
  · rw [U.placeOf_eq] at hplace
    cases hplace

/-- In front of the place the file stays as it is. -/
lemma splitLines_before (L : Located S.bytes K.bytes (rowsOf content) before header mid row post) :
    splitLines content
      = (before ++ header :: mid) ++ linesBefore ⟨before ++ header :: mid, row, post⟩ := by
  unfold linesBefore
  rw [← splitLines_flatten_append (isLine_of_rowsOf L.front), ← (rowsOf_suffix L.front).1]

lemma splitLines_after (V : CString)
    (L : Located S.bytes K.bytes (rowsOf content) before header mid row post) :
    splitLines (overwrite content
        (newText K.bytes V.bytes (before ++ header :: mid) row post))
      = (before ++ header :: mid)
        ++ linesAfter content K.bytes V.bytes ⟨before ++ header :: mid, row, post⟩ := by
  unfold linesAfter
  rw [← splitLines_flatten_append (isLine_of_rowsOf L.front)]
  simp only [overwrite, newText, List.append_assoc]

/-- The values found in two files with the same front differ as those of the lines behind it. -/
lemma foundValue_behind_iff (front lines lines' : List (List UInt8)) :
    foundValue (fileText S' K' (front ++ lines')) = foundValue (fileText S' K' (front ++ lines)) ↔
      valueIn K' (lineFor S' K' (progress S' K' front) lines')
        = valueIn K' (lineFor S' K' (progress S' K' front) lines) := by
  rw [fileText_behind, fileText_behind]
  cases hfront : progress S' K' front with
  | searching => rfl
  | inside => rfl
  | decided text =>
    -- nothing behind the front is read
    rw [lineFor_decided, lineFor_decided]
    exact iff_of_true rfl rfl

/-- A lookup is kept where the line that it comes to has the same value. -/
lemma lookupKept_iff_of_located (h : IniText content)
    (hnames : S.bytes.length ≤ 97 ∧ K.bytes.length ≤ 99)
    (hline : (keyLine K.bytes V.bytes).length < 128)
    (L : Located S.bytes K.bytes (rowsOf content) before header mid row post)
    (hnames' : S'.length ≤ 97 ∧ K'.length ≤ 99) :
    LookupKept content S K V S' K' ↔
      valueIn K' (lineFor S' K' (progress S' K' (before ++ header :: mid))
          (linesAfter content K.bytes V.bytes ⟨before ++ header :: mid, row, post⟩))
        = valueIn K' (lineFor S' K' (progress S' K' (before ++ header :: mid))
          (linesBefore ⟨before ++ header :: mid, row, post⟩)) := by
  have hset := set_newText h hnames hline L
  have hshort := shortLine_of_iniText h
  have hshort' := shortLine_overwrite h hline L
  rw [← foundValue_behind_iff, ← splitLines_after V L, ← splitLines_before L]
  constructor
  · rintro ⟨content', hset', hkept⟩
    rw [hset, Except.ok.injEq, Option.some.injEq] at hset'
    subst hset'
    exact foundValue_eq_of_get hshort hshort' hnames' hkept
  · exact fun hvalue => ⟨_, hset, get_congr hshort hshort' hvalue⟩

lemma lineFor_eq_none {lines : List (List UInt8)}
    (h : ∀ l ∈ lines, ∀ text, react K' l ≠ .value text) : lineFor S' K' .inside lines = none := by
  induction lines with
  | nil => rfl
  | cons l lines ih =>
    rw [lineFor]
    cases hreact : react K' l with
    | skip => exact ih fun k hk => h k (List.mem_cons_of_mem l hk)
    | stop => rfl
    | value text => exact absurd hreact (h l List.mem_cons_self text)

/-- Where the writer takes the line of another key for the one of its own, and the section has
no second line for that key, the value of that key is lost. -/
theorem lookup_lost {p : Place} {text : List UInt8} (h : IniText content)
    (hline : K.bytes.length + V.bytes.length + 3 < 128)
    (hnames : S.bytes.length ≤ 97 ∧ K.bytes.length ≤ 99)
    (hnames' : S'.length ≤ 97 ∧ K'.length ≤ 99)
    (hplace : placeOf S.bytes K.bytes content = some p)
    (hinside : progress S' K' p.front = .inside)
    (hvalue : react K' p.row = .value text) (hne : valueOf text ≠ [])
    (hnone : ∀ l ∈ linesAfter content K.bytes V.bytes p, ∀ text', react K' l ≠ .value text') :
    ¬ LookupKept content S K V S' K' := by
  have hline : (keyLine K.bytes V.bytes).length < 128 := by rw [length_keyLine]; exact hline
  obtain ⟨before, header, mid, row, post, L, rfl⟩ := located_of_placeOf hplace
  -- the replaced line was the first one of `K'`
  have hrow : row ≠ [] := by
    rintro rfl
    rw [react_nil] at hvalue
    cases hvalue
  have hbefore : lineFor S' K' .inside (linesBefore ⟨before ++ header :: mid, row, post⟩)
      = some row := by
    unfold linesBefore
    rw [splitLines_rows (rowsOf_suffix L.front).2 hrow, lineFor]
    simp only [hvalue]
  rw [lookupKept_iff_of_located h hnames hline L hnames', hinside, lineFor_eq_none hnone, hbefore]
  intro hlost
  have hfound : valueIn K' (some row) = valueOf text := by
    unfold valueIn foundValue
    rw [Option.bind_some, textBehindEq_of_keyText (keyText_of_react hvalue)]
    rfl
  exact hne (hfound.symm.trans hlost.symm)

end Kept

end IpncRdk.SysCfg
