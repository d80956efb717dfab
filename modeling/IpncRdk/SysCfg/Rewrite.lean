import IpncRdk.SysCfg.WriteRead

/-!
# What a write leaves of the file

The rows are written over the file from its start, and the file is not cut behind them. So a
line replaced by a shorter one leaves as many bytes at the end of the file; a line replaced by
one that is not shorter, or inserted, does not.
-/

namespace IpncRdk.SysCfg

open Lib

/-! ## The promise -/

/-- In these lines one line behind a header of the section has been replaced by the given one,
or the given one has been inserted there. -/
def OneLineChanged (sectionName line : List UInt8) (lines lines' : List (List UInt8)) : Prop :=
  ∃ pre post, (∃ l ∈ pre, strncasecmpEq (sectionHeader sectionName) l = true) ∧
    lines' = pre ++ line :: post ∧ (lines = pre ++ post ∨ ∃ old, lines = pre ++ old :: post)

/-- The write changes one line and nothing else, and a second write changes nothing. -/
def RewritesExactly (content : List UInt8) (sectionName keyName value : CString) : Prop :=
  ∃ content',
    setConfigFileStringValue sectionName.bytes keyName.bytes value.bytes (some content)
      = .ok (some content') ∧
    OneLineChanged sectionName.bytes (keyLine keyName.bytes value.bytes) (splitLines content)
      (splitLines content') ∧
    setConfigFileStringValue sectionName.bytes keyName.bytes value.bytes (some content')
      = .ok (some content')

/-- The names fit their buffers, key and value stay on a line that is read back whole, the
search ends at a row, the line replaced there is not longer than the new one, and a line
inserted there finds a free row. -/
structure Rewritable (content : List UInt8) (sectionName keyName value : CString) : Prop where
  names : sectionName.bytes.length ≤ 97 ∧ keyName.bytes.length ≤ 99
  noBreak : lf ∉ keyName.bytes ∧ lf ∉ value.bytes
  line : (keyLine keyName.bytes value.bytes).length ≤ 126
  place : ∃ p, placeOf sectionName.bytes keyName.bytes content = some p ∧
    (strncasecmpEq keyName.bytes p.row = true →
      p.row.length ≤ (keyLine keyName.bytes value.bytes).length) ∧
    (strncasecmpEq keyName.bytes p.row = true ∧ p.row ≠ [] ∨ (rowsOf content).length < maxRows)

/-! ## Rows and lines -/

section Rows
variable {content row : List UInt8} {pre post : List (List UInt8)}

lemma rowsOf_flatten_append {ls : List (List UInt8)} (h : ∀ l ∈ ls, IsLine l)
    (rest : List UInt8) : rowsOf (ls.flatten ++ rest) = ls ++ rowsOf rest := by
  induction ls with
  | nil => rfl
  | cons l ls ih =>
    rw [List.flatten_cons, List.append_assoc, rowsOf_append (h l List.mem_cons_self),
      ih fun k hk => h k (List.mem_cons_of_mem l hk), List.cons_append]

/-- The content from a row on has the rows from there on. -/
lemma rowsOf_suffix (h : rowsOf content = pre ++ row :: post) :
    content = pre.flatten ++ (row ++ post.flatten) ∧
      rowsOf (row ++ post.flatten) = row :: post := by
  have hcontent : content = pre.flatten ++ (row ++ post.flatten) := by
    have := flatten_rowsOf content
    rw [h] at this
    rw [← this]
    simp
  refine ⟨hcontent, ?_⟩
  have hrows := rowsOf_flatten_append (isLine_of_rowsOf h) (row ++ post.flatten)
  rw [← hcontent, h] at hrows
  exact (List.append_cancel_left hrows).symm

/-- The first row of a text is empty with the text, a line, or all of it. -/
lemma first_row (h : rowsOf content = row :: post) :
    (content = [] ∧ row = [] ∧ post = []) ∨ (IsLine row ∧ post = rowsOf post.flatten) ∨
      (lf ∉ row ∧ row ≠ [] ∧ post = []) := by
  induction content using lineInduction with
  | nil =>
    left
    simp only [rowsOf, splitLines, endRow, true_or, if_true, List.nil_append, List.cons.injEq] at h
    exact ⟨rfl, h.1.symm, h.2.symm⟩
  | line l rest hl _ =>
    rw [rowsOf_append hl, List.cons.injEq] at h
    refine Or.inr (Or.inl ⟨h.1 ▸ hl, ?_⟩)
    rw [← h.2, flatten_rowsOf]
  | last body hne hbody =>
    rw [rowsOf_of_notMem hne hbody, List.cons.injEq] at h
    exact Or.inr (Or.inr ⟨h.1 ▸ hbody, h.1 ▸ hne, h.2.symm⟩)

/-- The lines from a row on. -/
lemma splitLines_rows (h : rowsOf content = row :: post) (hne : row ≠ []) :
    splitLines content = row :: splitLines post.flatten := by
  have hcontent : content = row ++ post.flatten := by
    rw [← flatten_rowsOf content, h, List.flatten_cons]
  rcases first_row h with ⟨-, hnil, -⟩ | ⟨hline, -⟩ | ⟨hlf, -, rfl⟩
  · exact absurd hnil hne
  · rw [hcontent, splitLines_append hline]
  · rw [hcontent, List.flatten_nil, List.append_nil, splitLines_of_notMem hne hlf]
    rfl

end Rows

/-! ## The new text -/

/-- The rows as they are written, in one text. -/
def newText (key value : List UInt8) (front : List (List UInt8)) (row : List UInt8)
    (post : List (List UInt8)) : List UInt8 :=
  front.flatten ++ (keyLine key value ++ (rowsBehind key row post).flatten)

section NewText
variable {S key value content header row : List UInt8} {before mid post : List (List UInt8)}

lemma flatten_eq_newText :
    (before ++ header :: (mid ++ keyLine key value :: rowsBehind key row post)).flatten
      = newText key value (before ++ header :: mid) row post := by
  simp [newText]

/-- The line that a replaced row holds; a row read at the end of the file holds none. -/
def replacedLine (key row : List UInt8) : List (List UInt8) :=
  if strncasecmpEq key row = true ∧ row ≠ [] then [row] else []

/-- The lines in front of the change, the replaced one, and those behind it. -/
lemma splitLines_located (L : Located S key (rowsOf content) before header mid row post) :
    splitLines content
      = (before ++ header :: mid)
        ++ (replacedLine key row ++ splitLines (rowsBehind key row post).flatten) := by
  obtain ⟨hcontent, hsuffix⟩ := rowsOf_suffix L.front
  have hlines := splitLines_flatten_append (isLine_of_rowsOf L.front) (row ++ post.flatten)
  rw [← hcontent] at hlines
  rw [hlines]
  unfold rowsBehind replacedLine
  by_cases hkey : strncasecmpEq key row = true
  · by_cases hne : row = []
    · rw [if_pos hkey, if_neg fun h => h.2 hne, hne]
      rfl
    · rw [if_pos hkey, if_pos ⟨hkey, hne⟩, splitLines_rows hsuffix hne]
      rfl
  · rw [if_neg hkey, if_neg fun h => hkey h.1, List.flatten_cons]
    rfl

lemma splitLines_newText (L : Located S key (rowsOf content) before header mid row post)
    (hline : IsLine (keyLine key value)) :
    splitLines (newText key value (before ++ header :: mid) row post)
      = (before ++ header :: mid)
        ++ keyLine key value :: splitLines (rowsBehind key row post).flatten := by
  unfold newText
  rw [splitLines_flatten_append (isLine_of_rowsOf L.front), splitLines_append hline]

/-- One line is replaced or inserted. -/
lemma oneLineChanged_newText (L : Located S key (rowsOf content) before header mid row post)
    (hline : IsLine (keyLine key value)) :
    OneLineChanged S (keyLine key value) (splitLines content)
      (splitLines (newText key value (before ++ header :: mid) row post)) := by
  refine ⟨before ++ header :: mid, splitLines (rowsBehind key row post).flatten,
    ⟨header, by simp, L.header⟩, splitLines_newText L hline, ?_⟩
  rw [splitLines_located L]
  unfold replacedLine
  split
  · exact Or.inr ⟨row, rfl⟩
  · exact Or.inl rfl

lemma length_newText (value : List UInt8)
    (L : Located S key (rowsOf content) before header mid row post) :
    (newText key value (before ++ header :: mid) row post).length
        + (if strncasecmpEq key row then row.length else 0)
      = content.length + (keyLine key value).length := by
  have hcontent := congrArg List.length (rowsOf_suffix L.front).1
  unfold newText rowsBehind
  rw [List.length_append, List.length_append] at hcontent ⊢
  split
  · omega
  · rw [List.flatten_cons, List.length_append]
    omega

lemma length_le_newText (L : Located S key (rowsOf content) before header mid row post)
    (hlonger : strncasecmpEq key row = true → row.length ≤ (keyLine key value).length) :
    content.length ≤ (newText key value (before ++ header :: mid) row post).length := by
  have hlen := length_newText value L
  by_cases hkey : strncasecmpEq key row = true
  · rw [if_pos hkey] at hlen
    have := hlonger hkey
    omega
  · rw [if_neg hkey] at hlen
    omega

lemma overwrite_of_le {text : List UInt8} (h : content.length ≤ text.length) :
    overwrite content text = text := by
  unfold overwrite
  rw [List.drop_eq_nil_of_le h, List.append_nil]

/-- The search finds the line that has been written. -/
lemma located_newText (L : Located S key (rowsOf content) before header mid row post)
    (hline : IsLine (keyLine key value)) :
    Located S key (rowsOf (newText key value (before ++ header :: mid) row post)) before header mid
      (keyLine key value) (rowsOf (rowsBehind key row post).flatten) where
  rows := by
    unfold newText
    rw [rowsOf_flatten_append (isLine_of_rowsOf L.front), rowsOf_append hline]
    simp
  noHeader := L.noHeader
  header := L.header
  passed := L.passed
  place := by
    unfold isPlace keyLine
    rw [strncasecmpEq_append, Bool.true_or]

/-- Writing the line once more gives the same text. -/
lemma newText_twice {front : List (List UInt8)} :
    newText key value front (keyLine key value) (rowsOf (rowsBehind key row post).flatten)
      = newText key value front row post := by
  have hbehind : rowsBehind key (keyLine key value) (rowsOf (rowsBehind key row post).flatten)
      = rowsOf (rowsBehind key row post).flatten := if_pos (strncasecmpEq_append key _)
  rw [newText, hbehind, flatten_rowsOf]
  rfl

/-- How many rows the new text has. -/
lemma length_rowsOf_newText (L : Located S key (rowsOf content) before header mid row post)
    (hline : IsLine (keyLine key value)) :
    (rowsOf (newText key value (before ++ header :: mid) row post)).length
      = before.length + mid.length + 2 + (rowsOf (rowsBehind key row post).flatten).length := by
  rw [(located_newText L hline).rows]
  simp
  omega

lemma length_rowsOf_located (L : Located S key (rowsOf content) before header mid row post) :
    (rowsOf content).length = before.length + mid.length + 2 + post.length := by
  rw [L.rows]
  simp
  omega

/-- An inserted line takes one more row. -/
lemma length_rowsOf_inserted (L : Located S key (rowsOf content) before header mid row post)
    (hinsert : ¬ (strncasecmpEq key row = true ∧ row ≠ [])) :
    (rowsOf (rowsBehind key row post).flatten).length = post.length + 1 := by
  obtain ⟨-, hsuffix⟩ := rowsOf_suffix L.front
  unfold rowsBehind
  split
  next hkey =>
    -- a row that matches and is not replaced is the empty one behind the file
    have hnil : row = [] := by
      by_contra hne
      exact hinsert ⟨hkey, hne⟩
    subst hnil
    rcases first_row hsuffix with ⟨-, -, rfl⟩ | ⟨⟨body, h, -⟩, -⟩ | ⟨-, hne, -⟩
    · rfl
    · simp at h
    · exact absurd rfl hne
  next => rw [List.flatten_cons, hsuffix, List.length_cons]

/-- A replaced line takes no more, unless it was the last one and had no newline. -/
lemma length_rowsOf_replaced (h : IniText content)
    (L : Located S key (rowsOf content) before header mid row post)
    (hkey : strncasecmpEq key row = true) (hne : row ≠ []) :
    before.length + mid.length + 2 + (rowsOf (rowsBehind key row post).flatten).length
      ≤ maxRows := by
  obtain ⟨-, hsuffix⟩ := rowsOf_suffix L.front
  have hcount := length_rowsOf_located L
  have hle := length_rowsOf_le h
  unfold rowsBehind
  rw [if_pos hkey]
  rcases first_row hsuffix with ⟨-, hnil, -⟩ | ⟨-, hpost⟩ | ⟨hlf, -, rfl⟩
  · exact absurd hnil hne
  · rw [← hpost]
    omega
  · -- the last line had no newline, and the table one row more than the file lines
    have hlines := h.lines
    have hend : endRow content = [] := by
      unfold endRow
      rw [if_neg]
      rintro (hnil | hlast)
      · rw [hnil] at hcount
        simp [rowsOf, splitLines, endRow] at hcount
      · have hcontent := (rowsOf_suffix L.front).1
        rw [List.flatten_nil, List.append_nil] at hcontent
        rw [hcontent, List.getLast?_append_of_ne_nil _ hne] at hlast
        exact hlf (List.mem_of_getLast? hlast)
    unfold rowsOf at hcount
    rw [hend, List.append_nil] at hcount
    simp [rowsOf, splitLines, endRow] at hcount ⊢
    unfold maxRows
    omega

/-! ## Where the write is exact -/

lemma mem_of_oneLineChanged {line l : List UInt8} {lines lines' : List (List UInt8)}
    (h : OneLineChanged S line lines lines') (hl : l ∈ lines') : l = line ∨ l ∈ lines := by
  obtain ⟨pre, post, -, rfl, hlines⟩ := h
  have hmem : l ∈ pre ∨ l = line ∨ l ∈ post := by simpa using hl
  rcases hlines with rfl | ⟨old, rfl⟩ <;>
    · simp only [List.mem_append, List.mem_cons]
      tauto

lemma rowLine_keyLine (hline : IsLine (keyLine key value))
    (hlength : (keyLine key value).length ≤ 126) (hkey : (0 : UInt8) ∉ key)
    (hvalue : (0 : UInt8) ∉ value) : RowLine (keyLine key value) := by
  refine ⟨?_, by simp [keyLine, hkey, hvalue]; decide⟩
  obtain ⟨body, hbody, -⟩ := hline
  rw [hbody] at hlength ⊢
  have := List.length_filter_le (· != lf) body
  rw [List.filter_append, List.filter_cons_of_neg (by simp)]
  simp at hlength ⊢
  omega

end NewText

section Exact
variable {S K V : CString} {content header row : List UInt8} {before mid post : List (List UInt8)}

/-- The first write, where the line fits a row. -/
lemma set_newText (h : IniText content) (hnames : S.bytes.length ≤ 97 ∧ K.bytes.length ≤ 99)
    (hline : (keyLine K.bytes V.bytes).length < 128)
    (L : Located S.bytes K.bytes (rowsOf content) before header mid row post) :
    setConfigFileStringValue S.bytes K.bytes V.bytes (some content)
      = .ok (some (overwrite content
          (newText K.bytes V.bytes (before ++ header :: mid) row post))) := by
  rw [set_of_located hnames (readRows_of_iniText h) L hline, flatten_eq_newText]

lemma rowLine_newText (h : IniText content) (hline : IsLine (keyLine K.bytes V.bytes))
    (hlength : (keyLine K.bytes V.bytes).length ≤ 126)
    (L : Located S.bytes K.bytes (rowsOf content) before header mid row post) :
    ∀ l ∈ splitLines (newText K.bytes V.bytes (before ++ header :: mid) row post), RowLine l := by
  intro l hl
  rcases mem_of_oneLineChanged (oneLineChanged_newText L hline) hl with rfl | hold
  · exact rowLine_keyLine hline hlength K.noNul V.noNul
  · exact rowLine_of_iniText h l hold

theorem rewritesExactly_of_rewritable (h : IniText content)
    (hnames : S.bytes.length ≤ 97 ∧ K.bytes.length ≤ 99)
    (hline : IsLine (keyLine K.bytes V.bytes))
    (hlength : (keyLine K.bytes V.bytes).length ≤ 126)
    (L : Located S.bytes K.bytes (rowsOf content) before header mid row post)
    (hlonger : strncasecmpEq K.bytes row = true →
      row.length ≤ (keyLine K.bytes V.bytes).length)
    (hroom : strncasecmpEq K.bytes row = true ∧ row ≠ [] ∨ (rowsOf content).length < maxRows) :
    RewritesExactly content S K V := by
  have hset := set_newText (V := V) h hnames (by omega) L
  rw [overwrite_of_le (length_le_newText L hlonger)] at hset
  refine ⟨_, hset, oneLineChanged_newText L hline, ?_⟩
  have hcount : (rowsOf (newText K.bytes V.bytes (before ++ header :: mid) row post)).length
      ≤ maxRows := by
    rw [length_rowsOf_newText L hline]
    by_cases hreplace : strncasecmpEq K.bytes row = true ∧ row ≠ []
    · exact length_rowsOf_replaced h L hreplace.1 hreplace.2
    · have := hroom.resolve_left hreplace
      rw [length_rowsOf_located L] at this
      rw [length_rowsOf_inserted L hreplace]
      omega
  -- the second write finds its own line at the same place
  have hread := readRows_eq _ (rowLine_newText h hline hlength L) maxRows []
  rw [if_pos hcount] at hread
  rw [set_of_located hnames hread (located_newText L hline) (by omega), flatten_eq_newText,
    newText_twice, overwrite_self]

/-! ## Where it is not -/

/-- Two texts that differ in one block of the same length agree outside of it. -/
lemma getElem?_outside {a old new b : List UInt8} (hlen : old.length = new.length) {n : ℕ}
    (hn : n < a.length ∨ a.length + new.length ≤ n) :
    (a ++ (old ++ b))[n]? = (a ++ (new ++ b))[n]? := by
  rcases hn with hn | hn
  · rw [List.getElem?_append_left hn, List.getElem?_append_left hn]
  · rw [List.getElem?_append_right (by omega), List.getElem?_append_right (by omega),
      List.getElem?_append_right (by omega), List.getElem?_append_right (by omega), hlen]

/-- A newline is the last byte of a row. -/
lemma succ_eq_length_of_lf (hrow : IsLine row ∨ lf ∉ row) {i : ℕ} (h : row[i]? = some lf) :
    i + 1 = row.length := by
  rcases hrow with ⟨body, rfl, hbody⟩ | hnot
  · by_contra hne
    have hi : i < (body ++ [lf]).length := (List.getElem?_eq_some_iff.mp h).1
    rw [List.length_append, List.length_singleton] at hi hne
    rw [List.getElem?_append_left (by omega)] at h
    exact hbody (List.mem_of_getElem? h)
  · exact absurd (List.mem_of_getElem? h) hnot

/-- The new line ends in a newline. -/
lemma getElem?_newText {front : List (List UInt8)} (hline : IsLine (keyLine K.bytes V.bytes)) :
    (overwrite content (newText K.bytes V.bytes front row post))[front.flatten.length
      + ((keyLine K.bytes V.bytes).length - 1)]? = some lf := by
  have hpos := hline.length_pos
  obtain ⟨body, hbody, -⟩ := hline
  unfold overwrite newText
  rw [List.append_assoc, List.getElem?_append_right (by omega), List.append_assoc,
    List.getElem?_append_left (by omega), hbody]
  simp

/-- A longer row has no newline where a shorter line would end. -/
lemma getElem?_row {front : List (List UInt8)} {n : ℕ} (hrow : IsLine row ∨ lf ∉ row)
    (hcontent : content = front.flatten ++ (row ++ post.flatten)) (hn : n + 1 < row.length) :
    content[front.flatten.length + n]? ≠ some lf := by
  rw [hcontent, List.getElem?_append_right (by omega), List.getElem?_append_left (by omega)]
  intro h
  have := succ_eq_length_of_lf hrow h
  omega

/-- A line replaced by a shorter one leaves bytes behind the new text, and then no other line
can account for the difference. -/
lemma not_oneLineChanged_of_shorter (hline : IsLine (keyLine K.bytes V.bytes))
    (L : Located S.bytes K.bytes (rowsOf content) before header mid row post)
    (hkey : strncasecmpEq K.bytes row = true)
    (hshorter : (keyLine K.bytes V.bytes).length < row.length) :
    ¬ OneLineChanged S.bytes (keyLine K.bytes V.bytes) (splitLines content)
      (splitLines (overwrite content
        (newText K.bytes V.bytes (before ++ header :: mid) row post))) := by
  rintro ⟨pre, after, -, hlines', hlines⟩
  have hlen := length_newText V.bytes L
  have hpos := hline.length_pos
  have hne : row ≠ [] := List.ne_nil_of_length_pos (by omega)
  obtain ⟨hcontent, hsuffix⟩ := rowsOf_suffix L.front
  have hrow : IsLine row ∨ lf ∉ row := by
    rcases first_row hsuffix with ⟨-, hnil, -⟩ | ⟨hl, -⟩ | ⟨hl, -⟩
    · exact absurd hnil hne
    · exact Or.inl hl
    · exact Or.inr hl
  have hfront : splitLines content
      = (before ++ header :: mid) ++ row :: splitLines post.flatten := by
    have := splitLines_located L
    rwa [replacedLine, if_pos ⟨hkey, hne⟩, rowsBehind, if_pos hkey, List.singleton_append] at this
  rw [if_pos hkey] at hlen
  generalize before ++ header :: mid = front at *
  have htext := flatten_of_splitLines hlines'
  have hlength : (overwrite content (newText K.bytes V.bytes front row post)).length
      = content.length := by
    unfold overwrite
    rw [List.length_append, List.length_drop]
    omega
  rw [List.flatten_append, List.flatten_cons] at htext
  rw [htext] at hlength
  rcases hlines with hlines | ⟨old, hlines⟩
  · -- an inserted line would have made the file longer
    have hold := congrArg List.length (flatten_of_splitLines hlines)
    simp only [List.flatten_append, List.length_append] at hold hlength
    omega
  · have hold := flatten_of_splitLines hlines
    rw [List.flatten_append, List.flatten_cons] at hold
    have hsame : old.length = (keyLine K.bytes V.bytes).length := by
      have := congrArg List.length hold
      simp only [List.length_append] at this hlength
      omega
    -- the end of the new line lies in the replaced one, so outside of any other
    have hold' : content[front.flatten.length + ((keyLine K.bytes V.bytes).length - 1)]?
        ≠ some lf := getElem?_row hrow hcontent (by omega)
    have hnew : (overwrite content (newText K.bytes V.bytes front row post))[front.flatten.length
        + ((keyLine K.bytes V.bytes).length - 1)]? = some lf := getElem?_newText hline
    apply hold'
    rw [← hnew, htext]
    conv_lhs => rw [hold]
    apply getElem?_outside hsame
    rw [hfront] at hlines
    have hapart := apart_of_length_ne hlines (by omega)
    omega

/-- The rows of whole lines in front of a text. -/
lemma readRows_lines {front : List (List UInt8)} (hlines : ∀ l ∈ front, IsLine l)
    (hrows : ∀ l ∈ front, RowLine l) (free : ℕ) (done rest : List UInt8) :
    readRows (free + front.length) ⟨done, front.flatten ++ rest, false, false⟩
      = (readRows free ⟨done ++ front.flatten, rest, false, false⟩).map
          fun result => (front ++ result.1, result.2) := by
  induction front generalizing done with
  | nil =>
    rw [List.length_nil, List.flatten_nil, List.nil_append, List.append_nil]
    cases readRows free ⟨done, rest, false, false⟩ <;> rfl
  | cons l front ih =>
    have hl := hrows l List.mem_cons_self
    have hlen := hl.length_of_isLine (hlines l List.mem_cons_self)
    rw [List.length_cons, ← Nat.add_assoc, List.flatten_cons, List.append_assoc, readRows,
      fgets_line (hlines l List.mem_cons_self) (by omega), if_neg Bool.false_ne_true,
      ih (fun k hk => hlines k (List.mem_cons_of_mem l hk))
        (fun k hk => hrows k (List.mem_cons_of_mem l hk)),
      List.append_assoc, cstr_of_noNul hl.noNul]
    cases readRows free ⟨done ++ (l ++ front.flatten), rest, false, false⟩ <;> rfl

/-- A line of 127 bytes takes two rows: its newline does not fit the first one. -/
lemma readRows_split {body rest done : List UInt8} {free : ℕ} {rows : List (List UInt8)}
    {fp : Stream} (hbody : lf ∉ body) (hlen : body.length = 126) (h0 : (0 : UInt8) ∉ body)
    (h : readRows free ⟨done, body ++ [lf] ++ rest, false, false⟩ = .ok (rows, fp)) :
    ∃ free' rows', readRows free' ⟨done ++ body ++ [lf], rest, false, false⟩ = .ok (rows', fp) ∧
      rows = body :: [lf] :: rows' := by
  have hfirst : fgets 127 ⟨done, body ++ [lf] ++ rest, false, false⟩
      = (body, ⟨done ++ body, [lf] ++ rest, false, false⟩) := by
    obtain ⟨htake, hout⟩ := takeLine_full hbody hlen.ge ([lf] ++ rest)
    rw [List.take_of_length_le hlen.le] at htake
    unfold fgets
    simp only [List.append_assoc, htake, hout, List.drop_left, Bool.or_false, Bool.and_false]
  have hsecond := fgets_line (l := [lf]) ⟨[], rfl, by simp⟩ (show [lf].length < 127 by decide)
    (done ++ body) rest false false
  -- the line takes two of the free rows; with fewer the table runs over
  match free with
  | 0 => cases h
  | 1 =>
    rw [readRows, hfirst, if_neg Bool.false_ne_true] at h
    cases h
  | free + 2 =>
    rw [readRows, hfirst, if_neg Bool.false_ne_true, readRows, hsecond, if_neg Bool.false_ne_true,
      cstr_of_noNul h0] at h
    cases hread : readRows free ⟨done ++ body ++ [lf], rest, false, false⟩ with
    | error fault =>
      rw [hread] at h
      cases h
    | ok result =>
      rw [hread] at h
      cases h
      exact ⟨free, result.1, hread, rfl⟩

lemma rowLine_behind (h : IniText content)
    (L : Located S.bytes K.bytes (rowsOf content) before header mid row post) :
    ∀ l ∈ splitLines (rowsBehind K.bytes row post).flatten, RowLine l := by
  intro l hl
  refine rowLine_of_iniText h l ?_
  rw [splitLines_located L]
  exact List.mem_append_right _ (List.mem_append_right _ hl)

/-- With a line of 127 bytes the search of a second write ends at the row without its newline. -/
lemma located_of_127 (h : IniText content) (hline : IsLine (keyLine K.bytes V.bytes))
    (hlength : (keyLine K.bytes V.bytes).length = 127)
    (L : Located S.bytes K.bytes (rowsOf content) before header mid row post)
    {rows : List (List UInt8)} {fp : Stream}
    (hread : readRows maxRows
      (fopen (newText K.bytes V.bytes (before ++ header :: mid) row post)) = .ok (rows, fp)) :
    Located S.bytes K.bytes rows before header mid (K.bytes ++ 61 :: (V.bytes ++ [cr]))
      ([lf] :: rowsOf (rowsBehind K.bytes row post).flatten) := by
  have hrows : ∀ l ∈ before ++ header :: mid, RowLine l := fun l hl =>
    rowLine_of_mem_rowsOf h (by rw [L.front]; exact List.mem_append_left _ hl)
  have hplace : isPlace K.bytes (K.bytes ++ 61 :: (V.bytes ++ [cr])) = true := by
    unfold isPlace
    rw [strncasecmpEq_append, Bool.true_or]
  have hnul : (0 : UInt8) ∉ K.bytes ++ 61 :: (V.bytes ++ [cr]) := by
    simp [K.noNul, V.noNul]
    decide
  rw [keyLine_eq] at hline
  have hlen : (K.bytes ++ 61 :: (V.bytes ++ [cr])).length = 126 := by
    rw [keyLine_eq, List.length_append, List.length_singleton] at hlength
    omega
  unfold newText at hread
  rw [keyLine_eq] at hread
  -- from here on only the length and the bytes of the line matter
  generalize K.bytes ++ 61 :: (V.bytes ++ [cr]) = body at *
  have hcount : (before ++ header :: mid).length ≤ maxRows := by
    have := length_rowsOf_le h
    rw [L.front, List.length_append] at this
    omega
  obtain ⟨free, hfree⟩ := Nat.exists_eq_add_of_le' hcount
  have hfront := readRows_lines (isLine_of_rowsOf L.front) hrows free []
    (body ++ [lf] ++ (rowsBehind K.bytes row post).flatten)
  rw [← hfree] at hfront
  unfold fopen at hread
  rw [hfront] at hread
  cases hrest : readRows free ⟨[] ++ (before ++ header :: mid).flatten,
      body ++ [lf] ++ (rowsBehind K.bytes row post).flatten, false, false⟩ with
  | error fault =>
    rw [hrest] at hread
    cases hread
  | ok result =>
    obtain ⟨rows', fp'⟩ := result
    obtain ⟨free', rows'', hread', hsplit⟩ := readRows_split hline.notMem hlen hnul hrest
    rw [readRows_eq _ (rowLine_behind h L)] at hread'
    split at hread'
    · cases hread'
      rw [hrest] at hread
      cases hread
      -- in front of the split line the rows are the lines
      exact ⟨by simp [hsplit], L.noHeader, L.header, L.passed, hplace⟩
    · cases hread'

/-- A line of 127 bytes is not kept by a second write: the newline in the row behind it is
written once more. -/
lemma second_write_of_127 (h : IniText content)
    (hnames : S.bytes.length ≤ 97 ∧ K.bytes.length ≤ 99)
    (hline : IsLine (keyLine K.bytes V.bytes))
    (hlength : (keyLine K.bytes V.bytes).length = 127)
    (L : Located S.bytes K.bytes (rowsOf content) before header mid row post) :
    setConfigFileStringValue S.bytes K.bytes V.bytes
        (some (newText K.bytes V.bytes (before ++ header :: mid) row post))
      ≠ .ok (some (newText K.bytes V.bytes (before ++ header :: mid) row post)) := by
  intro hset
  cases hread : readRows maxRows
      (fopen (newText K.bytes V.bytes (before ++ header :: mid) row post)) with
  | error fault =>
    rw [set_of_full hnames hread] at hset
    cases hset
  | ok result =>
    have L' := located_of_127 h hline hlength L hread
    rw [set_of_located hnames hread L' (by omega), flatten_eq_newText] at hset
    simp only [Except.ok.injEq, Option.some.injEq] at hset
    -- the row `[lf]` stands behind the new line, so the text has grown by one byte
    have hlonger := congrArg List.length hset
    unfold overwrite newText at hlonger
    rw [show rowsBehind K.bytes (K.bytes ++ 61 :: (V.bytes ++ [cr])) _ = _ from
      if_pos (strncasecmpEq_append K.bytes _), List.flatten_cons, flatten_rowsOf] at hlonger
    simp only [List.length_append, List.length_singleton] at hlonger
    omega

/-- Where the search finds no place, no line of the section is the one to be written. -/
lemma not_oneLineChanged_of_unlocated
    (U : Unlocated S.bytes K.bytes (rowsOf content) before header mid) :
    ¬ OneLineChanged S.bytes (keyLine K.bytes V.bytes) (splitLines content)
      (splitLines content) := by
  rintro ⟨pre, post, ⟨l, hl, hmatch⟩, hlines, -⟩
  rw [U.lines] at hlines
  have hmem : keyLine K.bytes V.bytes ∈ mid := by
    -- the header in front of the changed line is not among the lines before the first header
    rcases List.append_eq_append_iff.mp hlines with ⟨t, rfl, ht⟩ | ⟨t, rfl, -⟩
    · cases t with
      | nil =>
        rw [List.append_nil] at hl
        rw [U.noHeader l hl] at hmatch
        cases hmatch
      | cons k t =>
        rw [List.cons_append, List.cons.injEq] at ht
        rw [ht.2]
        simp
    · rw [U.noHeader l (List.mem_append_left t hl)] at hmatch
      cases hmatch
  have := U.passed _ hmem
  unfold isPlace keyLine at this
  rw [strncasecmpEq_append, Bool.true_or] at this
  cases this

/-- A line inserted into a full table makes a second write run off the rows. -/
lemma second_write_of_full (h : IniText content)
    (hnames : S.bytes.length ≤ 97 ∧ K.bytes.length ≤ 99)
    (hline : IsLine (keyLine K.bytes V.bytes))
    (hlength : (keyLine K.bytes V.bytes).length ≤ 126)
    (L : Located S.bytes K.bytes (rowsOf content) before header mid row post)
    (hinsert : ¬ (strncasecmpEq K.bytes row = true ∧ row ≠ []))
    (hfull : maxRows ≤ (rowsOf content).length) :
    setConfigFileStringValue S.bytes K.bytes V.bytes
        (some (newText K.bytes V.bytes (before ++ header :: mid) row post))
      = .error .outOfBounds := by
  have hread := readRows_eq _ (rowLine_newText h hline hlength L) maxRows []
  rw [if_neg] at hread
  · exact set_of_full hnames hread
  · rw [length_rowsOf_newText L hline, length_rowsOf_inserted L hinsert]
    rw [length_rowsOf_located L] at hfull
    omega

theorem rewritable_of_rewritesExactly (h : IniText content)
    (hheader : ∃ l ∈ splitLines content, strncasecmpEq (sectionHeader S.bytes) l = true)
    (hexact : RewritesExactly content S K V) : Rewritable content S K V := by
  obtain ⟨content', hset, hchanged, htwice⟩ := hexact
  have hnames : S.bytes.length ≤ 97 ∧ K.bytes.length ≤ 99 := by
    by_contra hlong
    rw [set_of_long_names hlong] at hset
    cases hset
  have hline : IsLine (keyLine K.bytes V.bytes) := by
    obtain ⟨pre, post, -, hlines, -⟩ := hchanged
    have hmem : keyLine K.bytes V.bytes ∈ splitLines content' := by
      rw [hlines]
      simp
    -- the written text is one of the lines, so it has no newline but its last byte
    rcases line_cases hmem with hl | ⟨hnot, -⟩
    · exact hl
    · exact absurd (by simp [keyLine]) hnot
  have hbreak : lf ∉ K.bytes ∧ lf ∉ V.bytes := by
    rw [keyLine_eq] at hline
    have := hline.notMem
    simp only [List.mem_append, List.mem_cons, not_or] at this
    exact ⟨this.1, this.2.2.1⟩
  rcases located_or_unlocated K.bytes hheader with
    ⟨before, header, mid, row, post, L⟩ | ⟨before, header, mid, U⟩
  · have hfits : (keyLine K.bytes V.bytes).length < 128 := by
      by_contra hlong
      rw [set_of_long_line hnames (readRows_of_iniText h) L (by omega)] at hset
      cases hset
    rw [set_newText h hnames hfits L] at hset
    simp only [Except.ok.injEq, Option.some.injEq] at hset
    subst hset
    have hlonger : strncasecmpEq K.bytes row = true →
        row.length ≤ (keyLine K.bytes V.bytes).length := by
      intro hkey
      by_contra hshorter
      exact not_oneLineChanged_of_shorter hline L hkey (by omega) hchanged
    have hle : content.length
        ≤ (newText K.bytes V.bytes (before ++ header :: mid) row post).length :=
      length_le_newText L hlonger
    rw [overwrite_of_le hle] at htwice
    have hlength : (keyLine K.bytes V.bytes).length ≤ 126 := by
      by_contra hlong
      exact second_write_of_127 h hnames hline (by omega) L htwice
    refine ⟨hnames, hbreak, hlength, _, L.placeOf_eq, hlonger, ?_⟩
    -- a full table fails the second write
    by_contra hroom
    rw [not_or] at hroom
    rw [second_write_of_full h hnames hline hlength L hroom.1 (by omega)] at htwice
    cases htwice
  · rcases set_of_unlocated V.bytes hnames h U with hkept | ⟨-, -, hfault⟩
    · rw [hkept] at hset
      simp only [Except.ok.injEq, Option.some.injEq] at hset
      subst hset
      exact absurd hchanged (not_oneLineChanged_of_unlocated U)
    · rw [hfault] at hset
      cases hset

/-- **Exactly when a write is an exact rewrite.** For every INI file with a header of the
section, every key and every value, the write changes one line and nothing else and is
repeatable if and only if the names, the line, the place and the table allow it. -/
theorem rewritesExactly_iff (h : IniText content)
    (hheader : ∃ l ∈ splitLines content, strncasecmpEq (sectionHeader S.bytes) l = true) :
    RewritesExactly content S K V ↔ Rewritable content S K V := by
  constructor
  · exact rewritable_of_rewritesExactly h hheader
  · rintro ⟨hnames, hbreak, hlength, p, hplace, hlonger, hroom⟩
    rcases located_or_unlocated K.bytes hheader with
      ⟨before, header, mid, row, post, L⟩ | ⟨before, header, mid, U⟩
    · rw [L.placeOf_eq, Option.some.injEq] at hplace
      subst hplace
      exact rewritesExactly_of_rewritable h hnames (isLine_keyLine hbreak.1 hbreak.2) hlength L
        hlonger hroom
    · rw [U.placeOf_eq] at hplace
      cases hplace

end Exact

/-- `A=1` becomes `A=2`. -/
theorem rewritesExactly_same_length :
    RewritesExactly [91, 83, 93, 10, 65, 61, 49, 13, 10] ⟨[83], by decide⟩ ⟨[65], by decide⟩
      ⟨[50], by decide⟩ :=
  (rewritesExactly_iff ⟨by decide, by decide, by decide⟩
    ⟨[91, 83, 93, 10], by decide, by decide⟩).mpr
    ⟨by decide, by decide, by decide, ⟨[[91, 83, 93, 10]], [65, 61, 49, 13, 10], [[]]⟩, rfl,
      by decide, by decide⟩

/-- `A=11` becomes `A=1`, and a newline is left over. -/
theorem rewrite_leaves_bytes :
    IniText [91, 83, 93, 10, 65, 61, 49, 49, 13, 10] ∧
      (∃ l ∈ splitLines [91, 83, 93, 10, 65, 61, 49, 49, 13, 10],
        strncasecmpEq (sectionHeader [83]) l = true) ∧
      ¬ RewritesExactly [91, 83, 93, 10, 65, 61, 49, 49, 13, 10] ⟨[83], by decide⟩
        ⟨[65], by decide⟩ ⟨[49], by decide⟩ := by
  refine ⟨⟨by decide, by decide, by decide⟩, ⟨[91, 83, 93, 10], by decide, by decide⟩, ?_⟩
  rintro ⟨content', hset, ⟨pre, post, -, hlines', hlines⟩, -⟩
  have hwritten : setConfigFileStringValue [83] [65] [49]
      (some [91, 83, 93, 10, 65, 61, 49, 49, 13, 10])
      = .ok (some [91, 83, 93, 10, 65, 61, 49, 13, 10, 10]) := rfl
  rw [hwritten, Except.ok.injEq, Option.some.injEq] at hset
  subst hset
  -- two lines have become three, and the two old ones are not among them
  have hthree : [[91, 83, 93, 10], [65, 61, 49, 13, 10], [10]]
      = pre ++ keyLine [65] [49] :: post := hlines'
  have htwo : splitLines [91, 83, 93, 10, 65, 61, 49, 49, 13, 10]
      = [[91, 83, 93, 10], [65, 61, 49, 49, 13, 10]] := rfl
  rw [htwo] at hlines
  rcases hlines with hlines | ⟨old, hlines⟩
  · match pre with
    | [] => cases hthree
    | [first] =>
      simp only [List.cons_append, List.nil_append, List.cons.injEq] at hthree hlines
      rw [← hthree.2.2] at hlines
      exact absurd hlines.2 (by decide)
    | first :: second :: pre =>
      simp only [List.cons_append, List.cons.injEq] at hthree hlines
      rw [← hthree.2.1] at hlines
      exact absurd hlines.2.1 (by decide)
  · have hlength := congrArg List.length hthree
    rw [List.length_append, List.length_cons] at hlength
    have hlength' := congrArg List.length hlines
    rw [List.length_append, List.length_cons] at hlength'
    simp at hlength hlength'
    omega

end IpncRdk.SysCfg
