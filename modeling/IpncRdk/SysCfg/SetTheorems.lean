import IpncRdk.SysCfg.GetTheorems
import IpncRdk.SysCfg.SetValue

/-!
# What a write does to the lines of a file

* `IniText` — the files of at most 127 lines of at most 125 bytes;
* `readRows_reads` — the table holds what the reads yield;
* `readRows_eq` — lines that fit, and an empty row where the file ends in a newline;
* `Located`, `placeOf` — where the search ends: the first row behind the header that begins
  with the key or does not begin with a letter;
* `set_of_located`, `set_of_unlocated` — what the file holds afterwards.
-/

namespace IpncRdk.SysCfg

open Lib

/-- A text file of at most 127 lines of at most 125 bytes, newlines not counted. -/
structure IniText (content : List UInt8) : Prop where
  lines : (splitLines content).length ≤ 127
  lineLength : ∀ l ∈ splitLines content, (l.filter (· != lf)).length ≤ 125
  noNul : (0 : UInt8) ∉ content

/-! ## The table -/

/-- The empty row read at the end of a file whose last line has its newline. -/
def endRow (content : List UInt8) : List (List UInt8) :=
  if content = [] ∨ content.getLast? = some lf then [[]] else []

/-- The rows of the table. -/
def rowsOf (content : List UInt8) : List (List UInt8) := splitLines content ++ endRow content

/-- A line that a row of the table takes whole. -/
structure RowLine (l : List UInt8) : Prop where
  body : (l.filter (· != lf)).length ≤ 125
  noNul : (0 : UInt8) ∉ l

lemma endRow_append {l : List UInt8} (hl : IsLine l) (rest : List UInt8) :
    endRow (l ++ rest) = endRow rest := by
  obtain ⟨body, rfl, -⟩ := hl
  unfold endRow
  cases rest with
  | nil => simp
  | cons b rest => simp [List.getLast?_append]

lemma rowsOf_append {l : List UInt8} (hl : IsLine l) (rest : List UInt8) :
    rowsOf (l ++ rest) = l :: rowsOf rest := by
  unfold rowsOf
  rw [splitLines_append hl, endRow_append hl, List.cons_append]

lemma rowsOf_of_notMem {body : List UInt8} (hne : body ≠ []) (h : lf ∉ body) :
    rowsOf body = [body] := by
  unfold rowsOf endRow
  rw [splitLines_of_notMem hne h, if_neg, List.append_nil]
  rintro (hnil | hlast)
  · exact hne hnil
  · exact h (List.mem_of_getLast? hlast)

/-- A row that is not the last one is a line with its newline. -/
lemma isLine_of_rowsOf {content row : List UInt8} {pre post : List (List UInt8)}
    (h : rowsOf content = pre ++ row :: post) : ∀ k ∈ pre, IsLine k := by
  induction content using lineInduction generalizing pre with
  | nil =>
    cases pre with
    | nil => exact fun k hk => (nomatch hk)
    | cons p pre => simp [rowsOf, splitLines, endRow] at h
  | line m rest hm ih =>
    rw [rowsOf_append hm] at h
    cases pre with
    | nil => exact fun k hk => (nomatch hk)
    | cons p pre =>
      rw [List.cons_append, List.cons.injEq] at h
      intro k hk
      rcases List.mem_cons.mp hk with rfl | hk
      · exact h.1 ▸ hm
      · exact ih h.2 k hk
  | last body hne hbody =>
    rw [rowsOf_of_notMem hne hbody] at h
    cases pre with
    | nil => exact fun k hk => (nomatch hk)
    | cons p pre => simp at h

lemma flatten_rowsOf (content : List UInt8) : (rowsOf content).flatten = content := by
  unfold rowsOf endRow
  rw [List.flatten_append, splitLines_flatten]
  split <;> simp

lemma RowLine.length_of_isLine {l : List UInt8} (h : RowLine l) (hl : IsLine l) :
    l.length ≤ 126 := by
  have := h.body
  rw [hl.length_eq]
  omega

lemma RowLine.length_of_notMem {l : List UInt8} (h : RowLine l) (hl : lf ∉ l) :
    l.length ≤ 125 := by
  have := h.body
  rwa [filter_of_notMem hl] at this

/-- The rows of the table for any file: what the reads yield, each up to its first NUL. -/
def rowsRead (content : List UInt8) : List (List UInt8) := (readAll 125 content).map cstr

/-- The reading loop fills the table with what it reads, as long as it has rows for it. -/
theorem readRows_reads (content : List UInt8) (free : ℕ) (done : List UInt8) :
    readRows free ⟨done, content, false, false⟩
      = if (rowsRead content).length ≤ free then
          .ok (rowsRead content, ⟨done ++ content, [], true, false⟩)
        else .error .outOfBounds := by
  unfold rowsRead
  induction content using readAll.induct 125 generalizing free done with
  | case1 content h =>
    rw [readAll_of_runsOut h]
    cases free with
    | zero => rfl
    | succ free =>
      rw [readRows, fgets_of_runsOut h, if_neg Bool.false_ne_true]
      cases free <;> simp [readRows]
  | case2 content h ih =>
    rw [readAll_of_not_runsOut h, List.map_cons, List.length_cons]
    cases free with
    | zero => rw [if_neg (by omega)]; rfl
    | succ free =>
      rw [readRows, fgets_of_not_runsOut h, if_neg Bool.false_ne_true, ih]
      simp only [Nat.add_le_add_iff_right, List.append_assoc, takeLine_append_drop]
      split <;> rfl

/-- Lines that fit a row are read as they are. -/
lemma rowsRead_eq {content : List UInt8} (hrow : ∀ l ∈ splitLines content, RowLine l) :
    rowsRead content = rowsOf content := by
  unfold rowsRead
  induction content using lineInduction with
  | nil =>
    rw [readAll_last (by simp) (by simp)]
    simp [rowsOf, endRow, splitLines]
  | line l rest hl ih =>
    rw [splitLines_append hl] at hrow
    have hl' := hrow l List.mem_cons_self
    rw [readAll_line hl (hl'.length_of_isLine hl), List.map_cons, cstr_of_noNul hl'.noNul,
      ih fun k hk => hrow k (List.mem_cons_of_mem l hk), rowsOf_append hl]
  | last body hne hbody =>
    rw [splitLines_of_notMem hne hbody] at hrow
    have hl' := hrow body List.mem_cons_self
    have hlen := hl'.length_of_notMem hbody
    rw [readAll_last hbody (by omega), List.map_singleton, cstr_of_noNul hl'.noNul,
      rowsOf_of_notMem hne hbody]

/-- The reading loop fills the table with the lines, as long as it has rows for them. -/
theorem readRows_eq (content : List UInt8) (hrow : ∀ l ∈ splitLines content, RowLine l)
    (free : ℕ) (done : List UInt8) :
    readRows free ⟨done, content, false, false⟩
      = if (rowsOf content).length ≤ free then
          .ok (rowsOf content, ⟨done ++ content, [], true, false⟩)
        else .error .outOfBounds := by
  rw [readRows_reads, rowsRead_eq hrow]

/-! ## The search -/

/-- The search of a section ends at this row. -/
def isPlace (keyName row : List UInt8) : Bool := strncasecmpEq keyName row || !startsAlpha row

section Search
variable {sectionName keyName : List UInt8}

lemma changeAt_of_not_place {row : List UInt8} (h : isPlace keyName row = false) (i : ℕ) :
    changeAt keyName i row = none := by
  unfold isPlace at h
  rw [Bool.or_eq_false_iff, Bool.not_eq_false'] at h
  have hbracket : row.head? ≠ some 91 := by
    intro hhead
    rw [startsAlpha, hhead] at h
    exact absurd h.2 (by decide)
  unfold changeAt
  simp [h.1, h.2, hbracket]

lemma changeAt_of_place {row : List UInt8} (h : isPlace keyName row = true) (i : ℕ) :
    changeAt keyName i row
      = some (if strncasecmpEq keyName row then .replace i else .insert i) := by
  unfold isPlace at h
  unfold changeAt
  by_cases hkey : strncasecmpEq keyName row = true
  · rw [if_pos hkey, if_pos hkey]
  · rw [if_neg hkey, if_neg hkey, if_pos]
    simp only [Bool.not_eq_true] at hkey
    rw [hkey, Bool.false_or] at h
    rw [h, Bool.or_true]

lemma findChange_before (keyName : List UInt8) {before : List (List UInt8)}
    (h : ∀ l ∈ before, strncasecmpEq (sectionHeader sectionName) l = false) (i : ℕ)
    (rows : List (List UInt8)) :
    findChange sectionName keyName i false (before ++ rows)
      = findChange sectionName keyName (i + before.length) false rows := by
  induction before generalizing i with
  | nil => rfl
  | cons l before ih =>
    rw [List.cons_append, findChange, h l List.mem_cons_self, if_neg Bool.false_ne_true,
      ih fun k hk => h k (List.mem_cons_of_mem l hk)]
    congr 1
    simp
    omega

lemma findChange_mid (sectionName : List UInt8) {mid : List (List UInt8)}
    (h : ∀ l ∈ mid, isPlace keyName l = false) (i : ℕ) (rows : List (List UInt8)) :
    findChange sectionName keyName i true (mid ++ rows)
      = findChange sectionName keyName (i + mid.length) true rows := by
  induction mid generalizing i with
  | nil => rfl
  | cons l mid ih =>
    rw [List.cons_append, findChange, changeAt_of_not_place (h l List.mem_cons_self)]
    simp only
    rw [ih fun k hk => h k (List.mem_cons_of_mem l hk)]
    congr 1
    simp
    omega

/-- The rows up to the one where the search of the first section with this name ends. -/
structure Located (sectionName keyName : List UInt8) (rows before : List (List UInt8))
    (header : List UInt8) (mid : List (List UInt8)) (row : List UInt8)
    (post : List (List UInt8)) : Prop where
  rows : rows = before ++ header :: (mid ++ row :: post)
  noHeader : ∀ l ∈ before, strncasecmpEq (sectionHeader sectionName) l = false
  header : strncasecmpEq (sectionHeader sectionName) header = true
  passed : ∀ l ∈ mid, isPlace keyName l = false
  place : isPlace keyName row = true

/-- The rows where the search of the first section with this name finds no place. -/
structure Unlocated (sectionName keyName : List UInt8) (rows before : List (List UInt8))
    (header : List UInt8) (mid : List (List UInt8)) : Prop where
  rows : rows = before ++ header :: mid
  noHeader : ∀ l ∈ before, strncasecmpEq (sectionHeader sectionName) l = false
  header : strncasecmpEq (sectionHeader sectionName) header = true
  passed : ∀ l ∈ mid, isPlace keyName l = false

/-- A list cut at its first element with a property. -/
def breakAt {α : Type} (p : α → Bool) (l : List α) : Option (List α × α × List α) :=
  match l.dropWhile fun a => !p a with
  | [] => none
  | a :: after => some (l.takeWhile fun a => !p a, a, after)

lemma breakAt_append {α : Type} {p : α → Bool} {before after : List α} {a : α}
    (hbefore : ∀ b ∈ before, p b = false) (ha : p a = true) :
    breakAt p (before ++ a :: after) = some (before, a, after) := by
  have hpass : ∀ b ∈ before, (!p b) = true := fun b hb => by rw [hbefore b hb]; rfl
  have hstop : ¬ (!p a) = true := by rw [ha]; exact Bool.false_ne_true
  unfold breakAt
  rw [List.dropWhile_append_of_pos hpass, List.dropWhile_cons_of_neg (p := fun a => !p a) hstop,
    List.takeWhile_append_of_pos hpass, List.takeWhile_cons_of_neg (p := fun a => !p a) hstop,
    List.append_nil]

lemma breakAt_eq_none {α : Type} {p : α → Bool} {l : List α} (h : ∀ a ∈ l, p a = false) :
    breakAt p l = none := by
  have hpass : l.dropWhile (fun a => !p a) = [] := by
    rw [List.dropWhile_eq_nil_iff]
    exact fun a ha => by rw [h a ha]; rfl
  unfold breakAt
  rw [hpass]

/-- A list has a first element with a property, or none. -/
lemma first_split {α : Type} (p : α → Bool) (l : List α) :
    (∀ a ∈ l, p a = false) ∨
      ∃ before a after, l = before ++ a :: after ∧ (∀ b ∈ before, p b = false) ∧ p a = true := by
  cases h : l.find? p with
  | none =>
    left
    simpa using List.find?_eq_none.mp h
  | some a =>
    right
    obtain ⟨hp, before, after, rfl, hbefore⟩ := List.find?_eq_some_iff_append.mp h
    exact ⟨before, a, after, rfl, by simpa using hbefore, hp⟩

lemma header_notMem_endRow (sectionName : List UInt8) {content l : List UInt8}
    (hl : l ∈ endRow content) :
    strncasecmpEq (sectionHeader sectionName) l = false := by
  unfold endRow at hl
  split at hl
  · rw [List.mem_singleton] at hl
    subst hl
    rfl
  · cases hl

lemma rows_of_noHeader {content : List UInt8}
    (hnone : ¬ ∃ l ∈ splitLines content, strncasecmpEq (sectionHeader sectionName) l = true) :
    ∀ l ∈ rowsOf content, strncasecmpEq (sectionHeader sectionName) l = false := by
  intro l hl
  rcases List.mem_append.mp hl with hl | hl
  · rw [← Bool.not_eq_true]
    exact fun hmatch => hnone ⟨l, hl, hmatch⟩
  · exact header_notMem_endRow sectionName hl

/-- The search finds no header, a place behind the first one, or no place there. -/
theorem search_cases (sectionName keyName : List UInt8) (rows : List (List UInt8)) :
    (∀ l ∈ rows, strncasecmpEq (sectionHeader sectionName) l = false) ∨
      (∃ before header mid row post, Located sectionName keyName rows before header mid row post) ∨
      ∃ before header mid, Unlocated sectionName keyName rows before header mid := by
  rcases first_split (strncasecmpEq (sectionHeader sectionName)) rows with
    hnone | ⟨before, header, after, hrows, hbefore, hmatch⟩
  · exact Or.inl hnone
  · rcases first_split (isPlace keyName) after with
      hnone | ⟨mid, row, post, rfl, hmid, hplace⟩
    · exact Or.inr (Or.inr ⟨before, header, after, hrows, hbefore, hmatch, hnone⟩)
    · exact Or.inr
        (Or.inl ⟨before, header, mid, row, post, hrows, hbefore, hmatch, hmid, hplace⟩)

/-- A file with the header of a section has its search end somewhere. -/
theorem located_or_unlocated {content : List UInt8} (keyName : List UInt8)
    (hheader : ∃ l ∈ splitLines content, strncasecmpEq (sectionHeader sectionName) l = true) :
    (∃ before header mid row post,
        Located sectionName keyName (rowsOf content) before header mid row post) ∨
      ∃ before header mid,
        Unlocated sectionName keyName (rowsOf content) before header mid := by
  rcases search_cases sectionName keyName (rowsOf content) with hnone | hplace
  · obtain ⟨l, hl, hmatch⟩ := hheader
    rw [hnone l (List.mem_append_left _ hl)] at hmatch
    cases hmatch
  · exact hplace

variable {header row : List UInt8} {rows before mid post : List (List UInt8)}

lemma Located.front (L : Located sectionName keyName rows before header mid row post) :
    rows = (before ++ header :: mid) ++ row :: post := by
  rw [L.rows]
  simp

/-- The rows in front of the one where the search ends, this row, and those behind it. -/
structure Place where
  front : List (List UInt8)
  row : List UInt8
  post : List (List UInt8)

/-- Where the search of the first section with this name ends. -/
def placeOf (sectionName keyName content : List UInt8) : Option Place :=
  match breakAt (strncasecmpEq (sectionHeader sectionName)) (rowsOf content) with
  | none => none
  | some (before, header, after) =>
    (breakAt (isPlace keyName) after).map fun (mid, row, post) =>
      ⟨before ++ header :: mid, row, post⟩

lemma Located.placeOf_eq {content : List UInt8}
    (L : Located sectionName keyName (rowsOf content) before header mid row post) :
    placeOf sectionName keyName content = some ⟨before ++ header :: mid, row, post⟩ := by
  unfold placeOf
  rw [L.rows, breakAt_append L.noHeader L.header]
  simp only
  rw [breakAt_append L.passed L.place]
  rfl

lemma Unlocated.placeOf_eq {content : List UInt8}
    (U : Unlocated sectionName keyName (rowsOf content) before header mid) :
    placeOf sectionName keyName content = none := by
  unfold placeOf
  rw [U.rows, breakAt_append U.noHeader U.header]
  simp only
  rw [breakAt_eq_none U.passed]
  rfl

/-- A place lies behind a header of its section. -/
lemma header_of_placeOf {content : List UInt8} {p : Place}
    (h : placeOf sectionName keyName content = some p) :
    ∃ l ∈ splitLines content, strncasecmpEq (sectionHeader sectionName) l = true := by
  by_contra hnone
  unfold placeOf at h
  rw [breakAt_eq_none (rows_of_noHeader hnone)] at h
  cases h

lemma findChange_of_located (L : Located sectionName keyName rows before header mid row post) :
    findChange sectionName keyName 0 false rows
      = .ok (if strncasecmpEq keyName row then .replace (before.length + 1 + mid.length)
          else .insert (before.length + 1 + mid.length)) := by
  rw [L.rows, findChange_before keyName L.noHeader, findChange, if_pos L.header, if_neg (by simp),
    findChange_mid sectionName L.passed, findChange, changeAt_of_place L.place]
  simp only [Nat.zero_add]

/-- Where no row is a header the search leaves no change. -/
lemma findChange_of_noHeader
    (h : ∀ l ∈ rows, strncasecmpEq (sectionHeader sectionName) l = false) :
    findChange sectionName keyName 0 false rows = .ok .none := by
  have hbefore := findChange_before keyName h 0 []
  rw [List.append_nil] at hbefore
  rw [hbefore, findChange]

/-- Where the rows behind the header are all passed it leaves none either. -/
lemma findChange_of_passed (U : Unlocated sectionName keyName rows before header mid)
    (hmid : mid ≠ []) : findChange sectionName keyName 0 false rows = .ok .none := by
  rw [U.rows, findChange_before keyName U.noHeader, findChange, if_pos U.header,
    if_neg (by simpa using hmid)]
  have hpassed := findChange_mid sectionName U.passed (0 + before.length + 1) []
  rw [List.append_nil] at hpassed
  rw [hpassed, findChange]

/-- Behind a header in the last row the next row of the table is tested, if there is one. -/
lemma findChange_of_last (U : Unlocated sectionName keyName rows before header []) :
    findChange sectionName keyName 0 false rows
      = if rows.length < maxRows then
          .ok (if keyName = [] then .replace rows.length else .insert rows.length)
        else .error .outOfBounds := by
  have hplace : isPlace keyName [] = true := by simp [isPlace, startsAlpha]
  have hlength : rows.length = 0 + before.length + 1 := by
    rw [U.rows]
    simp
  rw [hlength, U.rows, findChange_before keyName U.noHeader, findChange, if_pos U.header,
    if_pos List.isEmpty_nil, changeAt_of_place hplace]
  cases keyName <;> rfl

/-- The rows behind the changed line: a replaced row is gone. -/
def rowsBehind (keyName row : List UInt8) (post : List (List UInt8)) : List (List UInt8) :=
  if strncasecmpEq keyName row then post else row :: post

lemma changedRows_of_located
    (L : Located sectionName keyName rows before header mid row post) {line : List UInt8}
    (hline : line.length < 128) :
    changedRows rows line
        (if strncasecmpEq keyName row then .replace (before.length + 1 + mid.length)
          else .insert (before.length + 1 + mid.length))
      = .ok (before ++ header :: (mid ++ line :: rowsBehind keyName row post)) := by
  have hsplit : rows = (before ++ header :: mid) ++ row :: post := by
    rw [L.rows]; simp
  have hlen : before.length + 1 + mid.length = (before ++ header :: mid).length := by
    simp; omega
  have hrow : sprintfRow line = .ok line := if_pos hline
  rw [hlen, hsplit]
  unfold rowsBehind
  -- the row is replaced where it begins with the key, else the line goes in front of it
  split
  · rw [changedRows, hrow, Except.map, List.set_append_right _ _ (le_refl _), Nat.sub_self]
    simp
  · rw [changedRows, if_pos (by simp), hrow, Except.map, List.take_left, List.drop_left]
    simp

lemma changedRows_of_long {rows : List (List UInt8)} {line : List UInt8} (hline : 128 ≤ line.length)
    {i : ℕ} (hi : i < rows.length) {change : Change}
    (hchange : change = .replace i ∨ change = .insert i) :
    changedRows rows line change = .error .outOfBounds := by
  have hrow : sprintfRow line = .error .outOfBounds := if_neg (by omega)
  rcases hchange with rfl | rfl
  · rw [changedRows, hrow]; rfl
  · rw [changedRows, if_pos hi, hrow]; rfl

end Search

/-! ## What the file holds afterwards -/

section Content
variable {sectionName keyName input content header row : List UInt8}
  {rows before mid post : List (List UInt8)}

/-- A file overwritten from its start: what the new text does not reach stays. -/
def overwrite (content text : List UInt8) : List UInt8 := text ++ content.drop text.length

lemma length_keyLine (keyName input : List UInt8) :
    (keyLine keyName input).length = keyName.length + input.length + 3 := by
  simp [keyLine]
  omega

lemma rowLine_of_iniText (h : IniText content) : ∀ l ∈ splitLines content, RowLine l :=
  fun l hl => ⟨h.lineLength l hl, fun h0 => h.noNul (by
    rw [← splitLines_flatten content]
    exact List.mem_flatten.mpr ⟨l, hl, h0⟩)⟩

lemma length_endRow_le (content : List UInt8) : (endRow content).length ≤ 1 := by
  unfold endRow
  split <;> simp

/-- The table has room for the rows of an INI text. -/
lemma length_rowsOf_le (h : IniText content) : (rowsOf content).length ≤ maxRows := by
  have hlines := h.lines
  have hend := length_endRow_le content
  unfold rowsOf
  rw [List.length_append]
  unfold maxRows
  omega

lemma content_of_readRows {free : ℕ} {fp fp' : Stream} (h : readRows free fp = .ok (rows, fp')) :
    fp'.content = fp.content := by
  induction free generalizing fp rows with
  | zero =>
    rw [readRows] at h
    split at h <;> cases h
    rfl
  | succ free ih =>
    rw [readRows] at h
    -- at the end of the file, or with another row read
    split at h
    · cases h
      rfl
    · cases hread : readRows free (fgets 127 fp).2 with
      | error fault => rw [hread] at h; cases h
      | ok result =>
        rw [hread] at h
        cases h
        rw [ih hread, content_fgets]

/-- The write as a whole: the search and the change of the rows. -/
lemma set_eq (hsizes : sectionName.length ≤ 97 ∧ keyName.length ≤ 99) {fp : Stream}
    (hread : readRows maxRows (fopen content) = .ok (rows, fp)) :
    setConfigFileStringValue sectionName keyName input (some content)
      = (do
        let change ← findChange sectionName keyName 0 false rows
        if change = .none then pure (some content)
        else do
          let rows ← changedRows rows (keyLine keyName input) change
          pure (some (overwrite content rows.flatten))) := by
  have hcontent : fp.content = content := content_of_readRows hread
  show (setStringContentValue (fopen content) sectionName keyName input).map _ = _
  unfold setStringContentValue
  rw [hread, copyNames_eq_ok.mpr hsizes]
  show Except.map _ ((findChange sectionName keyName 0 false rows).bind _) =
    (findChange sectionName keyName 0 false rows).bind _
  cases findChange sectionName keyName 0 false rows with
  | error fault => rfl
  | ok change =>
    simp only [Except.bind]
    split
    · show Except.ok (some fp.content) = _
      rw [hcontent]
      rfl
    · cases changedRows rows (keyLine keyName input) change with
      | error fault => rfl
      | ok changed =>
        show Except.ok (some (fputs changed.flatten (rewind fp)).content) = _
        rw [content_fputs_rewind, hcontent]
        rfl

/-- A file that does not fit the table. -/
lemma set_of_full (hsizes : sectionName.length ≤ 97 ∧ keyName.length ≤ 99) {fault : Fault}
    (hread : readRows maxRows (fopen content) = .error fault) :
    setConfigFileStringValue sectionName keyName input (some content) = .error fault := by
  show (setStringContentValue (fopen content) sectionName keyName input).map _ = _
  unfold setStringContentValue
  rw [hread, copyNames_eq_ok.mpr hsizes]
  rfl

/-- An INI text is read as its rows. -/
lemma readRows_of_iniText (h : IniText content) :
    readRows maxRows (fopen content)
      = .ok (rowsOf content, ⟨content, [], true, false⟩) := by
  have hread := readRows_eq content (rowLine_of_iniText h) maxRows []
  rwa [if_pos (length_rowsOf_le h), List.nil_append] at hread

lemma set_of_long_names (h : ¬ (sectionName.length ≤ 97 ∧ keyName.length ≤ 99)) :
    setConfigFileStringValue sectionName keyName input (some content) = .error .outOfBounds := by
  show (setStringContentValue (fopen content) sectionName keyName input).map _ = _
  unfold setStringContentValue
  rw [copyNames_of_long h]
  rfl

/-- Where the search ends at a row, the line is written there. -/
theorem set_of_located (hsizes : sectionName.length ≤ 97 ∧ keyName.length ≤ 99) {fp : Stream}
    (hread : readRows maxRows (fopen content) = .ok (rows, fp))
    (L : Located sectionName keyName rows before header mid row post)
    (hline : (keyLine keyName input).length < 128) :
    setConfigFileStringValue sectionName keyName input (some content)
      = .ok (some (overwrite content (before ++ header ::
          (mid ++ keyLine keyName input :: rowsBehind keyName row post)).flatten)) := by
  rw [set_eq hsizes hread, findChange_of_located L]
  show (if _ then _ else _) = _
  rw [if_neg (by split <;> simp), changedRows_of_located L hline]
  rfl

lemma set_of_long_line (hsizes : sectionName.length ≤ 97 ∧ keyName.length ≤ 99) {fp : Stream}
    (hread : readRows maxRows (fopen content) = .ok (rows, fp))
    (L : Located sectionName keyName rows before header mid row post)
    (hline : 128 ≤ (keyLine keyName input).length) :
    setConfigFileStringValue sectionName keyName input (some content) = .error .outOfBounds := by
  have hlength : before.length + 1 + mid.length < rows.length := by
    rw [L.rows]
    simp
    omega
  rw [set_eq hsizes hread, findChange_of_located L]
  show (if _ then _ else _) = _
  rw [if_neg (by split <;> simp), changedRows_of_long hline hlength]
  · rfl
  · split
    · exact Or.inl rfl
    · exact Or.inr rfl

lemma overwrite_self (content : List UInt8) : overwrite content content = content := by
  unfold overwrite
  rw [List.drop_length, List.append_nil]

/-- A header in the last row has no newline, so the table is not full. -/
lemma length_of_header_last (h : IniText content)
    (U : Unlocated sectionName keyName (rowsOf content) before header []) :
    before.length + 1 < maxRows := by
  have hend : endRow content = [] := by
    by_contra hne
    -- else the last row is the empty one, which is no header
    have hlast : (rowsOf content).getLast? = some header := by rw [U.rows]; simp
    unfold rowsOf at hlast
    rw [List.getLast?_append_of_ne_nil _ hne] at hlast
    have := header_notMem_endRow sectionName (List.mem_of_getLast? hlast)
    rw [U.header] at this
    nomatch this
  have hcount := congrArg List.length U.rows
  unfold rowsOf at hcount
  rw [hend] at hcount
  simp only [List.length_append, List.length_cons, List.length_nil] at hcount
  have := h.lines
  unfold maxRows
  omega

/-- Without a place the search leaves no change, or one behind the last row. -/
lemma findChange_of_unlocated (h : IniText content)
    (U : Unlocated sectionName keyName (rowsOf content) before header mid) :
    ∃ change, findChange sectionName keyName 0 false (rowsOf content) = .ok change ∧
      (change = .none ∨ change = .insert (rowsOf content).length ∨
        keyName = [] ∧ change = .replace (rowsOf content).length) := by
  by_cases hmid : mid = []
  · -- the empty row of the table behind the header does not begin with a letter
    subst hmid
    have hlength : (rowsOf content).length < maxRows := by
      have := length_of_header_last h U
      rw [U.rows]
      simpa using this
    rw [findChange_of_last U, if_pos hlength]
    by_cases hkey : keyName = []
    · exact ⟨_, rfl, Or.inr (Or.inr ⟨hkey, if_pos hkey⟩)⟩
    · exact ⟨_, rfl, Or.inr (Or.inl (if_neg hkey))⟩
  · exact ⟨.none, findChange_of_passed U hmid, Or.inl rfl⟩

/-- Where the search meets the end of the rows, nothing is written. -/
theorem set_of_unlocated (input : List UInt8)
    (hsizes : sectionName.length ≤ 97 ∧ keyName.length ≤ 99) (h : IniText content)
    (U : Unlocated sectionName keyName (rowsOf content) before header mid) :
    setConfigFileStringValue sectionName keyName input (some content) = .ok (some content) ∨
      keyName = [] ∧ 128 ≤ (keyLine keyName input).length ∧
        setConfigFileStringValue sectionName keyName input (some content)
          = .error .outOfBounds := by
  obtain ⟨change, hfind, hchange⟩ := findChange_of_unlocated h U
  rw [set_eq hsizes (readRows_of_iniText h), hfind]
  have hwhole : overwrite content (rowsOf content).flatten = content := by
    rw [flatten_rowsOf, overwrite_self]
  rcases hchange with rfl | rfl | ⟨hkey, rfl⟩
  · exact Or.inl rfl
  · -- the loop that writes does not reach a line behind the last row
    left
    show (changedRows (rowsOf content) _ (.insert (rowsOf content).length) >>= _) = _
    rw [changedRows, if_neg (by omega)]
    show Except.ok (some (overwrite content (rowsOf content).flatten)) = _
    rw [hwhole]
  · by_cases hline : (keyLine keyName input).length < 128
    · left
      show (changedRows (rowsOf content) _ (.replace (rowsOf content).length) >>= _) = _
      rw [changedRows, sprintfRow, if_pos hline]
      show Except.ok (some (overwrite content
        ((rowsOf content).set (rowsOf content).length _).flatten)) = _
      rw [List.set_eq_of_length_le (le_refl _), hwhole]
    · refine Or.inr ⟨hkey, by omega, ?_⟩
      show (changedRows (rowsOf content) _ (.replace (rowsOf content).length) >>= _) = _
      rw [changedRows, sprintfRow, if_neg hline]
      rfl

end Content

end IpncRdk.SysCfg
