import IpncRdk.SysCfg.SetTheorems

/-!
# The table of rows of a write

`SetStringContentValue` reads a file into 128 rows of 128 bytes, and formats the new line in one
of them or in a buffer of the same size. The reading loop stops one read too late, the search may
test the row behind the last one, and the new line is formatted without a look at its length.

* `TableSafe` — a call stays in the table, and refuses what has no room in it;
* `set_of_noPlace`, `set_of_header_last` — the calls that find no row for the line;
* `tableSafe_iff` — exactly the calls that are safe.
-/

namespace IpncRdk.SysCfg

open Lib

/-- The table has a row for every read, and the new line fits a row. -/
def HasRoom (content keyName input : List UInt8) : Prop :=
  (rowsRead content).length ≤ maxRows ∧ (keyLine keyName input).length < 128

/-- A write stays in the table. Where there is no room in it, the file is left as it was. -/
def TableSafe (content : List UInt8) (sectionName keyName input : CString) : Prop :=
  ∃ content', setConfigFileStringValue sectionName.bytes keyName.bytes input.bytes (some content)
      = .ok (some content') ∧
    (¬ HasRoom content keyName.bytes input.bytes → content' = content)

/-- The search ends at a row. -/
def HasPlace (sectionName keyName : List UInt8) (rows : List (List UInt8)) : Prop :=
  ∃ before header mid row post, Located sectionName keyName rows before header mid row post

/-- The first header of the section is the last row. -/
def HeaderLast (sectionName : List UInt8) (rows : List (List UInt8)) : Prop :=
  ∃ before header, rows = before ++ [header] ∧
    (∀ l ∈ before, strncasecmpEq (sectionHeader sectionName) l = false) ∧
    strncasecmpEq (sectionHeader sectionName) header = true

/-- The writes that are safe: the names fit their buffers, the file ends within 128 reads, a
header in the last row is not in row 128, and a line that does not fit a row finds no place. A
header in the last row then has the rows written back, which must be what the file begins with,
and with an empty key the line is formatted behind that row. -/
structure SafeWrite (content sectionName keyName input : List UInt8) : Prop where
  names : sectionName.length ≤ 97 ∧ keyName.length ≤ 99
  rows : (rowsRead content).length ≤ maxRows
  header : HeaderLast sectionName (rowsRead content) → (rowsRead content).length < maxRows
  line : 128 ≤ (keyLine keyName input).length →
    ¬ HasPlace sectionName keyName (rowsRead content) ∧
      (HeaderLast sectionName (rowsRead content) →
        keyName ≠ [] ∧ (rowsRead content).flatten <+: content)

/-! ## The search -/

section Search
variable {sectionName keyName : List UInt8} {rows : List (List UInt8)}

lemma HeaderLast.unlocated (h : HeaderLast sectionName rows) (keyName : List UInt8) :
    ∃ before header, Unlocated sectionName keyName rows before header [] := by
  obtain ⟨before, header, hrows, hbefore, hheader⟩ := h
  exact ⟨before, header, hrows, hbefore, hheader, List.forall_mem_nil _⟩

/-- The first header and what lies behind it are determined. -/
lemma split_unique {p : List UInt8 → Bool} {before before' after after' : List (List UInt8)}
    {header header' : List UInt8} (h : before ++ header :: after = before' ++ header' :: after')
    (hbefore : ∀ l ∈ before, p l = false) (hbefore' : ∀ l ∈ before', p l = false)
    (hheader : p header = true) (hheader' : p header' = true) :
    before = before' ∧ header = header' ∧ after = after' := by
  have hbreak : breakAt p (before ++ header :: after) = some (before, header, after) :=
    breakAt_append hbefore hheader
  rw [h, breakAt_append hbefore' hheader', Option.some.injEq, Prod.mk.injEq, Prod.mk.injEq]
    at hbreak
  exact ⟨hbreak.1.symm, hbreak.2.1.symm, hbreak.2.2.symm⟩

/-- Where all rows behind the first header are passed there is no place. -/
lemma Unlocated.noPlace {before mid : List (List UInt8)} {header : List UInt8}
    (U : Unlocated sectionName keyName rows before header mid) :
    ¬ HasPlace sectionName keyName rows := by
  rintro ⟨before', header', mid', row, post, L⟩
  obtain ⟨-, -, rfl⟩ := split_unique (U.rows.symm.trans L.rows) U.noHeader L.noHeader U.header
    L.header
  have hpassed := U.passed row (by simp)
  rw [L.place] at hpassed
  cases hpassed

/-- A search without a place leaves no change, unless the header is in the last row. -/
lemma findChange_of_noPlace (hplace : ¬ HasPlace sectionName keyName rows)
    (hlast : ¬ HeaderLast sectionName rows) :
    findChange sectionName keyName 0 false rows = .ok .none := by
  rcases search_cases sectionName keyName rows with
    hnone | ⟨before, header, mid, row, post, L⟩ | ⟨before, header, mid, U⟩
  · exact findChange_of_noHeader hnone
  · exact absurd ⟨before, header, mid, row, post, L⟩ hplace
  · refine findChange_of_passed U fun hmid => hlast ?_
    subst hmid
    exact ⟨before, header, U.rows, U.noHeader, U.header⟩

/-- A place lies behind a header that is not in the last row. -/
lemma HasPlace.not_headerLast (h : HasPlace sectionName keyName rows) :
    ¬ HeaderLast sectionName rows := by
  intro hlast
  obtain ⟨before, header, U⟩ := hlast.unlocated keyName
  exact U.noPlace h

end Search

/-! ## The write -/

section Write
variable {content sectionName keyName input : List UInt8}

lemma readRows_fopen (hrows : (rowsRead content).length ≤ maxRows) :
    readRows maxRows (fopen content) = .ok (rowsRead content, ⟨content, [], true, false⟩) := by
  have hread := readRows_reads content maxRows []
  rwa [if_pos hrows, List.nil_append] at hread

/-- A file that is not at its end after 128 reads is read into a row behind the table. -/
lemma set_of_many_rows (hsizes : sectionName.length ≤ 97 ∧ keyName.length ≤ 99)
    (hrows : ¬ (rowsRead content).length ≤ maxRows) :
    setConfigFileStringValue sectionName keyName input (some content) = .error .outOfBounds := by
  have hread := readRows_reads content maxRows []
  rw [if_neg hrows] at hread
  exact set_of_full hsizes hread

lemma set_of_noPlace (hsizes : sectionName.length ≤ 97 ∧ keyName.length ≤ 99)
    (hrows : (rowsRead content).length ≤ maxRows)
    (hplace : ¬ HasPlace sectionName keyName (rowsRead content))
    (hlast : ¬ HeaderLast sectionName (rowsRead content)) :
    setConfigFileStringValue sectionName keyName input (some content) = .ok (some content) := by
  rw [set_eq hsizes (readRows_fopen hrows), findChange_of_noPlace hplace hlast]
  rfl

/-- The row behind the last one is not written back. -/
lemma changedRows_behind (rows : List (List UInt8)) (line : List UInt8) :
    changedRows rows line (.replace rows.length) = (sprintfRow line).map fun _ => rows := by
  rw [changedRows]
  simp only [List.set_eq_of_length_le (le_refl _)]

/-- Behind a header in the last row the rows are written back as they are, unless the key is
empty: then the line is formatted in the next row. -/
lemma set_of_header_last (hsizes : sectionName.length ≤ 97 ∧ keyName.length ≤ 99)
    (hrows : (rowsRead content).length ≤ maxRows)
    (hlast : HeaderLast sectionName (rowsRead content)) :
    setConfigFileStringValue sectionName keyName input (some content)
      = if (rowsRead content).length < maxRows ∧
            (keyName = [] → (keyLine keyName input).length < 128) then
          .ok (some (overwrite content (rowsRead content).flatten))
        else .error .outOfBounds := by
  obtain ⟨before, header, U⟩ := hlast.unlocated keyName
  rw [set_eq hsizes (readRows_fopen hrows), findChange_of_last U]
  by_cases hfull : (rowsRead content).length < maxRows
  · rw [if_pos hfull]
    by_cases hkey : keyName = []
    · rw [if_pos hkey]
      show (changedRows _ _ (.replace _) >>= _) = _
      rw [changedRows_behind, sprintfRow]
      by_cases hline : (keyLine keyName input).length < 128
      · rw [if_pos hline, if_pos ⟨hfull, fun _ => hline⟩]
        rfl
      · rw [if_neg hline, if_neg fun h => hline (h.2 hkey)]
        rfl
    · rw [if_neg hkey, if_pos ⟨hfull, fun h => absurd h hkey⟩]
      show (changedRows _ _ (.insert _) >>= _) = _
      rw [changedRows, if_neg (lt_irrefl _)]
      rfl
  · rw [if_neg hfull, if_neg fun h => hfull h.1]
    rfl

/-- What is written over a file leaves it as it was where the file begins with it. -/
lemma overwrite_eq_self_iff {text : List UInt8} : overwrite content text = content ↔
    text <+: content := by
  unfold overwrite
  constructor
  · intro h
    exact ⟨_, h⟩
  · rintro ⟨rest, rfl⟩
    rw [List.drop_left]

end Write

/-! ## The calls that are safe -/

section Safe
variable {content : List UInt8} {S K V : CString}

/-- A header in the last row. -/
lemma tableSafe_of_header_last (hsizes : S.bytes.length ≤ 97 ∧ K.bytes.length ≤ 99)
    (hrows : (rowsRead content).length ≤ maxRows)
    (hlast : HeaderLast S.bytes (rowsRead content)) :
    TableSafe content S K V ↔ (rowsRead content).length < maxRows ∧
      (128 ≤ (keyLine K.bytes V.bytes).length →
        K.bytes ≠ [] ∧ (rowsRead content).flatten <+: content) := by
  unfold TableSafe
  rw [set_of_header_last hsizes hrows hlast]
  constructor
  · rintro ⟨content', hset, hrefused⟩
    split at hset
    next hok =>
      refine ⟨hok.1, fun hlong => ⟨fun hkey => ?_, ?_⟩⟩
      · have := hok.2 hkey
        omega
      · have hsame := hrefused fun hroom => by
          have := hroom.2
          omega
        rw [Except.ok.injEq, Option.some.injEq] at hset
        exact overwrite_eq_self_iff.mp (hset.trans hsame)
    next => cases hset
  · rintro ⟨hfull, hlong⟩
    have hok : (rowsRead content).length < maxRows ∧
        (K.bytes = [] → (keyLine K.bytes V.bytes).length < 128) := by
      refine ⟨hfull, fun hkey => ?_⟩
      by_contra hline
      exact (hlong (by omega)).1 hkey
    rw [if_pos hok]
    refine ⟨_, rfl, fun hroom => overwrite_eq_self_iff.mpr ?_⟩
    refine (hlong ?_).2
    by_contra hline
    exact hroom ⟨hrows, by omega⟩

/-- A place behind the header. -/
lemma tableSafe_of_place (hsizes : S.bytes.length ≤ 97 ∧ K.bytes.length ≤ 99)
    (hrows : (rowsRead content).length ≤ maxRows)
    (hplace : HasPlace S.bytes K.bytes (rowsRead content)) :
    TableSafe content S K V ↔ (keyLine K.bytes V.bytes).length < 128 := by
  obtain ⟨before, header, mid, row, post, L⟩ := hplace
  unfold TableSafe
  constructor
  · rintro ⟨content', hset, -⟩
    by_contra hline
    rw [set_of_long_line hsizes (readRows_fopen hrows) L (by omega)] at hset
    cases hset
  · intro hline
    rw [set_of_located hsizes (readRows_fopen hrows) L hline]
    exact ⟨_, rfl, fun hroom => absurd ⟨hrows, hline⟩ hroom⟩

/-- **Exactly when the table is not overrun.** For every file, section, key and value. -/
theorem tableSafe_iff (content : List UInt8) (S K V : CString) :
    TableSafe content S K V ↔ SafeWrite content S.bytes K.bytes V.bytes := by
  by_cases hsizes : S.bytes.length ≤ 97 ∧ K.bytes.length ≤ 99
  · by_cases hrows : (rowsRead content).length ≤ maxRows
    · by_cases hplace : HasPlace S.bytes K.bytes (rowsRead content)
      · rw [tableSafe_of_place hsizes hrows hplace]
        constructor
        · intro hline
          exact ⟨hsizes, hrows, fun hlast => absurd hlast hplace.not_headerLast,
            fun hlong => by omega⟩
        · intro hsafe
          by_contra hline
          exact (hsafe.line (by omega)).1 hplace
      · by_cases hlast : HeaderLast S.bytes (rowsRead content)
        · rw [tableSafe_of_header_last hsizes hrows hlast]
          constructor
          · rintro ⟨hfull, hlong⟩
            exact ⟨hsizes, hrows, fun _ => hfull, fun h => ⟨hplace, fun _ => hlong h⟩⟩
          · intro hsafe
            exact ⟨hsafe.header hlast, fun h => (hsafe.line h).2 hlast⟩
        · refine iff_of_true ⟨content, set_of_noPlace hsizes hrows hplace hlast, fun _ => rfl⟩ ?_
          exact ⟨hsizes, hrows, fun h => absurd h hlast, fun _ => ⟨hplace, fun h => absurd h hlast⟩⟩
    · refine iff_of_false ?_ fun hsafe => hrows hsafe.rows
      rintro ⟨content', hset, -⟩
      rw [set_of_many_rows hsizes hrows] at hset
      cases hset
  · refine iff_of_false ?_ fun hsafe => hsizes hsafe.names
    rintro ⟨content', hset, -⟩
    rw [set_of_long_names hsizes] at hset
    cases hset

lemma splitLines_replicate (n : ℕ) :
    splitLines (List.replicate n lf) = List.replicate n [lf] := by
  induction n with
  | zero => rfl
  | succ n ih => rw [List.replicate_succ, splitLines, if_pos rfl, ih, List.replicate_succ]

/-- A file of 128 empty lines is read into 129 rows. -/
theorem lines_not_tableSafe :
    ¬ TableSafe (List.replicate 128 lf) ⟨[83], by decide⟩ ⟨[65], by decide⟩ ⟨[49], by decide⟩ := by
  rintro ⟨content', hset, -⟩
  have hlines : ∀ l ∈ splitLines (List.replicate 128 lf), RowLine l := by
    rw [splitLines_replicate]
    intro l hl
    rw [List.eq_of_mem_replicate hl]
    exact ⟨by decide, by decide⟩
  have hcount : (rowsRead (List.replicate 128 lf)).length = 129 := by
    have hlast : (List.replicate 128 lf).getLast? = some lf := by
      rw [List.getLast?_replicate]
      rfl
    rw [rowsRead_eq hlines]
    unfold rowsOf endRow
    rw [splitLines_replicate, if_pos (Or.inr hlast)]
    simp
  rw [set_of_many_rows ⟨by decide, by decide⟩ (by rw [hcount]; decide)] at hset
  cases hset

end Safe

end IpncRdk.SysCfg
