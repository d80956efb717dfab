import IpncRdk.SysCfg.GetValue

/-!
# What a lookup yields

* `fileText` — the text a lookup finds, as a function of the lines that are read;
* `scanSections_reads` — the two loops of the source compute it, on every file;
* `fileText_linesRead` — lines that the reader's buffers take whole are read as they are;
* `storeValue_eq` — what the caller's buffer holds afterwards;
* `get_reads`, `get_eq`, `get_of_lines` — the lookup as a whole.
-/

namespace IpncRdk.SysCfg

open Lib

/-! ## The meaning of a lookup -/

/-- The text found for a key in the lines behind a header. -/
def sectionText (keyName : List UInt8) : List (List UInt8) → Option (List UInt8)
  | [] => none
  | line :: lines =>
    match react keyName line with
    | .skip => sectionText keyName lines
    | .stop => none
    | .value text => some text

/-- The text found for a section and a key in the lines of a file. -/
def fileText (sectionName keyName : List UInt8) : List (List UInt8) → Option (List UInt8)
  | [] => none
  | line :: lines =>
    if strncasecmpEq (sectionHeader sectionName) line then sectionText keyName lines
    else fileText sectionName keyName lines

/-- A text up to the end of its line. -/
def upToEnd (text : List UInt8) : List UInt8 := text.takeWhile fun b => !endsValue b

/-- The value in a text: without leading blanks, up to the end of the line. -/
def valueOf (text : List UInt8) : List UInt8 := upToEnd (text.dropWhile (· == 32))

/-- What the reads of a lookup yield, each up to its first NUL. -/
def linesRead (content : List UInt8) : List (List UInt8) := (readAll 254 content).map cstr

/-- A line that the reader's buffers take whole. -/
structure FitsLine (l : List UInt8) : Prop where
  body : (l.filter (· != lf)).length ≤ 254
  noNul : (0 : UInt8) ∉ l

/-- A line that is shorter than the reader's buffers by two bytes. -/
structure ShortLine (l : List UInt8) : Prop where
  length : l.length < 255
  noNul : (0 : UInt8) ∉ l

lemma ShortLine.fits {l : List UInt8} (h : ShortLine l) : FitsLine l :=
  ⟨(List.length_filter_le _ l).trans (by have := h.length; omega), h.noNul⟩

/-- The lines in front of the header are passed over. -/
lemma fileText_append {sectionName key header : List UInt8} {before : List (List UInt8)}
    (hbefore : ∀ l ∈ before, strncasecmpEq (sectionHeader sectionName) l = false)
    (hheader : strncasecmpEq (sectionHeader sectionName) header = true)
    (lines : List (List UInt8)) :
    fileText sectionName key (before ++ header :: lines) = sectionText key lines := by
  induction before with
  | nil => rw [List.nil_append, fileText, if_pos hheader]
  | cons l before ih =>
    rw [List.cons_append, fileText, hbefore l List.mem_cons_self, if_neg Bool.false_ne_true,
      ih fun k hk => hbefore k (List.mem_cons_of_mem l hk)]

/-- Lines that say nothing about the key are passed over. -/
lemma sectionText_skip {key : List UInt8} {mid : List (List UInt8)}
    (hmid : ∀ l ∈ mid, react key l = .skip) (lines : List (List UInt8)) :
    sectionText key (mid ++ lines) = sectionText key lines := by
  induction mid with
  | nil => rfl
  | cons l mid ih =>
    rw [List.cons_append, sectionText, hmid l List.mem_cons_self]
    exact ih fun k hk => hmid k (List.mem_cons_of_mem l hk)

/-! ## The loops, line by line -/

section Loops
variable {sectionName keyName output : List UInt8} {outputLen fuel : ℕ}

lemma react_nil (keyName : List UInt8) : react keyName [] = .skip := by
  cases keyName with
  | nil => rfl
  | cons k key => rfl

lemma passedOver_of_header {l : List UInt8}
    (h : strncasecmpEq (sectionHeader sectionName) l = true) : passedOver l = false := by
  have hhead : l[0]? = some 91 := getElem?_of_strncasecmpEq h rfl rfl
  cases l with
  | nil => nomatch hhead
  | cons b l =>
    rw [List.getElem?_cons_zero, Option.some.injEq] at hhead
    subst hhead
    rfl

/-- The inner loop computes `sectionText`. -/
theorem scanKeys_reads (content : List UInt8) (hfuel : (readAll 254 content).length + 1 ≤ fuel)
    (done : List UInt8) :
    scanKeys keyName outputLen fuel ⟨done, content, false, false⟩ output
      = match sectionText keyName (linesRead content) with
        | some text => storeValue outputLen text output
        | none => .ok output := by
  unfold linesRead
  induction content using readAll.induct 254 generalizing done fuel with
  | case1 content h =>
    rw [readAll_of_runsOut h] at hfuel ⊢
    obtain ⟨n, rfl⟩ : ∃ n, fuel = n + 2 := ⟨fuel - 2, by simp at hfuel; omega⟩
    rw [scanKeys, fgets_of_runsOut h]
    simp only [Bool.false_eq_true, if_false, List.map_singleton, sectionText]
    -- behind the last read the file has ended
    cases hreact : react keyName (cstr content) with
    | skip => simp only [scanKeys, if_true]
    | stop => rfl
    | value text => rfl
  | case2 content h ih =>
    rw [readAll_of_not_runsOut h, List.length_cons] at hfuel
    obtain ⟨n, rfl⟩ : ∃ n, fuel = n + 1 := ⟨fuel - 1, by omega⟩
    rw [readAll_of_not_runsOut h, scanKeys, fgets_of_not_runsOut h, List.map_cons]
    simp only [Bool.false_eq_true, if_false, sectionText]
    cases hreact : react keyName (cstr (takeLine (254 + 1) content)) with
    | skip => exact ih (by omega) _
    | stop => rfl
    | value text => rfl

/-- The two loops compute `fileText`. -/
theorem scanSections_reads (content : List UInt8)
    (hfuel : (readAll 254 content).length + 1 ≤ fuel) (done : List UInt8) :
    scanSections sectionName keyName outputLen fuel ⟨done, content, false, false⟩ output
      = match fileText sectionName keyName (linesRead content) with
        | some text => storeValue outputLen text output
        | none => .ok output := by
  unfold linesRead
  induction content using readAll.induct 254 generalizing done fuel with
  | case1 content h =>
    rw [readAll_of_runsOut h] at hfuel ⊢
    obtain ⟨n, rfl⟩ : ∃ n, fuel = n + 2 := ⟨fuel - 2, by simp at hfuel; omega⟩
    rw [scanSections, fgets_of_runsOut h]
    simp only [Bool.false_eq_true, if_false, List.map_singleton, fileText, sectionText, ite_self]
    simp only [scanKeys, scanSections, if_true, ite_self]
  | case2 content h ih =>
    rw [readAll_of_not_runsOut h, List.length_cons] at hfuel
    obtain ⟨n, rfl⟩ : ∃ n, fuel = n + 1 := ⟨fuel - 1, by omega⟩
    rw [readAll_of_not_runsOut h, scanSections, fgets_of_not_runsOut h, List.map_cons]
    simp only [Bool.false_eq_true, if_false, fileText]
    by_cases hheader : strncasecmpEq (sectionHeader sectionName)
        (cstr (takeLine (254 + 1) content)) = true
    · rw [passedOver_of_header hheader, if_neg Bool.false_ne_true, if_pos hheader, if_pos hheader]
      exact scanKeys_reads _ (by omega) _
    · rw [if_neg hheader, if_neg hheader, ite_self]
      exact ih (by omega) _

end Loops

/-! ## Lines that are read whole -/

section Whole
variable {sectionName keyName : List UInt8}

lemma FitsLine.length_line {l : List UInt8} (h : FitsLine l) (hl : IsLine l) :
    l.length ≤ 255 := by
  have := h.body
  rw [hl.length_eq]
  omega

lemma FitsLine.length_last {l : List UInt8} (h : FitsLine l) (hl : lf ∉ l) : l.length ≤ 254 := by
  have := h.body
  rwa [filter_of_notMem hl] at this

/-- A line that fits is read whole. -/
lemma linesRead_line {l : List UInt8} (hl : IsLine l) (hfits : FitsLine l) (rest : List UInt8) :
    linesRead (l ++ rest) = l :: linesRead rest := by
  unfold linesRead
  rw [readAll_line hl (hfits.length_line hl), List.map_cons, cstr_of_noNul hfits.noNul]

lemma linesRead_append {lines : List (List UInt8)} (hlines : ∀ l ∈ lines, IsLine l)
    (hfits : ∀ l ∈ lines, FitsLine l) (rest : List UInt8) :
    linesRead (lines.flatten ++ rest) = lines ++ linesRead rest := by
  induction lines with
  | nil => rfl
  | cons l lines ih =>
    rw [List.flatten_cons, List.append_assoc,
      linesRead_line (hlines l List.mem_cons_self) (hfits l List.mem_cons_self),
      ih (fun k hk => hlines k (List.mem_cons_of_mem l hk))
        fun k hk => hfits k (List.mem_cons_of_mem l hk), List.cons_append]

/-- A last line without a newline is read whole. -/
lemma linesRead_last {body : List UInt8} (hbody : lf ∉ body) (hfits : FitsLine body) :
    linesRead body = [body] := by
  have hlen := hfits.length_last hbody
  unfold linesRead
  rw [readAll_last hbody (by omega), List.map_singleton, cstr_of_noNul hfits.noNul]

/-- In an empty file the read that meets its end yields an empty line. -/
lemma linesRead_nil : linesRead [] = [[]] := by
  unfold linesRead
  rw [readAll_last List.not_mem_nil (by simp)]
  rfl

/-- A section of lines that are read whole. -/
lemma sectionText_linesRead {content : List UInt8} (hfits : ∀ l ∈ splitLines content, FitsLine l) :
    sectionText keyName (linesRead content) = sectionText keyName (splitLines content) := by
  induction content using lineInduction with
  | nil =>
    rw [linesRead_nil, sectionText, react_nil]
    rfl
  | line l rest hl ih =>
    rw [splitLines_append hl] at hfits ⊢
    rw [linesRead_line hl (hfits l List.mem_cons_self)]
    simp only [sectionText]
    rw [ih fun k hk => hfits k (List.mem_cons_of_mem l hk)]
  | last body hne hbody =>
    rw [splitLines_of_notMem hne hbody] at hfits ⊢
    rw [linesRead_last hbody (hfits body List.mem_cons_self)]

/-- A file of lines that are read whole. -/
lemma fileText_linesRead {content : List UInt8} (hfits : ∀ l ∈ splitLines content, FitsLine l) :
    fileText sectionName keyName (linesRead content)
      = fileText sectionName keyName (splitLines content) := by
  induction content using lineInduction with
  | nil =>
    rw [linesRead_nil, fileText, fileText, sectionText, ite_self]
    rfl
  | line l rest hl ih =>
    rw [splitLines_append hl] at hfits ⊢
    have hrest : ∀ k ∈ splitLines rest, FitsLine k := fun k hk =>
      hfits k (List.mem_cons_of_mem l hk)
    rw [linesRead_line hl (hfits l List.mem_cons_self), fileText, fileText,
      sectionText_linesRead hrest, ih hrest]
  | last body hne hbody =>
    rw [splitLines_of_notMem hne hbody] at hfits ⊢
    rw [linesRead_last hbody (hfits body List.mem_cons_self)]

end Whole

/-! ## The value in the caller's buffer -/

section Value
variable {outputLen : ℕ}

lemma put_append (a c : List UInt8) (b x : UInt8) :
    put (a ++ b :: c) a.length x = .ok (a ++ x :: c) := by
  unfold put
  simp

lemma upToEnd_cons (b : UInt8) (text : List UInt8) :
    upToEnd (b :: text) = if endsValue b then [] else b :: upToEnd text := by
  unfold upToEnd
  rw [List.takeWhile_cons]
  cases endsValue b <;> rfl

/-- From its first byte on, the value is copied up to the end of the line. -/
lemma copyValue_started (text copied rest : List UInt8)
    (hle : outputLen ≤ copied.length + rest.length)
    (hlong : copied.length + (upToEnd text).length < outputLen) :
    copyValue outputLen text true copied.length (copied ++ rest)
      = .ok (copied.length + (upToEnd text).length,
          copied ++ upToEnd text ++ rest.drop (upToEnd text).length) := by
  induction text generalizing copied rest with
  | nil => simp [copyValue, upToEnd]
  | cons b text ih =>
    rw [upToEnd_cons] at hlong ⊢
    rw [copyValue, if_neg (by simp)]
    by_cases hend : endsValue b = true
    · rw [if_pos hend, if_pos hend]
      simp
    · rw [if_neg hend, if_neg hend]
      rw [if_neg hend, List.length_cons] at hlong
      -- there is room for the byte in the buffer
      obtain ⟨c, rest, rfl⟩ : ∃ c rest', rest = c :: rest' := by
        cases rest with
        | nil => simp at hle; omega
        | cons c rest' => exact ⟨c, rest', rfl⟩
      have hlen : (copied ++ [b]).length = copied.length + 1 := by simp
      have hnext := ih (copied ++ [b]) rest (by simp at hle ⊢; omega)
        (by rw [hlen]; omega)
      rw [hlen, List.append_assoc, List.singleton_append] at hnext
      rw [put_append]
      show (if copied.length + 1 = outputLen then _ else _) = _
      rw [if_neg (by omega), hnext]
      simp [Nat.add_assoc, Nat.add_comm 1]

/-- Leading blanks are passed over. -/
lemma copyValue_blanks (text output : List UInt8) (i : ℕ) :
    copyValue outputLen text false i output
      = copyValue outputLen (text.dropWhile (· == 32)) true i output := by
  induction text with
  | nil => rfl
  | cons b text ih =>
    by_cases hblank : b = 32
    · rw [copyValue, if_pos ⟨rfl, hblank⟩, ih, List.dropWhile_cons_of_pos (by simpa using hblank)]
    · rw [List.dropWhile_cons_of_neg (by simpa using hblank)]
      conv_lhs => rw [copyValue, if_neg fun h => hblank h.2]
      conv_rhs => rw [copyValue, if_neg fun h => (nomatch h.1)]

/-- Behind the end of the line nothing is copied. -/
lemma copyValue_upToEnd (text output : List UInt8) (i : ℕ) :
    copyValue outputLen text true i output = copyValue outputLen (upToEnd text) true i output := by
  induction text generalizing i output with
  | nil => rfl
  | cons b text ih =>
    rw [upToEnd_cons, copyValue, if_neg (by simp)]
    by_cases hend : endsValue b = true
    · rw [if_pos hend, if_pos hend]
      rfl
    · rw [if_neg hend, if_neg hend, copyValue, if_neg (by simp), if_neg hend]
      simp only [ih]

/-- The buffer depends on the value only. -/
lemma storeValue_congr {text text' : List UInt8} (h : valueOf text = valueOf text')
    (output : List UInt8) :
    storeValue outputLen text output = storeValue outputLen text' output := by
  have hcopy : ∀ t, copyValue outputLen t false 0 output
      = copyValue outputLen (valueOf t) true 0 output := fun t => by
    rw [copyValue_blanks, copyValue_upToEnd]
    rfl
  unfold storeValue
  rw [hcopy text, hcopy text', h]

lemma storeValue_of_empty {text : List UInt8} (h : valueOf text = []) (output : List UInt8) :
    storeValue outputLen text output = .ok output :=
  storeValue_congr (h.trans (show [] = valueOf [] from rfl)) output

/-- A value shorter than the buffer replaces its string, unless it is empty. -/
theorem storeValue_eq (text : List UInt8) {output : List UInt8} (hle : outputLen ≤ output.length)
    (hlong : (valueOf text).length < outputLen) :
    storeValue outputLen text output
      = .ok (if valueOf text = [] then output
          else valueOf text ++ 0 :: output.drop ((valueOf text).length + 1)) := by
  have hcopy := copyValue_started (text.dropWhile (· == 32)) [] output
    (show outputLen ≤ 0 + output.length by omega) (by simpa [valueOf] using hlong)
  rw [List.length_nil, List.nil_append, List.nil_append, Nat.zero_add] at hcopy
  unfold storeValue
  rw [copyValue_blanks, hcopy]
  show (if 0 < (valueOf text).length then _ else _) = _
  -- an empty value leaves the default in the buffer
  by_cases hnil : valueOf text = []
  · rw [hnil, if_neg (by simp), if_pos rfl]
    show Except.ok (valueOf text ++ output.drop (valueOf text).length) = _
    rw [hnil]
    rfl
  · have hpos := List.length_pos_of_ne_nil hnil
    rw [if_pos hpos, if_neg hnil]
    obtain ⟨c, rest, hrest⟩ : ∃ c rest, output.drop (valueOf text).length = c :: rest := by
      cases hdrop : output.drop (valueOf text).length with
      | nil => rw [List.drop_eq_nil_iff] at hdrop; omega
      | cons c rest => exact ⟨c, rest, rfl⟩
    show put (valueOf text ++ output.drop (valueOf text).length) (valueOf text).length 0 = _
    rw [← List.tail_drop, hrest, put_append, List.tail_cons]

/-- A value ends before the end of the string. -/
lemma zero_notMem_valueOf (text : List UInt8) : (0 : UInt8) ∉ valueOf text := by
  intro hmem
  have hends := List.mem_takeWhile_imp hmem
  simp [endsValue] at hends

/-- The string a lookup leaves in the buffer. -/
lemma cstr_storeValue {text output output' : List UInt8} (hle : outputLen ≤ output.length)
    (hlong : (valueOf text).length < outputLen)
    (h : storeValue outputLen text output = .ok output') :
    cstr output' = if valueOf text = [] then cstr output else valueOf text := by
  rw [storeValue_eq text hle hlong, Except.ok.injEq] at h
  subst h
  split
  · rfl
  · exact cstr_append_nul (zero_notMem_valueOf text) _

end Value

/-! ## The lookup as a whole -/

section Lookup
variable {sectionName keyName : List UInt8}

lemma copyNames_eq_ok :
    copyNames sectionName keyName = .ok () ↔
      sectionName.length ≤ 97 ∧ keyName.length ≤ 99 := by
  unfold copyNames sectionHeader
  simp only [List.length_cons, List.length_append, List.length_nil]
  split_ifs with h
  · simp; omega
  · simp; omega

lemma copyNames_of_long (h : ¬ (sectionName.length ≤ 97 ∧ keyName.length ≤ 99)) :
    copyNames sectionName keyName = .error .outOfBounds := by
  unfold copyNames sectionHeader
  rw [if_neg]
  simp only [List.length_cons, List.length_append, List.length_nil]
  omega

lemma strcpy_eq_ok {area text : List UInt8} (h : text.length < area.length) :
    strcpy area text = .ok (text ++ 0 :: area.drop (text.length + 1)) := if_pos h

lemma length_strcpy {area text : List UInt8} (h : text.length < area.length) :
    (text ++ 0 :: area.drop (text.length + 1)).length = area.length := by
  simp
  omega

/-- `GetStringContentValue` on a file. -/
theorem getStringContentValue_eq (content : List UInt8) (output : List UInt8) (outputLen : ℕ) :
    getStringContentValue (content.length + 2) (fopen content) sectionName keyName output outputLen
      = (do
        copyNames sectionName keyName
        match fileText sectionName keyName (linesRead content) with
        | some text => storeValue outputLen text output
        | none => .ok output) := by
  have hfuel : (readAll 254 content).length + 1 ≤ content.length + 2 :=
    Nat.add_le_add_right (length_readAll_le content) 1
  unfold getStringContentValue fopen
  simp only [scanSections_reads content hfuel]

/-- A lookup in a file. -/
theorem get_reads (content : List UInt8) (defaultVal : Option (List UInt8))
    (output : List UInt8) (outputLen : ℕ) :
    getConfigFileStringValue sectionName keyName defaultVal output outputLen (some content)
      = (do
        let output ← strcpy output (defaultVal.getD [])
        copyNames sectionName keyName
        match fileText sectionName keyName (linesRead content) with
        | some text => storeValue outputLen text output
        | none => .ok output) := by
  unfold getConfigFileStringValue
  simp only [getStringContentValue_eq]

/-- A lookup in a file of short lines. -/
theorem get_eq {content : List UInt8} (hshort : ∀ l ∈ splitLines content, ShortLine l)
    (defaultVal : Option (List UInt8)) (output : List UInt8) (outputLen : ℕ) :
    getConfigFileStringValue sectionName keyName defaultVal output outputLen (some content)
      = (do
        let output ← strcpy output (defaultVal.getD [])
        copyNames sectionName keyName
        match fileText sectionName keyName (splitLines content) with
        | some text => storeValue outputLen text output
        | none => .ok output) := by
  rw [get_reads, fileText_linesRead fun l hl => (hshort l hl).fits]

/-- A lookup that comes upon a line of its key, behind lines that say nothing about it;
whatever follows is not read. -/
theorem get_of_lines {before mid : List (List UInt8)} {header line text : List UInt8}
    (rest output : List UInt8) (outputLen : ℕ) (defaultVal : Option (List UInt8))
    (hlines : ∀ l ∈ before ++ header :: (mid ++ [line]), IsLine l)
    (hshort : ∀ l ∈ before ++ header :: (mid ++ [line]), ShortLine l)
    (hbefore : ∀ l ∈ before, strncasecmpEq (sectionHeader sectionName) l = false)
    (hheader : strncasecmpEq (sectionHeader sectionName) header = true)
    (hmid : ∀ l ∈ mid, react keyName l = .skip) (hline : react keyName line = .value text) :
    getConfigFileStringValue sectionName keyName defaultVal output outputLen
        (some ((before ++ header :: (mid ++ [line])).flatten ++ rest))
      = (do
        let output ← strcpy output (defaultVal.getD [])
        copyNames sectionName keyName
        storeValue outputLen text output) := by
  rw [get_reads, linesRead_append hlines fun l hl => (hshort l hl).fits, List.append_assoc,
    List.cons_append, List.append_assoc, fileText_append hbefore hheader, sectionText_skip hmid,
    List.singleton_append, sectionText, hline]

end Lookup

end IpncRdk.SysCfg
