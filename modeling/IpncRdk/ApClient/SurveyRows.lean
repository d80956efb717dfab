import IpncRdk.ApClient.Columns

/-!
# `ap_client.c`: the rows of a survey

Which texts of the driver `wifi_site_survey` takes apart as it should: those whose rows lie so in
the buffer that the columns of fixed width do not run into the next row.

* `rows` — the rows behind the heading;
* `EntryOf` — the entry of a row;
* `Parsed` — the table has the entries of the rows;
* `parsed_iff` — the texts that are taken apart right.
-/

namespace IpncRdk.ApClient

open Lib

/-- The lines of a text that are not empty; the first one begins at `pos`. -/
def linesFrom : ℕ → List (List UInt8) → List Row
  | _, [] => []
  | pos, l :: ls =>
    let chars := l.filter (· != lf)
    if chars = [] then linesFrom (pos + l.length) ls
    else ⟨pos, chars, ls.flatten⟩ :: linesFrom (pos + l.length) ls

/-- The rows of a survey: its lines without the heading. -/
def rows (text : List UInt8) : List Row := (linesFrom 0 (splitLines text)).tail

/-- The security column in two parts: what is in front of the slash, and what is behind it. -/
structure SecurityOf (col : List UInt8) (e : SurveyTable) : Prop where
  security : Holds e.security.toList (col.takeWhile (· != slash))
  crypto : e.cryptoText = (col.dropWhile (· != slash)).tail
  hasCrypto : e.crypto.isSome = true ↔ slash ∈ col

/-- The entry of a row. -/
structure EntryOf (chars : List UInt8) (e : SurveyTable) : Prop where
  channel : Holds e.channel.toList (column chars 0 4)
  ssid : Holds e.ssid.toList (column chars 4 33)
  bssid : Holds e.bssid.toList (column chars 37 20)
  security : SecurityOf (column chars 57 23) e

/-- The table has the entries of the rows, as many as there is room for. -/
structure Parsed (text : List UInt8) (st : List SurveyTable) : Prop where
  count : st.length = min stSize (rows text).length
  entries : List.Forall₂ EntryOf (((rows text).take stSize).map (·.chars)) st

/-- The columns of a row fit, and the buffer does not end in them. -/
structure RowFits (row : Row) : Prop where
  room : row.pos + 80 ≤ iwScanMaxData
  channel : ColumnFits row 0 4
  ssid : ColumnFits row 4 33
  bssid : ColumnFits row 37 20
  security : ColumnFits row 57 23

/-! ## An entry -/

section Entry

lemma takeWhile_slash {a : List UInt8} (ha : slash ∉ a) (c : List UInt8) :
    (a ++ slash :: c).takeWhile (· != slash) = a := by
  rw [List.takeWhile_append_of_pos fun b hb => by simpa using fun h : b = slash => ha (h ▸ hb)]
  simp

lemma dropWhile_slash {a : List UInt8} (ha : slash ∉ a) (c : List UInt8) :
    (a ++ slash :: c).dropWhile (· != slash) = slash :: c := by
  rw [List.dropWhile_append_of_pos fun b hb => by simpa using fun h : b = slash => ha (h ▸ hb)]
  simp

/-- A text is known from its parts. -/
lemma eq_of_parts {text col : List UInt8}
    (htake : text.takeWhile (· != slash) = col.takeWhile (· != slash))
    (hdrop : (text.dropWhile (· != slash)).tail = (col.dropWhile (· != slash)).tail)
    (hmem : slash ∈ text ↔ slash ∈ col) : text = col := by
  by_cases h : slash ∈ text
  · obtain ⟨a, c, rfl, ha⟩ := List.eq_append_cons_of_mem h
    obtain ⟨a', c', rfl, ha'⟩ := List.eq_append_cons_of_mem (hmem.mp h)
    rw [takeWhile_slash ha, takeWhile_slash ha'] at htake
    rw [dropWhile_slash ha, dropWhile_slash ha', List.tail_cons, List.tail_cons] at hdrop
    rw [htake, hdrop]
  · have hself {t : List UInt8} (ht : slash ∉ t) : t.takeWhile (· != slash) = t := by
      rw [List.takeWhile_eq_self_iff]
      intro b hb
      simpa using fun heq : b = slash => ht (heq ▸ hb)
    rw [← hself h, htake, hself fun hc => h (hmem.mpr hc)]

/-- What `wifi_site_survey` makes of the security column. -/
lemma splitCrypto_of_nul {e : SurveyTable} (h : (0 : UInt8) ∈ e.security.toList) :
    ∃ e', splitCrypto e = .ok e' ∧ e'.channel = e.channel ∧ e'.ssid = e.ssid ∧
      e'.bssid = e.bssid ∧ SecurityOf (cstr e.security.toList) e' := by
  obtain ⟨rest, hrest⟩ := eq_cstr_append h
  have hnul := nul_notMem_cstr e.security.toList
  unfold splitCrypto
  dsimp only
  rw [if_neg fun hnot => hnot h]
  generalize cstr e.security.toList = text at *
  by_cases hslash : slash ∈ text
  · obtain ⟨a, c, rfl, ha⟩ := List.eq_append_cons_of_mem hslash
    have ha0 : (0 : UInt8) ∉ a := fun h0 => hnul (List.mem_append_left _ h0)
    have hc0 : (0 : UInt8) ∉ c := fun h0 =>
      hnul (List.mem_append_right _ (List.mem_cons_of_mem _ h0))
    -- the first slash of the text is the first one of the array
    have hidx : e.security.toList.idxOf slash = a.length := by
      rw [hrest, List.append_assoc, List.cons_append, List.idxOf_append_of_notMem ha,
        List.idxOf_cons_self, Nat.add_zero]
    have hcut : e.security.toList.set a.length 0 = a ++ 0 :: (c ++ 0 :: rest) := by
      rw [hrest, List.append_assoc, List.cons_append, List.set_append_right _ _ (le_refl _),
        Nat.sub_self, List.set_cons_zero]
    rw [if_pos hslash]
    refine ⟨_, rfl, rfl, rfl, rfl, ?_, ?_, ?_⟩
    · rw [takeWhile_slash ha]
      change Holds (e.security.toList.set (e.security.toList.idxOf slash) 0) a
      rw [hidx, hcut]
      exact ⟨by simp, cstr_append_nul ha0 _⟩
    · rw [dropWhile_slash ha, List.tail_cons]
      change cstr ((e.security.toList.set (e.security.toList.idxOf slash) 0).drop
        (e.security.toList.idxOf slash + 1)) = c
      rw [hidx, hcut, ← List.drop_drop, List.drop_left, List.drop_succ_cons, List.drop_zero,
        cstr_append_nul hc0]
    · exact iff_of_true rfl hslash
  · rw [if_neg hslash]
    have hnone : ∀ b ∈ text, (b != slash) = true := fun b hb => by
      simpa using fun heq : b = slash => hslash (heq ▸ hb)
    refine ⟨_, rfl, rfl, rfl, rfl, ⟨?_, ?_, ?_⟩⟩
    · rw [List.takeWhile_eq_self_iff.mpr hnone, hrest]
      exact ⟨by simp, cstr_append_nul hnul rest⟩
    · rw [List.dropWhile_eq_nil_iff.mpr hnone]
      rfl
    · exact iff_of_false (fun h => by cases h) hslash

/-- The entry comes out right when its four arrays held the columns. -/
lemma splitCrypto_iff {e : SurveyTable} {chars : List UInt8} :
    (∃ e', splitCrypto e = .ok e' ∧ EntryOf chars e') ↔
      Holds e.channel.toList (column chars 0 4) ∧ Holds e.ssid.toList (column chars 4 33) ∧
        Holds e.bssid.toList (column chars 37 20) ∧
          Holds e.security.toList (column chars 57 23) := by
  constructor
  · rintro ⟨e', hok, hchannel, hssid, hbssid, hcol⟩
    by_cases hnul : (0 : UInt8) ∈ e.security.toList
    · obtain ⟨e'', hok', hc, hs, hb, htext⟩ := splitCrypto_of_nul hnul
      obtain rfl := Except.ok.inj (hok.symm.trans hok')
      refine ⟨hc ▸ hchannel, hs ▸ hssid, hb ▸ hbssid, hnul, eq_of_parts ?_ ?_ ?_⟩
      · rw [← htext.security.2, ← hcol.security.2]
      · rw [← htext.crypto, ← hcol.crypto]
      · rw [← htext.hasCrypto, ← hcol.hasCrypto]
    · unfold splitCrypto at hok
      dsimp only at hok
      rw [if_pos hnul] at hok
      cases hok
  · rintro ⟨hchannel, hssid, hbssid, hnul, hcol⟩
    obtain ⟨e', hok, hc, hs, hb, htext⟩ := splitCrypto_of_nul hnul
    exact ⟨e', hok, hc ▸ hchannel, hs ▸ hssid, hb ▸ hbssid, hcol ▸ htext⟩

lemma nextField_of_le (line : List UInt8) (n : ℕ) (h : n ≤ line.length) :
    ∃ v, nextField line n = .ok (v, line.drop n) ∧ v.toList = copied line 0 n := by
  unfold nextField
  rw [dif_pos h]
  exact ⟨_, rfl, rfl⟩

lemma nextField_eq_ok {line : List UInt8} {n : ℕ} {out : List.Vector UInt8 n × List UInt8}
    (h : nextField line n = .ok out) : n ≤ line.length ∧ out.2 = line.drop n := by
  unfold nextField at h
  split_ifs at h with hle
  cases h
  exact ⟨hle, rfl⟩

lemma copied_drop (line : List UInt8) (d o n : ℕ) :
    copied (line.drop d) o n = copied line (d + o) n := by
  unfold copied
  rw [List.drop_drop]

/-- The four columns of a line that is long enough. -/
lemma fields_of_le (line : List UInt8) (h : 80 ≤ line.length) :
    ∃ e, fields line = .ok e ∧ e.channel.toList = copied line 0 4 ∧
      e.ssid.toList = copied line 4 33 ∧ e.bssid.toList = copied line 37 20 ∧
      e.security.toList = copied line 57 23 := by
  obtain ⟨channel, hc, hchannel⟩ := nextField_of_le line 4 (by omega)
  obtain ⟨ssid, hs, hssid⟩ := nextField_of_le (line.drop 4) 33
    (by rw [List.length_drop]; omega)
  obtain ⟨bssid, hb, hbssid⟩ := nextField_of_le (line.drop 37) 20
    (by rw [List.length_drop]; omega)
  obtain ⟨security, hse, hsecurity⟩ := nextField_of_le (line.drop 57) 23
    (by rw [List.length_drop]; omega)
  rw [List.drop_drop] at hs hb
  unfold fields
  rw [hc, ok_bind, hs, ok_bind, hb, ok_bind, hse, ok_bind]
  refine ⟨_, rfl, hchannel, ?_, ?_, ?_⟩
  · rw [← copied_drop line 4 0, ← hssid]
  · rw [← copied_drop line 37 0, ← hbssid]
  · rw [← copied_drop line 57 0, ← hsecurity]

/-- A line that is too short for the columns is read past the end of the buffer. -/
lemma le_of_fields {line : List UInt8} {e : SurveyTable} (h : fields line = .ok e) :
    80 ≤ line.length := by
  unfold fields at h
  obtain ⟨channel, hc, h⟩ := bind_eq_ok_iff.mp h
  obtain ⟨ssid, hs, h⟩ := bind_eq_ok_iff.mp h
  obtain ⟨bssid, hb, h⟩ := bind_eq_ok_iff.mp h
  obtain ⟨security, hse, h⟩ := bind_eq_ok_iff.mp h
  have h₁ := nextField_eq_ok hc
  have h₂ := nextField_eq_ok hs
  have h₃ := nextField_eq_ok hb
  have h₄ := nextField_eq_ok hse
  rw [h₁.2, List.length_drop] at h₂
  rw [h₂.2, List.drop_drop, List.length_drop] at h₃
  rw [h₃.2, List.drop_drop, List.length_drop] at h₄
  omega

/-- The four arrays hold the columns of the row when the columns fit. -/
lemma fields_iff {row : Row} {zeros : ℕ} (hchars : (0 : UInt8) ∉ row.chars)
    (hbehind : (0 : UInt8) ∉ row.behind)
    (hend : row.pos + row.chars.length + 1 + row.behind.length + zeros = iwScanMaxData) :
    (∃ e, fields (row.line zeros) = .ok e ∧
      Holds e.channel.toList (column row.chars 0 4) ∧ Holds e.ssid.toList (column row.chars 4 33) ∧
        Holds e.bssid.toList (column row.chars 37 20) ∧
          Holds e.security.toList (column row.chars 57 23)) ↔ RowFits row := by
  have hlength : row.pos + (row.line zeros).length = iwScanMaxData := by
    unfold Row.line
    simp only [List.length_append, List.length_cons, List.length_replicate]
    omega
  have hfits {o n : ℕ} (hn : 1 < n) (hlen : o + n ≤ (row.line zeros).length) :=
    holds_iff hchars hbehind hn hlen
  constructor
  · rintro ⟨e, hfields, hc, hs, hb, hse⟩
    have hroom := le_of_fields hfields
    obtain ⟨e₀, hok, hchannel, hssid, hbssid, hsecurity⟩ := fields_of_le _ hroom
    obtain rfl := Except.ok.inj (hfields.symm.trans hok)
    rw [hchannel, hfits (by decide) (by omega)] at hc
    rw [hssid, hfits (by decide) (by omega)] at hs
    rw [hbssid, hfits (by decide) (by omega)] at hb
    rw [hsecurity, hfits (by decide) (by omega)] at hse
    exact ⟨by omega, hc, hs, hb, hse⟩
  · rintro ⟨hroom, hc, hs, hb, hse⟩
    obtain ⟨e, hok, hchannel, hssid, hbssid, hsecurity⟩ :=
      fields_of_le (row.line zeros) (by omega)
    refine ⟨e, hok, ?_⟩
    rw [hchannel, hssid, hbssid, hsecurity, hfits (by decide) (by omega),
      hfits (by decide) (by omega), hfits (by decide) (by omega), hfits (by decide) (by omega)]
    exact ⟨hc, hs, hb, hse⟩

/-- The entry that is made of a row. -/
lemma entry_iff {row : Row} {zeros : ℕ} (hchars : (0 : UInt8) ∉ row.chars)
    (hbehind : (0 : UInt8) ∉ row.behind)
    (hend : row.pos + row.chars.length + 1 + row.behind.length + zeros = iwScanMaxData) :
    (∃ e e', fields (row.line zeros) = .ok e ∧ splitCrypto e = .ok e' ∧ EntryOf row.chars e') ↔
      RowFits row := by
  rw [← fields_iff hchars hbehind hend]
  simp only [← splitCrypto_iff, exists_and_left]

end Entry

/-! ## The lines that `strtok` finds -/

section Strtok

@[simp] lemma strtok_lf (buffer : List UInt8) : strtok (lf :: buffer) = strtok buffer := by
  unfold strtok
  rw [List.dropWhile_cons_of_pos (by decide)]

lemma strtok_dropWhile (buffer : List UInt8) :
    strtok (buffer.dropWhile (· == lf)) = strtok buffer := by
  unfold strtok
  rw [List.dropWhile_idempotent]

/-- No line is left. -/
lemma strtok_zeros {m : ℕ} (hm : 0 < m) :
    strtok (List.replicate m 0) = .ok (none, List.replicate m 0) := by
  obtain ⟨m, rfl⟩ : ∃ k, m = k + 1 := ⟨m - 1, by omega⟩
  unfold strtok
  rw [List.replicate_succ, List.dropWhile_cons_of_neg (by decide)]
  dsimp only
  rw [List.takeWhile_cons_of_neg (by decide)]
  rfl

/-- A line, with the byte that ends it. -/
lemma strtok_row {chars : List UInt8} (hne : chars ≠ []) (hlf : lf ∉ chars)
    (hnul : (0 : UInt8) ∉ chars) {b : UInt8} (hb : b = lf ∨ b = 0) (rest : List UInt8) :
    strtok (chars ++ b :: rest) =
      .ok (some (chars ++ 0 :: rest), if b = lf then rest else b :: rest) := by
  have hstart : (chars ++ b :: rest).dropWhile (· == lf) = chars ++ b :: rest := by
    cases chars with
    | nil => exact absurd rfl hne
    | cons c chars =>
      rw [List.cons_append, List.dropWhile_cons_of_neg]
      simpa using fun h : c = lf => hlf (h ▸ List.mem_cons_self)
  have hrow : (chars ++ b :: rest).takeWhile (fun b => b != lf && b != 0) = chars := by
    rw [List.takeWhile_append_of_pos]
    · rw [List.takeWhile_cons_of_neg, List.append_nil]
      rcases hb with rfl | rfl <;> decide
    · intro c hc
      have h₁ : c ≠ lf := fun h => hlf (h ▸ hc)
      have h₂ : c ≠ 0 := fun h => hnul (h ▸ hc)
      simp [h₁, h₂]
  unfold strtok
  rw [hstart]
  dsimp only
  rw [hrow, List.drop_left]
  dsimp only
  rw [if_neg hne]
  split_ifs with hblf
  · rfl
  · rw [hb.resolve_left hblf]

/-- The rest of a text in the buffer, from the place `pos` on. -/
structure Rest (pos : ℕ) (text : List UInt8) (zeros : ℕ) : Prop where
  noNul : (0 : UInt8) ∉ text
  some_zeros : 0 < zeros
  size : pos + text.length + zeros = iwScanMaxData

/-- The next search finds the next line that is not empty. -/
lemma strtok_rest {pos : ℕ} {text : List UInt8} {zeros : ℕ} (h : Rest pos text zeros) :
    (linesFrom pos (splitLines text) = [] ∧
      strtok (text ++ List.replicate zeros 0) = .ok (none, List.replicate zeros 0)) ∨
    ∃ row pos' text' z, linesFrom pos (splitLines text) = row :: linesFrom pos' (splitLines text') ∧
      strtok (text ++ List.replicate zeros 0) =
        .ok (some (row.line z), text' ++ List.replicate zeros 0) ∧
      Rest pos' text' zeros ∧ (0 : UInt8) ∉ row.chars ∧ (0 : UInt8) ∉ row.behind ∧
      row.pos + row.chars.length + 1 + row.behind.length + z = iwScanMaxData := by
  induction text using lineInduction generalizing pos with
  | nil => exact Or.inl ⟨rfl, strtok_zeros h.some_zeros⟩
  | line l rest hl ih =>
    have hrest : Rest (pos + l.length) rest zeros :=
      ⟨fun h0 => h.noNul (List.mem_append_right _ h0), h.some_zeros, by
        rw [← h.size, List.length_append]
        omega⟩
    rw [splitLines_append hl, linesFrom]
    obtain ⟨body, rfl, hbody⟩ := hl
    have hchars : (body ++ [lf]).filter (· != lf) = body := by
      rw [List.filter_append, filter_of_notMem hbody]
      simp
    rw [hchars, List.append_assoc]
    by_cases hempty : body = []
    · -- an empty line is passed over
      subst hempty
      rw [if_pos rfl, List.nil_append, List.singleton_append, strtok_lf]
      exact ih hrest
    · have hnul : (0 : UInt8) ∉ body := fun h0 =>
        h.noNul (List.mem_append_left _ (List.mem_append_left _ h0))
      have hsize := h.size
      rw [if_neg hempty, splitLines_flatten, List.append_assoc, List.singleton_append,
        strtok_row hempty hbody hnul (Or.inl rfl), if_pos rfl]
      refine Or.inr ⟨⟨pos, body, rest⟩, _, rest, zeros, rfl, rfl, hrest, hnul, hrest.noNul, ?_⟩
      simp only [List.length_append, List.length_singleton] at hsize
      dsimp only
      omega
  | last body hne hbody =>
    -- the last line ends in the first of the zeros
    obtain ⟨z, rfl⟩ : ∃ z, zeros = z + 1 := ⟨zeros - 1, by have := h.some_zeros; omega⟩
    have hsize := h.size
    rw [splitLines_of_notMem hne hbody, linesFrom, filter_of_notMem hbody, if_neg hne,
      List.replicate_succ, strtok_row hne hbody h.noNul (Or.inr rfl), if_neg (by decide)]
    refine Or.inr ⟨⟨pos, body, [].flatten⟩, pos + body.length, [], z, rfl, rfl,
      ⟨List.not_mem_nil, h.some_zeros, ?_⟩, h.noNul, List.not_mem_nil, ?_⟩
    · simpa using hsize
    · simp only [List.flatten_nil, List.length_nil]
      omega

end Strtok

/-! ## The table -/

section Table

/-- The loop makes the entries of the rows that are left. -/
lemma surveyLoop_iff {rooms pos : ℕ} {text : List UInt8} {zeros : ℕ} (h : Rest pos text zeros) :
    (∃ tok st, strtok (text ++ List.replicate zeros 0) = .ok tok ∧
      surveyLoop rooms tok.1 tok.2 = .ok st ∧
      List.Forall₂ EntryOf (((linesFrom pos (splitLines text)).take rooms).map (·.chars)) st) ↔
    ∀ row ∈ (linesFrom pos (splitLines text)).take rooms, RowFits row := by
  induction rooms generalizing pos text with
  | zero =>
    rw [List.take_zero]
    refine iff_of_true ?_ fun row hrow => absurd hrow List.not_mem_nil
    rcases strtok_rest h with ⟨-, htok⟩ | ⟨row, _, _, z, -, htok, -⟩
    · exact ⟨_, [], htok, rfl, List.Forall₂.nil⟩
    · exact ⟨_, [], htok, rfl, List.Forall₂.nil⟩
  | succ rooms ih =>
    rcases strtok_rest h with ⟨hnone, htok⟩ |
      ⟨row, pos', text', z, hrow, htok, hrest, hchars, hbehind, hend⟩
    · rw [hnone, List.take_nil]
      exact iff_of_true ⟨_, [], htok, rfl, List.Forall₂.nil⟩
        fun row hrow => absurd hrow List.not_mem_nil
    · rw [hrow, List.take_succ_cons, List.map_cons, List.forall_mem_cons, ← ih hrest,
        ← entry_iff hchars hbehind hend]
      constructor
      · rintro ⟨tok, st, htok', hloop, hst⟩
        obtain rfl := Except.ok.inj (htok.symm.trans htok')
        -- the columns, the next line, the crypto of the entry, and the other rows
        rw [surveyLoop] at hloop
        obtain ⟨e, hfields, hloop⟩ := bind_eq_ok_iff.mp hloop
        obtain ⟨tok', hnext, hloop⟩ := bind_eq_ok_iff.mp hloop
        obtain ⟨e', hsplit, hloop⟩ := bind_eq_ok_iff.mp hloop
        obtain ⟨es, hes, hloop⟩ := bind_eq_ok_iff.mp hloop
        cases hloop
        obtain ⟨hentry, hentries⟩ := List.forall₂_cons.mp hst
        exact ⟨⟨e, e', hfields, hsplit, hentry⟩, tok', es, hnext, hes, hentries⟩
      · rintro ⟨⟨e, e', hfields, hsplit, hentry⟩, tok', es, hnext, hes, hentries⟩
        refine ⟨_, e' :: es, htok, ?_, List.Forall₂.cons hentry hentries⟩
        rw [surveyLoop, hfields, ok_bind, hnext, ok_bind, hsplit, ok_bind, hes, ok_bind]

/-- The table has one entry for a row. -/
lemma parsed_of_entries {text : List UInt8} {st : List SurveyTable}
    (h : List.Forall₂ EntryOf (((rows text).take stSize).map (·.chars)) st) : Parsed text st := by
  refine ⟨?_, h⟩
  rw [← h.length_eq, List.length_map, List.length_take]

lemma parsed_iff_entries {text : List UInt8} {st : List SurveyTable} :
    Parsed text st ↔ List.Forall₂ EntryOf (((rows text).take stSize).map (·.chars)) st :=
  ⟨fun h => h.entries, parsed_of_entries⟩

/-- Without a text the table stays. -/
lemma survey_iff_of_empty {st : List SurveyTable} {r : Reply} (hempty : r.text = []) :
    (∃ st', wifiSiteSurvey st (some r) = .ok st' ∧ Parsed r.text st') ↔ st = [] := by
  have hcall : wifiSiteSurvey st (some r) = .ok st := by
    unfold wifiSiteSurvey
    dsimp only
    rw [if_pos (by simp [hempty])]
  have hrows : rows r.text = [] := by
    rw [hempty]
    rfl
  rw [hcall]
  simp only [parsed_iff_entries, hrows, List.take_nil, List.map_nil, List.forall₂_nil_left_iff]
  constructor
  · rintro ⟨st', hst, rfl⟩
    exact Except.ok.inj hst
  · rintro rfl
    exact ⟨[], rfl, rfl⟩

lemma survey_iff_of_text {st : List SurveyTable} {r : Reply} (hne : r.text ≠ []) :
    (∃ st', wifiSiteSurvey st (some r) = .ok st' ∧ Parsed r.text st') ↔
      ∀ row ∈ (rows r.text).take stSize, RowFits row := by
  have hcall : wifiSiteSurvey st (some r) = (strtok r.buffer >>= fun heading =>
      strtok heading.2 >>= fun tok => surveyLoop stSize tok.1 tok.2) := by
    have hlen := List.length_pos_iff.mpr hne
    unfold wifiSiteSurvey
    dsimp only
    rw [if_neg (by omega), strtok_dropWhile]
  have hfits := r.fits
  have hbuffer : Rest 0 r.text (iwScanMaxData - r.text.length) := ⟨r.noNul, by omega, by omega⟩
  rw [hcall]
  simp only [parsed_iff_entries]
  unfold Reply.buffer rows
  rcases strtok_rest hbuffer with ⟨hnone, htok⟩ | ⟨row, pos', text', z, hrow, htok, hrest, -⟩
  · rw [hnone, List.tail_nil, List.take_nil, htok, ok_bind, strtok_zeros hbuffer.some_zeros,
      ok_bind]
    exact iff_of_true ⟨[], rfl, List.Forall₂.nil⟩ fun row hrow => absurd hrow List.not_mem_nil
  · -- the first line is the heading
    rw [hrow, List.tail_cons, ← surveyLoop_iff hrest, htok, ok_bind]
    constructor
    · rintro ⟨st', hst, hentries⟩
      obtain ⟨tok, hnext, hloop⟩ := bind_eq_ok_iff.mp hst
      exact ⟨tok, st', hnext, hloop, hentries⟩
    · rintro ⟨tok, st', hnext, hloop, hentries⟩
      exact ⟨st', bind_eq_ok_iff.mpr ⟨tok, hnext, hloop⟩, hentries⟩

end Table

/-! ## The surveys that are taken apart -/

/-- A survey gives the entries of the rows of its text exactly when the columns of these rows fit,
and an empty text exactly when the table was empty before. -/
theorem parsed_iff (st : List SurveyTable) (r : Reply) :
    (∃ st', wifiSiteSurvey st (some r) = .ok st' ∧ Parsed r.text st') ↔
      (r.text = [] → st = []) ∧ ∀ row ∈ (rows r.text).take stSize, RowFits row := by
  by_cases hempty : r.text = []
  · have hrows : rows r.text = [] := by
      rw [hempty]
      rfl
    rw [survey_iff_of_empty hempty, hrows, List.take_nil]
    exact ⟨fun hst => ⟨fun _ => hst, fun row hrow => absurd hrow List.not_mem_nil⟩,
      fun h => h.1 hempty⟩
  · rw [survey_iff_of_text hempty, and_iff_right fun h => absurd h hempty]

/-- A row of one character takes its name from the next row. -/
theorem shortRow_not_parsed : ∃ r : Reply,
    r.text = [67, 104, 10, 49, 10, 54, 32, 32, 32, 97, 98, 99] ∧
      ¬ ∃ st', wifiSiteSurvey [] (some r) = .ok st' ∧ Parsed r.text st' := by
  refine ⟨⟨[67, 104, 10, 49, 10, 54, 32, 32, 32, 97, 98, 99], by decide, by decide⟩, rfl, ?_⟩
  rw [survey_iff_of_text (by simp)]
  intro hrows
  have hrow : (⟨3, [49], [54, 32, 32, 32, 97, 98, 99]⟩ : Row) ∈
      (rows [67, 104, 10, 49, 10, 54, 32, 32, 32, 97, 98, 99]).take stSize := by
    have hlines : rows [67, 104, 10, 49, 10, 54, 32, 32, 32, 97, 98, 99] =
        [⟨3, [49], [54, 32, 32, 32, 97, 98, 99]⟩, ⟨5, [54, 32, 32, 32, 97, 98, 99], []⟩] := by rfl
    rw [hlines]
    exact List.mem_cons_self
  have hssid := (hrows _ hrow).ssid
  unfold ColumnFits at hssid
  simp at hssid

end IpncRdk.ApClient
