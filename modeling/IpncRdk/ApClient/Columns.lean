import IpncRdk.ApClient.Survey
import Mathlib.Data.List.DropRight

/-!
# `ap_client.c`: the columns of a row

What a column of a row is, and when the bytes that `next_field` copies hold it: they do not stop
at the end of the row.

* `column` — a column of a row, without its trailing blanks;
* `Holds` — an array holds a text;
* `ColumnFits` — a column of a row that lies in the buffer as the code needs it;
* `holds_iff` — the columns that `next_field` copies.
-/

namespace IpncRdk.ApClient

open Lib

/-- A text without its trailing blanks. Of one of blanks alone the first stays: it is the name of
a hidden network. -/
def trimmed : List UInt8 → List UInt8
  | [] => []
  | b :: text => b :: text.rdropWhile (· == blank)

/-- The column of width `n` at the place `o` of a row. -/
def column (chars : List UInt8) (o n : ℕ) : List UInt8 := trimmed ((chars.drop o).take n)

/-- The array has the text, with its NUL. -/
def Holds (array text : List UInt8) : Prop := (0 : UInt8) ∈ array ∧ cstr array = text

/-- A row of the survey: the place where it begins in the text, its characters, and the text behind
its newline. -/
structure Row where
  pos : ℕ
  chars : List UInt8
  behind : List UInt8

/-- A column that is whole ends in a blank, one that the row ends in has no trailing blanks, and
where one is missing there is no text behind the row. -/
def ColumnFits (row : Row) (o n : ℕ) : Prop :=
  if o + n ≤ row.chars.length then row.chars[o + n - 1]? = some blank
  else if o ≤ row.chars.length then trimmed (row.chars.drop o) = row.chars.drop o
  else row.chars.length + 1 + row.behind.length ≤ o

/-- The bytes from the first one of a row on: `zeros` of the buffer are behind the text. -/
def Row.line (row : Row) (zeros : ℕ) : List UInt8 :=
  row.chars ++ 0 :: (row.behind ++ List.replicate zeros 0)

/-! ## Trimming -/

section Trim

lemma rdropWhile_append_cons (text rest : List UInt8) {c : UInt8} (hc : c ≠ blank) :
    (text ++ c :: rest).rdropWhile (· == blank) = text ++ c :: rest.rdropWhile (· == blank) := by
  induction rest using List.reverseRecOn with
  | nil =>
    rw [List.rdropWhile_nil, List.rdropWhile_concat_neg _ _ _ (by simpa using hc)]
  | append_singleton rest b ih =>
    rw [← List.cons_append, ← List.append_assoc]
    by_cases hb : b = blank
    · rw [List.rdropWhile_concat_pos _ _ _ (by simpa using hb), ih,
        List.rdropWhile_concat_pos _ _ _ (by simpa using hb)]
    · rw [List.rdropWhile_concat_neg _ _ _ (by simpa using hb),
        List.rdropWhile_concat_neg _ _ _ (by simpa using hb), List.append_assoc, List.cons_append]

/-- What is in front of a byte that is not blank stays. -/
lemma trimmed_append_cons (text rest : List UInt8) {c : UInt8} (hc : c ≠ blank) :
    trimmed (text ++ c :: rest) = text ++ c :: rest.rdropWhile (· == blank) := by
  cases text with
  | nil => rfl
  | cons b text =>
    rw [List.cons_append, trimmed, rdropWhile_append_cons text rest hc, List.cons_append]

/-- Of a text longer than a byte the last byte decides. -/
lemma trimmed_concat {text : List UInt8} (hne : text ≠ []) (c : UInt8) :
    trimmed (text ++ [c]) = if c = blank then trimmed text else text ++ [c] := by
  cases text with
  | nil => exact absurd rfl hne
  | cons b text =>
    rw [List.cons_append, trimmed, trimmed]
    split_ifs with hc
    · rw [List.rdropWhile_concat_pos _ _ _ (by simpa using hc)]
    · rw [List.rdropWhile_concat_neg _ _ _ (by simpa using hc)]

lemma length_trimmed_le (text : List UInt8) : (trimmed text).length ≤ text.length := by
  cases text with
  | nil => exact le_refl 0
  | cons b text =>
    rw [trimmed, List.length_cons, List.length_cons]
    exact Nat.succ_le_succ (List.rdropWhile_prefix _ _).length_le

lemma mem_of_mem_trimmed {text : List UInt8} {b : UInt8} (h : b ∈ trimmed text) : b ∈ text := by
  cases text with
  | nil => exact h
  | cons c text =>
    rw [trimmed, List.mem_cons] at h
    rcases h with rfl | h
    · exact List.mem_cons_self
    · exact List.mem_cons_of_mem c ((List.rdropWhile_prefix _ _).subset h)

/-- The loop leaves alone what is behind the place it starts at. -/
lemma trim_append (text rest : List UInt8) {i : ℕ} (hi : i < text.length) :
    trim (text ++ rest) i = trim text i ++ rest := by
  induction i generalizing text with
  | zero => rfl
  | succ i ih =>
    rw [trim, trim, List.getElem?_append_left hi, List.set_append_left _ _ hi]
    split
    · rw [ih _ (by rw [List.length_set]; omega)]
    · rfl

/-- The loop puts NULs for the trailing blanks. -/
lemma trim_eq {text : List UInt8} (hne : text ≠ []) : trim text (text.length - 1) =
    trimmed text ++ List.replicate (text.length - (trimmed text).length) 0 := by
  induction text using List.reverseRecOn with
  | nil => exact absurd rfl hne
  | append_singleton text c ih =>
    by_cases hnil : text = []
    · subst hnil
      rfl
    have hpos : 0 < text.length := List.length_pos_iff.mpr hnil
    have hle := length_trimmed_le text
    rw [trimmed_concat hnil, List.length_append, List.length_singleton, Nat.add_sub_cancel,
      show text.length = (text.length - 1) + 1 by omega, trim,
      show (text.length - 1) + 1 = text.length by omega, List.getElem?_concat_length]
    by_cases hc : c = blank
    · -- it becomes a NUL, and the loop goes on with the bytes in front of it
      have hset : (text ++ [c]).set text.length 0 = text ++ [0] := by
        rw [List.set_append_right _ _ (le_refl _), Nat.sub_self]
        rfl
      rw [if_pos (congrArg some hc), if_pos hc, hset, trim_append _ _ (by omega), ih hnil,
        List.append_assoc, ← List.replicate_succ']
      congr 2
      omega
    · rw [if_neg fun h => hc (Option.some.inj h), if_neg hc, List.length_append,
        List.length_singleton, Nat.sub_self, List.replicate_zero, List.append_nil]

end Trim

/-! ## The columns that are copied -/

section Columns
variable {row : Row} {zeros o n : ℕ}

/-- The bytes that `next_field` leaves in an array. -/
def copied (line : List UInt8) (o n : ℕ) : List UInt8 := trim ((line.drop o).take n) (n - 1)

lemma copied_eq {line : List UInt8} (hn : 0 < n) (hlen : o + n ≤ line.length) :
    copied line o n = trimmed ((line.drop o).take n) ++
      List.replicate (n - (trimmed ((line.drop o).take n)).length) 0 := by
  have hraw : ((line.drop o).take n).length = n := by
    rw [List.length_take, List.length_drop]
    omega
  have := trim_eq (List.ne_nil_of_length_pos (hraw ▸ hn))
  rw [hraw] at this
  exact this

/-- A text without NUL and NULs behind it. -/
lemma holds_append_zeros {text : List UInt8} (h : (0 : UInt8) ∉ text) (k : ℕ) (col : List UInt8) :
    Holds (text ++ List.replicate k 0) col ↔ 0 < k ∧ text = col := by
  unfold Holds
  cases k with
  | zero => simp [h]
  | succ k =>
    rw [List.replicate_succ, cstr_append_nul h]
    simp

/-- A column that lies in the row. -/
lemma holds_iff_of_whole (hchars : (0 : UInt8) ∉ row.chars) (hn : 1 < n)
    (h : o + n ≤ row.chars.length) (hlen : o + n ≤ (row.line zeros).length) :
    Holds (copied (row.line zeros) o n) (column row.chars o n) ↔
      row.chars[o + n - 1]? = some blank := by
  have hraw : ((row.line zeros).drop o).take n = (row.chars.drop o).take n := by
    unfold Row.line
    rw [List.drop_append_of_le_length (by omega), List.take_append_of_le_length]
    rw [List.length_drop]
    omega
  have hnul : (0 : UInt8) ∉ trimmed ((row.chars.drop o).take n) := fun h0 =>
    hchars (List.mem_of_mem_drop (List.mem_of_mem_take (mem_of_mem_trimmed h0)))
  -- the last byte of the column
  obtain ⟨b, hlast⟩ : ∃ b, row.chars[o + n - 1]? = some b :=
    ⟨_, List.getElem?_eq_getElem (by omega)⟩
  have hsplit : (row.chars.drop o).take n = (row.chars.drop o).take (n - 1) ++ [b] := by
    obtain ⟨m, rfl⟩ : ∃ m, n = m + 1 := ⟨n - 1, by omega⟩
    rw [show o + (m + 1) - 1 = o + m by omega] at hlast
    rw [List.take_add_one, List.getElem?_drop, hlast, Nat.add_sub_cancel]
    rfl
  have hinit : ((row.chars.drop o).take (n - 1)).length = n - 1 := by
    rw [List.length_take, List.length_drop]
    omega
  rw [copied_eq (by omega) hlen, hraw, holds_append_zeros hnul]
  unfold column
  rw [hlast, Option.some.injEq, and_iff_left rfl, hsplit,
    trimmed_concat (List.ne_nil_of_length_pos (by omega))]
  have hle := length_trimmed_le ((row.chars.drop o).take (n - 1))
  split_ifs with hb
  · rw [hb]
    exact iff_of_true (by omega) rfl
  · rw [List.length_append, List.length_singleton, hinit]
    exact iff_of_false (by omega) hb

/-- A column that the row ends in. -/
lemma holds_iff_of_last (hchars : (0 : UInt8) ∉ row.chars) (hn : 1 < n)
    (h : o ≤ row.chars.length) (hend : row.chars.length < o + n)
    (hlen : o + n ≤ (row.line zeros).length) :
    Holds (copied (row.line zeros) o n) (column row.chars o n) ↔
      trimmed (row.chars.drop o) = row.chars.drop o := by
  have hdrop : (row.chars.drop o).length = row.chars.length - o := List.length_drop
  have hshort : (row.chars.drop o).take n = row.chars.drop o :=
    List.take_of_length_le (by omega)
  have hraw : ((row.line zeros).drop o).take n = row.chars.drop o ++
      0 :: (row.behind ++ List.replicate zeros 0).take (n - (row.chars.length - o) - 1) := by
    unfold Row.line
    rw [List.drop_append_of_le_length h, List.take_append, hshort, hdrop,
      show n - (row.chars.length - o) = n - (row.chars.length - o) - 1 + 1 by omega,
      List.take_succ_cons, Nat.add_sub_cancel]
  have hnul : (0 : UInt8) ∉ row.chars.drop o := fun h0 => hchars (List.mem_of_mem_drop h0)
  -- the NUL of the row stops the loop before it comes to the blanks of the row
  rw [copied_eq (by omega) hlen, hraw, trimmed_append_cons _ _ (by decide), List.append_assoc,
    List.cons_append]
  unfold Holds column
  rw [cstr_append_nul hnul, hshort]
  exact ⟨fun hcol => hcol.2.symm, fun hcol => ⟨by simp, hcol.symm⟩⟩

/-- A column that the row does not reach. -/
lemma holds_iff_of_missing (hbehind : (0 : UInt8) ∉ row.behind) (hn : 1 < n)
    (h : row.chars.length < o) (hlen : o + n ≤ (row.line zeros).length) :
    Holds (copied (row.line zeros) o n) (column row.chars o n) ↔
      row.chars.length + 1 + row.behind.length ≤ o := by
  obtain ⟨d, rfl⟩ : ∃ d, o = row.chars.length + 1 + d := ⟨o - row.chars.length - 1, by omega⟩
  have hcol : column row.chars (row.chars.length + 1 + d) n = [] := by
    unfold column
    rw [List.drop_eq_nil_of_le (by omega), List.take_nil, trimmed]
  have hdrop : (row.line zeros).drop (row.chars.length + 1 + d) =
      (row.behind ++ List.replicate zeros 0).drop d := by
    unfold Row.line
    have hpast : row.chars.drop (row.chars.length + 1) = [] :=
      List.drop_eq_nil_of_le (Nat.le_succ _)
    rw [← List.drop_drop, List.drop_append, hpast, Nat.add_sub_cancel_left, List.drop_succ_cons,
      List.drop_zero, List.nil_append]
  rw [copied_eq (by omega) hlen, hcol, hdrop]
  by_cases hd : row.behind.length ≤ d
  · have hzeros : ((row.behind ++ List.replicate zeros 0).drop d).take n =
        0 :: List.replicate (n - 1) 0 := by
      unfold Row.line at hlen
      simp only [List.length_append, List.length_cons, List.length_replicate] at hlen
      rw [List.drop_append, List.drop_eq_nil_of_le hd, List.nil_append, List.drop_replicate,
        List.take_replicate, ← List.replicate_succ]
      congr 1
      omega
    rw [hzeros]
    unfold Holds
    exact iff_of_true ⟨by simp [trimmed], by simp [trimmed, cstr]⟩ (by omega)
  · -- the first byte is one of the text behind the row
    have hget : row.behind[d]? = some row.behind[d] := List.getElem?_eq_getElem (by omega)
    have hfirst : ((row.behind ++ List.replicate zeros 0).drop d).take n = row.behind[d] ::
        ((row.behind ++ List.replicate zeros 0).drop (d + 1)).take (n - 1) := by
      rw [List.drop_eq_getElem_cons (by rw [List.length_append]; omega),
        List.getElem_append_left (by omega), show n = n - 1 + 1 by omega, List.take_succ_cons,
        Nat.add_sub_cancel]
    have hne : row.behind[d] ≠ 0 := fun h0 => hbehind (h0 ▸ List.getElem_mem _)
    rw [hfirst]
    unfold Holds
    refine iff_of_false (fun hholds => ?_) (by omega)
    rw [trimmed, List.cons_append, cstr, List.takeWhile_cons_of_pos (by simpa using hne)] at hholds
    exact absurd hholds.2 (List.cons_ne_nil _ _)

/-- `next_field` copies a column exactly when the column fits. -/
lemma holds_iff (hchars : (0 : UInt8) ∉ row.chars) (hbehind : (0 : UInt8) ∉ row.behind)
    (hn : 1 < n) (hlen : o + n ≤ (row.line zeros).length) :
    Holds (copied (row.line zeros) o n) (column row.chars o n) ↔ ColumnFits row o n := by
  unfold ColumnFits
  split_ifs with hwhole hlast
  · exact holds_iff_of_whole hchars hn hwhole hlen
  · exact holds_iff_of_last hchars hn hlast (by omega) hlen
  · exact holds_iff_of_missing hbehind hn (by omega) hlen

end Columns

end IpncRdk.ApClient
