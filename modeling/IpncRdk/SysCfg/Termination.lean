import IpncRdk.SysCfg.GetTheorems

/-!
# Whether a lookup ends

The loops of `GetStringContentValue` look at `feof` only, and not at what `fgets` returns. Where
reading fails, an empty line is scanned again and again.

* `Terminates` — some number of iterations is enough for the two loops;
* `searchEnds` — the lines that are read hold the end of the search;
* `terminates_iff` — exactly the streams on which the loops end.
-/

namespace IpncRdk.SysCfg

open Lib

/-- The two loops end after finitely many iterations. -/
def Terminates (sectionName keyName : List UInt8) (outputLen : ℕ) (fp : Stream)
    (output : List UInt8) : Prop :=
  ∃ fuel, scanSections sectionName keyName outputLen fuel fp output ≠ .error .diverges

/-- A line behind the header has a value for the key, or begins the next section. -/
def sectionEnds (keyName : List UInt8) (lines : List (List UInt8)) : Bool :=
  lines.any fun line => react keyName line != .skip

/-- There is such a line behind the first header of the section. -/
def searchEnds (sectionName keyName : List UInt8) : List (List UInt8) → Bool
  | [] => false
  | line :: lines =>
    if strncasecmpEq (sectionHeader sectionName) line then sectionEnds keyName lines
    else searchEnds sectionName keyName lines

section Store
variable {outputLen : ℕ}

lemma ok_ne_diverges {α : Type} (a : α) : (Except.ok a : Except Fault α) ≠ .error .diverges := by
  intro h
  cases h

/-- Two computations that end, one after the other. -/
lemma bind_ne_diverges {α β : Type} {x : Except Fault α} {f : α → Except Fault β}
    (hx : x ≠ .error .diverges) (hf : ∀ a, f a ≠ .error .diverges) :
    (x >>= f) ≠ .error .diverges := by
  cases x with
  | error fault =>
    intro h
    exact hx (congrArg Except.error (Except.error.inj h))
  | ok a => exact hf a

lemma put_ne_diverges (area : List UInt8) (i : ℕ) (b : UInt8) :
    put area i b ≠ .error .diverges := by
  unfold put
  split
  · exact ok_ne_diverges _
  · intro h
    cases h

/-- The loop that copies a value ends with its text. -/
lemma copyValue_ne_diverges (text : List UInt8) (started : Bool) (i : ℕ) (output : List UInt8) :
    copyValue outputLen text started i output ≠ .error .diverges := by
  induction text generalizing started i output with
  | nil => exact ok_ne_diverges _
  | cons b text ih =>
    rw [copyValue]
    by_cases hblank : started = false ∧ b = 32
    · rw [if_pos hblank]
      exact ih false i output
    by_cases hend : endsValue b = true
    · rw [if_neg hblank, if_pos hend]
      exact ok_ne_diverges _
    rw [if_neg hblank, if_neg hend]
    refine bind_ne_diverges (put_ne_diverges output i b) fun output' => ?_
    split
    · exact bind_ne_diverges (put_ne_diverges _ _ _) fun _ => ok_ne_diverges _
    · exact ih true (i + 1) output'

lemma storeValue_ne_diverges (text output : List UInt8) :
    storeValue outputLen text output ≠ .error .diverges := by
  refine bind_ne_diverges (copyValue_ne_diverges text false 0 output) fun result => ?_
  obtain ⟨i, output'⟩ := result
  show (if 0 < i then put output' i 0 else pure output') ≠ _
  split
  · exact put_ne_diverges _ _ _
  · exact ok_ne_diverges _

end Store

/-! ## Streams on which reading fails -/

section Broken
variable {sectionName keyName output : List UInt8} {outputLen : ℕ}

lemma fgets_broken_nil (done : List UInt8) :
    fgets 256 ⟨done, [], false, true⟩ = ([], ⟨done, [], false, true⟩) := by
  rw [fgets_of_runsOut_broken rfl, List.append_nil]

/-- Behind the point of failure the inner loop goes on for ever. -/
lemma scanKeys_broken_nil (fuel : ℕ) (done : List UInt8) :
    scanKeys keyName outputLen fuel ⟨done, [], false, true⟩ output = .error .diverges := by
  induction fuel with
  | zero => rfl
  | succ fuel ih =>
    rw [scanKeys, fgets_broken_nil, if_neg Bool.false_ne_true, cstr_nil, react_nil]
    exact ih

/-- So does the outer loop. -/
lemma scanSections_broken_nil (fuel : ℕ) (done : List UInt8) :
    scanSections sectionName keyName outputLen fuel ⟨done, [], false, true⟩ output
      = .error .diverges := by
  induction fuel with
  | zero => rfl
  | succ fuel ih =>
    rw [scanSections, fgets_broken_nil, if_neg Bool.false_ne_true, cstr_nil,
      if_pos (show passedOver [] = true from rfl)]
    exact ih

/-- A loop that ends does so with one iteration more, too. -/
lemma exists_succ_iff {P : ℕ → Prop} (hzero : ¬ P 0) : (∃ n, P n) ↔ ∃ n, P (n + 1) := by
  constructor
  · rintro ⟨n, hn⟩
    cases n with
    | zero => exact absurd hn hzero
    | succ n => exact ⟨n, hn⟩
  · rintro ⟨n, hn⟩
    exact ⟨n + 1, hn⟩

lemma sectionEnds_cons (line : List UInt8) (lines : List (List UInt8)) :
    sectionEnds keyName (line :: lines) = true ↔
      react keyName line ≠ .skip ∨ sectionEnds keyName lines = true := by
  unfold sectionEnds
  rw [List.any_cons, Bool.or_eq_true, bne_iff_ne]

/-- One line of the inner loop: it ends there, or goes on behind it. -/
lemma scanKeys_terminates_succ {fp fp' : Stream} {line : List UInt8} (heof : fp.eof = false)
    (hread : fgets 256 fp = (line, fp')) :
    (∃ fuel, scanKeys keyName outputLen fuel fp output ≠ .error .diverges) ↔
      react keyName (cstr line) ≠ .skip ∨
        ∃ fuel, scanKeys keyName outputLen fuel fp' output ≠ .error .diverges := by
  rw [exists_succ_iff (fun h => h rfl)]
  simp only [scanKeys, heof, hread, Bool.false_eq_true, if_false]
  cases react keyName (cstr line) with
  | skip => simp
  | stop => simp
  | value text => simp [storeValue_ne_diverges]

/-- Where reading fails, the inner loop ends if a line before that ends it. -/
lemma scanKeys_terminates_iff (content done : List UInt8) :
    (∃ fuel, scanKeys keyName outputLen fuel ⟨done, content, false, true⟩ output
        ≠ .error .diverges) ↔ sectionEnds keyName (linesRead content) = true := by
  unfold linesRead
  induction content using readAll.induct 254 generalizing done with
  | case1 content h =>
    rw [readAll_of_runsOut h, List.map_singleton, sectionEnds_cons,
      scanKeys_terminates_succ rfl (fgets_of_runsOut_broken h done false)]
    refine or_congr_right (iff_of_false ?_ (by simp [sectionEnds]))
    rintro ⟨fuel, hends⟩
    exact hends (scanKeys_broken_nil fuel _)
  | case2 content h ih =>
    rw [readAll_of_not_runsOut h, List.map_cons, sectionEnds_cons,
      scanKeys_terminates_succ rfl (fgets_of_not_runsOut h done false true)]
    exact or_congr_right (ih _)

/-- One line of the outer loop. -/
lemma terminates_succ {fp fp' : Stream} {line : List UInt8} (heof : fp.eof = false)
    (hread : fgets 256 fp = (line, fp')) :
    Terminates sectionName keyName outputLen fp output ↔
      if strncasecmpEq (sectionHeader sectionName) (cstr line) then
        ∃ fuel, scanKeys keyName outputLen fuel fp' output ≠ .error .diverges
      else Terminates sectionName keyName outputLen fp' output := by
  unfold Terminates
  rw [exists_succ_iff (fun h => h rfl)]
  simp only [scanSections, heof, hread, Bool.false_eq_true, if_false]
  by_cases hheader : strncasecmpEq (sectionHeader sectionName) (cstr line) = true
  · simp only [passedOver_of_header hheader, hheader, Bool.false_eq_true, if_true, if_false]
  · simp only [if_neg hheader, ite_self]

/-- Where reading fails, the loops end if the search ends before that. -/
lemma terminates_broken_iff (content done : List UInt8) :
    Terminates sectionName keyName outputLen ⟨done, content, false, true⟩ output ↔
      searchEnds sectionName keyName (linesRead content) = true := by
  unfold linesRead
  induction content using readAll.induct 254 generalizing done with
  | case1 content h =>
    have hsections : ¬ Terminates sectionName keyName outputLen
        ⟨done ++ content, [], false, true⟩ output := by
      rintro ⟨fuel, hends⟩
      exact hends (scanSections_broken_nil fuel _)
    have hkeys : ¬ ∃ fuel, scanKeys keyName outputLen fuel ⟨done ++ content, [], false, true⟩
        output ≠ .error .diverges := by
      rintro ⟨fuel, hends⟩
      exact hends (scanKeys_broken_nil fuel _)
    rw [readAll_of_runsOut h, List.map_singleton,
      terminates_succ rfl (fgets_of_runsOut_broken h done false), searchEnds]
    split
    · exact iff_of_false hkeys (by simp [sectionEnds])
    · exact iff_of_false hsections (by simp [searchEnds])
  | case2 content h ih =>
    rw [readAll_of_not_runsOut h, List.map_cons,
      terminates_succ rfl (fgets_of_not_runsOut h done false true), searchEnds]
    split
    · exact scanKeys_terminates_iff _ _
    · exact ih _

end Broken

/-! ## All streams -/

/-- Where reading does not fail, the loops end. -/
lemma terminates_of_sound {sectionName keyName output : List UInt8} {outputLen : ℕ}
    (done content : List UInt8) :
    Terminates sectionName keyName outputLen ⟨done, content, false, false⟩ output := by
  refine ⟨(readAll 254 content).length + 1, ?_⟩
  rw [scanSections_reads content (le_refl _)]
  cases fileText sectionName keyName (linesRead content) with
  | none => exact ok_ne_diverges _
  | some text => exact storeValue_ne_diverges text output

/-- **On which streams a lookup ends.** For every content and every point at which reading begins
to fail: the loops end where it does not fail, and where the search ends before that point. -/
theorem terminates_iff (sectionName keyName : List UInt8) (outputLen : ℕ) (fp : Stream)
    (output : List UInt8) :
    Terminates sectionName keyName outputLen fp output ↔
      fp.eof = true ∨ fp.broken = false ∨
        searchEnds sectionName keyName (linesRead fp.rest) = true := by
  obtain ⟨done, content, eof, broken⟩ := fp
  cases eof with
  | true => exact iff_of_true ⟨1, nofun⟩ (Or.inl rfl)
  | false =>
    cases broken with
    | false => exact iff_of_true (terminates_of_sound done content) (Or.inr (Or.inl rfl))
    | true =>
      rw [terminates_broken_iff]
      simp

/-- A file whose first read fails is scanned for ever. -/
theorem unreadable_not_terminates :
    ¬ Terminates [83] [65] 2 ⟨[], [], false, true⟩ [0, 0] := by
  rintro ⟨fuel, hends⟩
  exact hends (scanSections_broken_nil fuel [])

end IpncRdk.SysCfg
