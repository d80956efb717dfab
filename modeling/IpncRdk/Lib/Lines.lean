import Mathlib.Data.List.Basic
import Mathlib.Data.List.TakeWhile

/-!
# Lines of a text

A text is a list of bytes. Its lines keep their newline; the last one may have none.

* `splitLines` — the lines of a text, `splitLines_flatten` puts them together again;
* `IsLine` — a line that ends in its newline;
* `lineInduction` — induction over a text line by line.
-/

namespace IpncRdk.Lib

abbrev lf : UInt8 := 10

abbrev cr : UInt8 := 13

/-- The lines of a text, each with its newline. -/
def splitLines : List UInt8 → List (List UInt8)
  | [] => []
  | b :: bs =>
    if b = lf then [b] :: splitLines bs
    else match splitLines bs with
      | [] => [[b]]
      | l :: ls => (b :: l) :: ls

/-- A line with its newline. -/
def IsLine (l : List UInt8) : Prop := ∃ body, l = body ++ [lf] ∧ lf ∉ body

/-- A text in which every line has its newline. -/
def Terminated (text : List UInt8) : Prop := ∀ l ∈ splitLines text, IsLine l

lemma splitLines_flatten (text : List UInt8) : (splitLines text).flatten = text := by
  induction text with
  | nil => rfl
  | cons b bs ih =>
    rw [splitLines]
    split
    · rw [List.flatten_cons, ih, List.singleton_append]
    · split
      next h =>
        rw [h, List.flatten_nil] at ih
        rw [← ih]
        rfl
      next l ls h =>
        rw [h, List.flatten_cons] at ih
        rw [List.flatten_cons, List.cons_append, ih]

/-- A text without newline is one line. -/
lemma splitLines_of_notMem {body : List UInt8} (hne : body ≠ []) (h : lf ∉ body) :
    splitLines body = [body] := by
  induction body with
  | nil => exact absurd rfl hne
  | cons b bs ih =>
    rw [List.mem_cons, not_or] at h
    rw [splitLines, if_neg (Ne.symm h.1)]
    by_cases hbs : bs = []
    · subst hbs
      rfl
    · rw [ih hbs h.2]

/-- The first line splits off. -/
lemma splitLines_append {l : List UInt8} (hl : IsLine l) (rest : List UInt8) :
    splitLines (l ++ rest) = l :: splitLines rest := by
  obtain ⟨body, rfl, hbody⟩ := hl
  induction body with
  | nil => simp [splitLines]
  | cons b bs ih =>
    rw [List.mem_cons, not_or] at hbody
    rw [List.cons_append, List.cons_append, splitLines, if_neg (Ne.symm hbody.1), ih hbody.2]

/-- Induction over a text line by line. -/
theorem lineInduction {P : List UInt8 → Prop} (nil : P [])
    (line : ∀ l rest, IsLine l → P rest → P (l ++ rest))
    (last : ∀ body, body ≠ [] → lf ∉ body → P body) (text : List UInt8) : P text := by
  induction hn : text.length using Nat.strong_induction_on generalizing text with
  | _ n ih =>
    subst hn
    by_cases hnil : text = []
    · exact hnil ▸ nil
    by_cases hlf : lf ∈ text
    · obtain ⟨body, rest, rfl, hbody⟩ := List.eq_append_cons_of_mem hlf
      have hsplit : body ++ lf :: rest = (body ++ [lf]) ++ rest := by simp
      rw [hsplit]
      refine line _ rest ⟨body, rfl, hbody⟩ (ih rest.length ?_ rest rfl)
      simp only [List.length_append, List.length_cons]
      omega
    · exact last text hnil hlf

/-! ## The lines of a text -/

/-- A line has its newline, or it is a non-empty last line without one. -/
lemma line_cases {text l : List UInt8} (h : l ∈ splitLines text) :
    IsLine l ∨ (lf ∉ l ∧ l ≠ []) := by
  induction text using lineInduction with
  | nil => cases h
  | line k rest hk ih =>
    rw [splitLines_append hk, List.mem_cons] at h
    rcases h with rfl | h
    · exact Or.inl hk
    · exact ih h
  | last body hne hbody =>
    rw [splitLines_of_notMem hne hbody, List.mem_singleton] at h
    subst h
    exact Or.inr ⟨hbody, hne⟩

lemma IsLine.length_pos {l : List UInt8} (h : IsLine l) : 0 < l.length := by
  obtain ⟨body, rfl, -⟩ := h
  simp

/-- A text without newline, newlines not counted. -/
lemma filter_of_notMem {body : List UInt8} (h : lf ∉ body) : body.filter (· != lf) = body := by
  rw [List.filter_eq_self]
  intro b hb
  simpa using fun heq : b = lf => h (heq ▸ hb)

/-- The newline of a line counts for one byte. -/
lemma IsLine.length_eq {l : List UInt8} (h : IsLine l) :
    l.length = (l.filter (· != lf)).length + 1 := by
  obtain ⟨body, rfl, hbody⟩ := h
  rw [List.filter_append, filter_of_notMem hbody]
  simp

lemma IsLine.notMem {body : List UInt8} (h : IsLine (body ++ [lf])) : lf ∉ body := by
  obtain ⟨body', heq, hbody'⟩ := h
  rwa [List.append_cancel_right heq]

/-- Whole lines in front of a text split off. -/
lemma splitLines_flatten_append {ls : List (List UInt8)} (h : ∀ l ∈ ls, IsLine l)
    (rest : List UInt8) : splitLines (ls.flatten ++ rest) = ls ++ splitLines rest := by
  induction ls with
  | nil => rfl
  | cons l ls ih =>
    rw [List.flatten_cons, List.append_assoc, splitLines_append (h l List.mem_cons_self),
      ih fun k hk => h k (List.mem_cons_of_mem l hk), List.cons_append]

lemma flatten_of_splitLines {text : List UInt8} {ls : List (List UInt8)}
    (h : splitLines text = ls) : text = ls.flatten := by
  rw [← h, splitLines_flatten]

/-- A text whose last line has its newline is one of whole lines. -/
lemma splitLines_append_of_terminated {text : List UInt8} (h : Terminated text)
    (rest : List UInt8) : splitLines (text ++ rest) = splitLines text ++ splitLines rest := by
  have := splitLines_flatten_append h rest
  rwa [splitLines_flatten] at this

/-- A text that ends in a newline. -/
lemma terminated_append_lf (text : List UInt8) : Terminated (text ++ [lf]) := by
  induction text using lineInduction with
  | nil => exact fun l hl => ⟨[], by simpa [splitLines] using hl, by simp⟩
  | line l rest hl ih =>
    unfold Terminated
    rw [List.append_assoc, splitLines_append hl]
    intro k hk
    rcases List.mem_cons.mp hk with rfl | hk
    · exact hl
    · exact ih k hk
  | last body _ hbody =>
    have hline : IsLine (body ++ [lf]) := ⟨body, rfl, hbody⟩
    have hsplit := splitLines_append hline []
    rw [List.append_nil] at hsplit
    unfold Terminated
    rw [hsplit]
    simpa [splitLines] using hline

/-! ## The length of lines -/

/-- Of two lines of different length at places of one text, one lies wholly in front of the
other. -/
lemma apart_of_length_ne {pre pre' post post' : List (List UInt8)} {l l' : List UInt8}
    (h : pre ++ l :: post = pre' ++ l' :: post') (hne : l.length ≠ l'.length) :
    pre.flatten.length + l.length ≤ pre'.flatten.length ∨
      pre'.flatten.length + l'.length ≤ pre.flatten.length := by
  rcases List.append_eq_append_iff.mp h with ⟨between, rfl, hpost⟩ | ⟨between, rfl, hpost⟩
  · cases between with
    | nil =>
      rw [List.nil_append, List.cons.injEq] at hpost
      exact absurd (congrArg List.length hpost.1) hne
    | cons k between =>
      rw [List.cons_append, List.cons.injEq] at hpost
      left
      rw [List.flatten_append, List.flatten_cons, ← hpost.1]
      simp only [List.length_append]
      omega
  · cases between with
    | nil =>
      rw [List.nil_append, List.cons.injEq] at hpost
      exact absurd (congrArg List.length hpost.1).symm hne
    | cons k between =>
      rw [List.cons_append, List.cons.injEq] at hpost
      right
      rw [List.flatten_append, List.flatten_cons, ← hpost.1]
      simp only [List.length_append]
      omega

/-- A text put behind another one makes its last line longer, at most. -/
lemma length_le_of_append {a b : List UInt8} {m n : ℕ}
    (ha : ∀ l ∈ splitLines a, l.length ≤ m) (hb : ∀ l ∈ splitLines b, l.length ≤ n) :
    ∀ l ∈ splitLines (a ++ b), l.length ≤ m + n := by
  induction a using lineInduction with
  | nil => exact fun l hl => (hb l hl).trans (by omega)
  | line k rest hk ih =>
    rw [splitLines_append hk] at ha
    rw [List.append_assoc, splitLines_append hk]
    intro l hl
    rcases List.mem_cons.mp hl with rfl | hl
    · exact (ha l List.mem_cons_self).trans (by omega)
    · exact ih (fun j hj => ha j (List.mem_cons_of_mem k hj)) l hl
  | last body hne hbody =>
    have hlen := ha body (by rw [splitLines_of_notMem hne hbody]; exact List.mem_cons_self)
    -- the unfinished line of `a` goes on with the first line of `b`
    induction b using lineInduction with
    | nil =>
      rw [List.append_nil]
      exact fun l hl => (ha l hl).trans (by omega)
    | line k rest hk _ =>
      rw [splitLines_append hk] at hb
      obtain ⟨body', rfl, hbody'⟩ := hk
      have hmerged : IsLine (body ++ (body' ++ [lf])) :=
        ⟨body ++ body', by simp, by simp [hbody, hbody']⟩
      rw [← List.append_assoc, splitLines_append hmerged]
      intro l hl
      rcases List.mem_cons.mp hl with rfl | hl
      · have := hb _ List.mem_cons_self
        rw [List.length_append]
        omega
      · exact (hb l (List.mem_cons_of_mem _ hl)).trans (by omega)
    | last body' hne' hbody' =>
      have hlen' := hb body' (by
        rw [splitLines_of_notMem hne' hbody']; exact List.mem_cons_self)
      rw [splitLines_of_notMem (by simp [hne]) (by simp [hbody, hbody'])]
      intro l hl
      rw [List.mem_singleton] at hl
      rw [hl, List.length_append]
      omega

/-- The end of a text has no longer lines. -/
lemma length_le_of_drop {text : List UInt8} {m : ℕ} (h : ∀ l ∈ splitLines text, l.length ≤ m)
    (n : ℕ) : ∀ l ∈ splitLines (text.drop n), l.length ≤ m := by
  induction text using lineInduction generalizing n with
  | nil => simpa using h
  | line k rest hk ih =>
    rw [splitLines_append hk] at h
    have hrest : ∀ l ∈ splitLines rest, l.length ≤ m := fun l hl => h l (List.mem_cons_of_mem k hl)
    -- the cut lies in this line or behind it
    rcases Nat.lt_or_ge n k.length with hn | hn
    · have hlen := h k List.mem_cons_self
      obtain ⟨body, rfl, hbody⟩ := hk
      rw [List.length_append, List.length_singleton] at hn
      have hdrop : (body ++ [lf]).drop n = body.drop n ++ [lf] :=
        List.drop_append_of_le_length (by omega)
      have hline : IsLine (body.drop n ++ [lf]) :=
        ⟨body.drop n, rfl, fun hmem => hbody (List.mem_of_mem_drop hmem)⟩
      rw [List.drop_append_of_le_length (by simp; omega), hdrop, splitLines_append hline]
      intro l hl
      rcases List.mem_cons.mp hl with rfl | hl
      · simp at hlen ⊢
        omega
      · exact hrest l hl
    · rw [List.drop_append, List.drop_eq_nil_of_le hn, List.nil_append]
      exact ih hrest _
  | last body hne hbody =>
    have hlen := h body (by rw [splitLines_of_notMem hne hbody]; exact List.mem_cons_self)
    by_cases hnil : body.drop n = []
    · rw [hnil]
      exact fun l hl => (nomatch hl)
    · rw [splitLines_of_notMem hnil fun hmem => hbody (List.mem_of_mem_drop hmem)]
      intro l hl
      rw [List.mem_singleton] at hl
      rw [hl, List.length_drop]
      omega

end IpncRdk.Lib
