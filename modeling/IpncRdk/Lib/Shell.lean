import Mathlib.Data.List.Basic
import Mathlib.Data.Nat.Notation

/-!
# Lines of the POSIX shell

What the shell makes of a line of bytes: its tokens, and the simple commands they form. The
reading has no result where the line is incomplete, where it is no list of simple commands (an
assignment or a redirection is none), and where its meaning rests on more than the line: on
variables, on other commands, or on the files that a pattern matches.

* `scan` — token recognition with its three ways of quoting;
* `expand` — the field of a word, if no expansion applies to it;
* `read` — the commands of a line, with their arguments;
* `isPlain_of_kept` — the words of a line that keep all its quotes and `#` stand there unquoted;
* `read_line_iff` — the arguments that come back from a line they were put into without quoting.
-/

namespace IpncRdk.Lib.Shell

/-! ## Tokens -/

/-- A byte of a word, and whether it was quoted. -/
structure Piece where
  byte : UInt8
  quoted : Bool
  deriving DecidableEq, Repr

inductive Token
  | word (pieces : List Piece)
  /-- `&` -/
  | ampersand
  /-- `;` -/
  | semicolon
  | newline
  deriving DecidableEq, Repr

/-- Where token recognition stands. -/
inductive Mode
  /-- outside of quotes, in a word or between words -/
  | unquoted (inWord : Bool)
  /-- behind a backslash there -/
  | escape (inWord : Bool)
  | single
  | double
  /-- behind a backslash in double quotes -/
  | doubleEscape
  | comment
  deriving DecidableEq, Repr

/-- Blank and tab. -/
def isBlank (b : UInt8) : Bool := b == 32 || b == 9

/-- The bytes of pipes, redirections, groups and substitutions: `|<>()$` and the backquote. -/
def isForeign (b : UInt8) : Bool :=
  b == 124 || b == 60 || b == 62 || b == 40 || b == 41 || b == 36 || b == 96

/-- The bytes a backslash quotes in double quotes: `$`, the backquote, `"` and the backslash. -/
def isEscapable (b : UInt8) : Bool := b == 36 || b == 96 || b == 34 || b == 92

/-- The operators of one byte that end a command. -/
def operator (b : UInt8) : Option Token :=
  if b = 10 then some .newline
  else if b = 38 then some .ampersand
  else if b = 59 then some .semicolon
  else none

/-- `&&` and `;;` -/
def isDoubled (b : UInt8) (bytes : List UInt8) : Bool :=
  (b == 38 || b == 59) && bytes.head? == some b

/-- The end of a word, if there is one. -/
def finish (inWord : Bool) (pieces : List Piece) (tokens : List Token) : List Token :=
  if inWord then .word pieces :: tokens else tokens

/-- Token recognition, with the word that has been begun. -/
def scan : Mode → List Piece → List UInt8 → Option (List Token)
  | .unquoted inWord, pieces, [] => some (finish inWord pieces [])
  | .comment, _, [] => some []
  -- the line ends within a quotation
  | .escape _, _, [] | .single, _, [] | .double, _, [] | .doubleEscape, _, [] => none
  | .unquoted inWord, pieces, b :: bytes =>
    if b = 35 ∧ inWord = false then scan .comment [] bytes
    else if isBlank b then (scan (.unquoted false) [] bytes).map (finish inWord pieces)
    else match operator b with
      | some op =>
        if isDoubled b bytes then none
        else (scan (.unquoted false) [] bytes).map fun tokens => finish inWord pieces (op :: tokens)
      | none =>
        if isForeign b then none
        else if b = 92 then scan (.escape inWord) pieces bytes
        else if b = 39 then scan .single pieces bytes
        else if b = 34 then scan .double pieces bytes
        else scan (.unquoted true) (pieces ++ [⟨b, false⟩]) bytes
  | .escape inWord, pieces, b :: bytes =>
    -- an escaped newline joins two lines
    if b = 10 then scan (.unquoted inWord) pieces bytes
    else scan (.unquoted true) (pieces ++ [⟨b, true⟩]) bytes
  | .single, pieces, b :: bytes =>
    if b = 39 then scan (.unquoted true) pieces bytes
    else scan .single (pieces ++ [⟨b, true⟩]) bytes
  | .double, pieces, b :: bytes =>
    if b = 34 then scan (.unquoted true) pieces bytes
    else if b = 92 then scan .doubleEscape pieces bytes
    else if b = 36 ∨ b = 96 then none
    else scan .double (pieces ++ [⟨b, true⟩]) bytes
  | .doubleEscape, pieces, b :: bytes =>
    if b = 10 then scan .double pieces bytes
    else if isEscapable b then scan .double (pieces ++ [⟨b, true⟩]) bytes
    else scan .double (pieces ++ [⟨92, true⟩, ⟨b, true⟩]) bytes
  | .comment, _, b :: bytes =>
    if b = 10 then (scan (.unquoted false) [] bytes).map fun tokens => .newline :: tokens
    else scan .comment [] bytes

/-! ## Fields -/

/-- An unquoted byte. -/
def Piece.isPlain (b : UInt8) (p : Piece) : Bool := p.byte == b && !p.quoted

/-- A byte, then `]` before the next `/`, all behind an optional `!` or `^`. -/
def closesBracket (pieces : List Piece) : Bool :=
  let pieces := match pieces with
    | p :: rest => if p.isPlain 33 || p.isPlain 94 then rest else pieces
    | [] => []
  match pieces with
  | p :: rest => p.byte != 47 && (rest.takeWhile fun p => p.byte != 47).any (Piece.isPlain 93)
  | [] => false

/-- A word with a bracket expression. -/
def hasBracket : List Piece → Bool
  | [] => false
  | p :: rest => (p.isPlain 91 && closesBracket rest) || hasBracket rest

/-- A word that file names are matched with: `*`, `?` or a bracket expression in it. -/
def isPattern (pieces : List Piece) : Bool :=
  pieces.any (Piece.isPlain 42) || pieces.any (Piece.isPlain 63) || hasBracket pieces

/-- A word that begins with `~`. -/
def hasTilde (pieces : List Piece) : Bool := (pieces.head?.map (Piece.isPlain 126)).getD false

/-- The field of a word that no expansion applies to. -/
def expand (pieces : List Piece) : Option (List UInt8) :=
  if hasTilde pieces || isPattern pieces then none else some (pieces.map Piece.byte)

/-! ## Commands -/

/-- A simple command. -/
structure Command where
  argv : List (List UInt8)
  background : Bool
  deriving DecidableEq, Repr

/-- `! { } case do done elif else esac fi for if in then until while` -/
def reservedWords : List (List UInt8) :=
  [[33], [123], [125], [99, 97, 115, 101], [100, 111], [100, 111, 110, 101],
    [101, 108, 105, 102], [101, 108, 115, 101], [101, 115, 97, 99], [102, 105], [102, 111, 114],
    [105, 102], [105, 110], [116, 104, 101, 110], [117, 110, 116, 105, 108],
    [119, 104, 105, 108, 101]]

/-- `_`, a letter, or a digit that is not the first byte. -/
def isNameByte (first : Bool) (p : Piece) : Bool :=
  !p.quoted &&
    (p.byte == 95 || (65 ≤ p.byte && p.byte ≤ 90) || (97 ≤ p.byte && p.byte ≤ 122) ||
      (!first && 48 ≤ p.byte && p.byte ≤ 57))

/-- `name=value` -/
def isAssignment (pieces : List Piece) : Bool :=
  match pieces.takeWhile fun p => !p.isPlain 61 with
  | [] => false
  | p :: rest => isNameByte true p && rest.all (isNameByte false) && pieces.any (Piece.isPlain 61)

/-- An assignment or a reserved word, where the name of a command is expected. -/
def isReserved (pieces : List Piece) : Bool :=
  isAssignment pieces || reservedWords.any fun w => pieces == w.map fun b => ⟨b, false⟩

/-- The commands of a list, with the arguments of the one that has been begun. -/
def commands : List Token → List (List UInt8) → Option (List Command)
  | [], [] => some []
  | [], argv => some [⟨argv, false⟩]
  | .word pieces :: tokens, argv =>
    if argv = [] ∧ isReserved pieces = true then none
    else (expand pieces).bind fun field => commands tokens (argv ++ [field])
  | .newline :: tokens, [] => commands tokens []
  | .newline :: tokens, argv => (commands tokens []).map fun cs => ⟨argv, false⟩ :: cs
  -- an operator without a command
  | .ampersand :: _, [] | .semicolon :: _, [] => none
  | .ampersand :: tokens, argv => (commands tokens []).map fun cs => ⟨argv, true⟩ :: cs
  | .semicolon :: tokens, argv => (commands tokens []).map fun cs => ⟨argv, false⟩ :: cs

/-- The commands of a line. -/
def read (line : List UInt8) : Option (List Command) :=
  (scan (.unquoted false) [] line).bind fun tokens => commands tokens []

/-- `ls 'a b' & echo x#y` -/
example : read [108, 115, 32, 39, 97, 32, 98, 39, 32, 38, 32, 101, 99, 104, 111, 32, 120, 35, 121] =
    some [⟨[[108, 115], [97, 32, 98]], true⟩, ⟨[[101, 99, 104, 111], [120, 35, 121]], false⟩] := by
  decide

/-! ## What is kept of a line -/

/-- The words of a line, those of all its commands. -/
def words (tokens : List Token) : List (List Piece) :=
  tokens.filterMap fun token => match token with
    | .word pieces => some pieces
    | _ => none

/-- The bytes of the words, one word after the other. -/
def contents (tokens : List Token) : List UInt8 :=
  (words tokens).flatMap fun pieces => pieces.map Piece.byte

/-- A backslash in double quotes may still be kept. -/
def pending : Mode → List UInt8
  | .doubleEscape => [92]
  | .unquoted _ | .escape _ | .single | .double | .comment => []

section Kept
variable {m : Mode} {pieces : List Piece} {bytes : List UInt8} {tokens : List Token} {q : UInt8}

lemma contents_operator {b : UInt8} {op : Token} (h : operator b = some op)
    (tokens : List Token) : contents (op :: tokens) = contents tokens := by
  unfold operator at h
  split_ifs at h <;> (obtain rfl := Option.some.inj h; rfl)

lemma contents_finish_sublist (inWord : Bool) (pieces : List Piece) (tokens : List Token) :
    (contents (finish inWord pieces tokens)).Sublist
      (pieces.map Piece.byte ++ contents tokens) := by
  unfold finish
  split
  · exact List.Sublist.refl _
  · exact List.sublist_append_right _ _

/-- The backslash and the two quotation marks. -/
def isQuote (b : UInt8) : Bool := b == 92 || b == 39 || b == 34

/-- The bytes with a meaning of their own in all places outside of quotes. -/
def isSpecial (b : UInt8) : Bool :=
  isBlank b || (operator b).isSome || isForeign b || isQuote b

/-- What an unquoted byte does. -/
inductive Step (inWord : Bool) (pieces : List Piece) (b : UInt8) (bytes : List UInt8)
    (tokens : List Token) : Prop
  | comment (hb : b = 35) (h : scan .comment [] bytes = some tokens)
  | blank (rest : List Token) (h : scan (.unquoted false) [] bytes = some rest)
      (htokens : tokens = finish inWord pieces rest)
  | operator (op : Token) (rest : List Token) (hop : Shell.operator b = some op)
      (h : scan (.unquoted false) [] bytes = some rest)
      (htokens : tokens = finish inWord pieces (op :: rest))
  | quote (m : Mode) (hb : isQuote b = true) (hm : pending m = [])
      (h : scan m pieces bytes = some tokens)
  | plain (hb : isSpecial b = false) (hword : b = 35 → inWord = true)
      (h : scan (.unquoted true) (pieces ++ [⟨b, false⟩]) bytes = some tokens)

/-- The branches outside of quotes. -/
lemma scan_step {inWord : Bool} {b : UInt8}
    (h : scan (.unquoted inWord) pieces (b :: bytes) = some tokens) :
    Step inWord pieces b bytes tokens := by
  rw [scan] at h
  by_cases hcomment : b = 35 ∧ inWord = false
  · rw [if_pos hcomment] at h
    exact .comment hcomment.1 h
  rw [if_neg hcomment] at h
  by_cases hblank : isBlank b = true
  · rw [if_pos hblank] at h
    obtain ⟨rest, hrest, heq⟩ := Option.map_eq_some_iff.mp h
    exact .blank rest hrest heq.symm
  rw [if_neg hblank] at h
  cases hop : operator b with
  | some op =>
    simp only [hop] at h
    by_cases hdoubled : isDoubled b bytes = true
    · rw [if_pos hdoubled] at h
      cases h
    rw [if_neg hdoubled] at h
    obtain ⟨rest, hrest, heq⟩ := Option.map_eq_some_iff.mp h
    exact .operator op rest hop hrest heq.symm
  | none =>
    simp only [hop] at h
    by_cases hforeign : isForeign b = true
    · rw [if_pos hforeign] at h
      cases h
    rw [if_neg hforeign] at h
    by_cases hescape : b = 92
    · rw [if_pos hescape] at h
      exact .quote (.escape inWord) (by rw [hescape]; rfl) rfl h
    rw [if_neg hescape] at h
    by_cases hsingle : b = 39
    · rw [if_pos hsingle] at h
      exact .quote .single (by rw [hsingle]; rfl) rfl h
    rw [if_neg hsingle] at h
    by_cases hdouble : b = 34
    · rw [if_pos hdouble] at h
      exact .quote .double (by rw [hdouble]; rfl) rfl h
    rw [if_neg hdouble] at h
    refine .plain ?_ (fun hb => ?_) h
    · simp [isSpecial, isQuote, hblank, hop, hforeign, hescape, hsingle, hdouble]
    · cases inWord with
      | true => rfl
      | false => exact absurd ⟨hb, rfl⟩ hcomment

/-- What a byte does within a quotation or behind a backslash: what is kept so far, with this byte,
holds what is kept next. -/
lemma quoted_step {b : UInt8} (hm : ∀ inWord, m ≠ .unquoted inWord) (hcomment : m ≠ .comment)
    (h : scan m pieces (b :: bytes) = some tokens) :
    ∃ m' pieces', scan m' pieces' bytes = some tokens ∧
      (pieces'.map Piece.byte ++ pending m').Sublist
        (pieces.map Piece.byte ++ pending m ++ [b]) := by
  cases m with
  | unquoted inWord => exact absurd rfl (hm inWord)
  | comment => exact absurd rfl hcomment
  | escape inWord =>
    rw [scan] at h
    split_ifs at h with hjoin
    · exact ⟨.unquoted inWord, pieces, h, by simp [pending]⟩
    · exact ⟨.unquoted true, pieces ++ [⟨b, true⟩], h, by simp [pending]⟩
  | single =>
    rw [scan] at h
    split_ifs at h with hclose
    · exact ⟨.unquoted true, pieces, h, by simp [pending]⟩
    · exact ⟨.single, pieces ++ [⟨b, true⟩], h, by simp [pending]⟩
  | double =>
    rw [scan] at h
    split_ifs at h with hclose hescape hforeign
    · exact ⟨.unquoted true, pieces, h, by simp [pending]⟩
    · -- the backslash is kept if nothing follows that it quotes
      exact ⟨.doubleEscape, pieces, h, by simp [pending, hescape]⟩
    · exact ⟨.double, pieces ++ [⟨b, true⟩], h, by simp [pending]⟩
  | doubleEscape =>
    rw [scan] at h
    split_ifs at h with hjoin hescapable
    · exact ⟨.double, pieces, h, by simp [pending]⟩
    · exact ⟨.double, pieces ++ [⟨b, true⟩], h, by simp [pending]⟩
    · exact ⟨.double, pieces ++ [⟨92, true⟩, ⟨b, true⟩], h, by simp [pending]⟩

/-- **What is kept.** The words of a line are what is left of it when bytes are dropped. -/
lemma contents_sublist (h : scan m pieces bytes = some tokens) :
    (contents tokens).Sublist (pieces.map Piece.byte ++ pending m ++ bytes) := by
  induction bytes generalizing m pieces tokens with
  | nil =>
    cases m with
    | unquoted inWord =>
      obtain rfl := Option.some.inj h
      rw [pending, List.append_nil]
      exact contents_finish_sublist inWord pieces []
    | comment =>
      obtain rfl := Option.some.inj h
      exact List.nil_sublist _
    | _ => cases h
  | cons b bytes ih =>
    have hskip : ∀ {m'} {rest : List Token}, scan m' [] bytes = some rest → pending m' = [] →
        (contents rest).Sublist (b :: bytes) := fun {m' rest} hrest hpending => by
      have hsub := ih hrest
      rw [hpending] at hsub
      exact hsub.trans (List.sublist_cons_self b bytes)
    cases m with
    | unquoted inWord =>
      rw [pending, List.append_nil]
      cases scan_step h with
      | comment _ hrest =>
        exact (hskip hrest rfl).trans (List.sublist_append_right _ _)
      | blank rest hrest htokens =>
        rw [htokens]
        exact (contents_finish_sublist inWord pieces rest).trans
          ((hskip hrest rfl).append_left _)
      | operator op rest hop hrest htokens =>
        rw [htokens]
        refine (contents_finish_sublist inWord pieces (op :: rest)).trans ?_
        rw [contents_operator hop]
        exact (hskip hrest rfl).append_left _
      | quote m _ hm hrest =>
        have hsub := ih hrest
        rw [hm, List.append_nil] at hsub
        exact hsub.trans ((List.sublist_cons_self b bytes).append_left _)
      | plain _ _ hrest =>
        have hsub := ih hrest
        rwa [pending, List.append_nil, List.map_append, List.append_assoc] at hsub
    | comment =>
      rw [scan] at h
      split_ifs at h with hend
      · obtain ⟨rest, hrest, rfl⟩ := Option.map_eq_some_iff.mp h
        exact (hskip hrest rfl).trans (List.sublist_append_right _ _)
      · exact (hskip h rfl).trans (List.sublist_append_right _ _)
    | _ =>
      obtain ⟨m', pieces', hnext, hkept⟩ := quoted_step (by simp) (by simp) h
      refine (ih hnext).trans ?_
      rw [List.append_cons]
      exact hkept.append_right bytes

end Kept

/-! ## Words that need no quoting -/

/-- A text that is a word as it stands, whatever expansions may do to it. -/
structure PlainWord (text : List UInt8) : Prop where
  nonempty : text ≠ []
  plain : ∀ b ∈ text, isSpecial b = false
  noComment : text.head? ≠ some 35

/-- A text without quotes, as a word. -/
def unquoted (text : List UInt8) : List Piece := text.map fun b => ⟨b, false⟩

/-- A word of that kind. -/
def IsPlain (pieces : List Piece) : Prop := ∃ text, PlainWord text ∧ pieces = unquoted text

section Plain
variable {inWord : Bool} {pieces : List Piece} {bytes : List UInt8} {tokens : List Token}

/-- What has been begun is such a word, or there is none. -/
def Begun (inWord : Bool) (pieces : List Piece) : Prop :=
  if inWord then IsPlain pieces else pieces = []

lemma Begun.snoc {b : UInt8} (h : Begun inWord pieces) (hb : isSpecial b = false)
    (hword : b = 35 → inWord = true) : Begun true (pieces ++ [⟨b, false⟩]) := by
  unfold Begun at *
  rw [if_pos rfl]
  cases inWord with
  | true =>
    rw [if_pos rfl] at h
    obtain ⟨text, htext, rfl⟩ := h
    refine ⟨text ++ [b], ⟨by simp, ?_, ?_⟩, by simp [unquoted]⟩
    · intro c hc
      rcases List.mem_append.mp hc with hc | hc
      · exact htext.plain c hc
      · rw [List.mem_singleton.mp hc]
        exact hb
    · rw [List.head?_append_of_ne_nil _ htext.nonempty]
      exact htext.noComment
  | false =>
    rw [if_neg Bool.false_ne_true] at h
    subst h
    refine ⟨[b], ⟨by simp, ?_, ?_⟩, rfl⟩
    · intro c hc
      rw [List.mem_singleton.mp hc]
      exact hb
    · intro hhead
      exact absurd (hword (Option.some.inj hhead)) Bool.false_ne_true

/-- The words of a line whose first word ends are plain, or those of the rest. -/
lemma Begun.mem_finish {w : List Piece} (h : Begun inWord pieces)
    (hw : .word w ∈ finish inWord pieces tokens) : IsPlain w ∨ .word w ∈ tokens := by
  cases inWord with
  | true =>
    rcases List.mem_cons.mp hw with heq | hmem
    · obtain rfl := Token.word.inj heq
      exact Or.inl h
    · exact Or.inr hmem
  | false => exact Or.inr hw

/-- **No quoting is kept.** Where the words have every quoting character and every `#` of the line,
no such character has had its meaning, and all words are plain. -/
theorem isPlain_of_kept (h : scan (.unquoted inWord) pieces bytes = some tokens)
    (hbegun : Begun inWord pieces)
    (hkept : ∀ q, isQuote q = true ∨ q = 35 →
      (pieces.map Piece.byte).count q + bytes.count q ≤ (contents tokens).count q) :
    ∀ w, .word w ∈ tokens → IsPlain w := by
  intro w hw
  induction bytes generalizing inWord pieces tokens with
  | nil =>
    obtain rfl := Option.some.inj h
    rcases hbegun.mem_finish hw with hplain | hmem
    · exact hplain
    · cases hmem
  | cons b bytes ih =>
    have hword : ∀ {rest}, scan (.unquoted false) [] bytes = some rest →
        (contents tokens).Sublist (pieces.map Piece.byte ++ contents rest) →
        .word w ∈ rest → IsPlain w := fun {rest} hrest hsub hmem =>
      ih hrest rfl (fun q hq => by
        have hk := hkept q hq
        have hle := hsub.count_le q
        rw [List.count_cons] at hk
        rw [List.count_append] at hle
        rw [List.map_nil, List.count_nil]
        omega) hmem
    -- a byte that is not among those of the words has been dropped
    have hdrop : (isQuote b = true ∨ b = 35) →
        ¬ (contents tokens).Sublist (pieces.map Piece.byte ++ bytes) := fun hb hsub => by
      have hk := hkept b hb
      have hle := hsub.count_le b
      rw [List.count_cons_self] at hk
      rw [List.count_append] at hle
      omega
    cases scan_step h with
    | comment hb h =>
      exact absurd ((contents_sublist h).trans (List.sublist_append_right _ _)) (hdrop (Or.inr hb))
    | blank rest hrest htokens =>
      subst htokens
      rcases hbegun.mem_finish hw with hplain | hmem
      · exact hplain
      · exact hword hrest (contents_finish_sublist inWord pieces rest) hmem
    | operator op rest hop hrest htokens =>
      subst htokens
      rcases hbegun.mem_finish hw with hplain | hmem
      · exact hplain
      rcases List.mem_cons.mp hmem with heq | hmem
      · -- an operator is no word
        rw [← heq] at hop
        unfold operator at hop
        split_ifs at hop <;> cases hop
      · refine hword hrest ?_ hmem
        have hsub := contents_finish_sublist inWord pieces (op :: rest)
        rwa [contents_operator hop] at hsub
    | quote m hb hm h =>
      have hsub := contents_sublist h
      rw [hm, List.append_nil] at hsub
      exact absurd hsub (hdrop (Or.inl hb))
    | plain hb hfirst h =>
      refine ih h (hbegun.snoc hb hfirst) (fun q hq => ?_) hw
      have hk := hkept q hq
      rw [List.count_cons] at hk
      rw [List.map_append, List.count_append]
      show _ + [b].count q + bytes.count q ≤ _
      rw [List.count_singleton]
      omega

/-- A plain byte of a word. -/
lemma scan_cons_plain {b : UInt8} (hb : isSpecial b = false) (hword : b = 35 → inWord = true)
    (pieces : List Piece) (bytes : List UInt8) :
    scan (.unquoted inWord) pieces (b :: bytes)
      = scan (.unquoted true) (pieces ++ [⟨b, false⟩]) bytes := by
  simp only [isSpecial, isQuote, Bool.or_eq_false_iff, beq_eq_false_iff_ne, ne_eq] at hb
  obtain ⟨⟨⟨hblank, hop⟩, hforeign⟩, ⟨hescape, hsingle⟩, hdouble⟩ := hb
  have hcomment : ¬ (b = 35 ∧ inWord = false) := fun h =>
    Bool.false_ne_true (h.2.symm.trans (hword h.1))
  have hnone : operator b = none := Option.not_isSome_iff_eq_none.mp (by rw [hop]; decide)
  rw [scan, if_neg hcomment, if_neg (by rw [hblank]; decide)]
  simp only [hnone]
  rw [if_neg (by rw [hforeign]; decide), if_neg hescape, if_neg hsingle, if_neg hdouble]

/-- The rest of a plain word, up to the next blank. -/
lemma scan_plain_rest {text : List UInt8} (h : ∀ b ∈ text, isSpecial b = false)
    (pieces : List Piece) (rest : List UInt8) :
    scan (.unquoted true) pieces (text ++ 32 :: rest)
      = (scan (.unquoted false) [] rest).map fun tokens =>
          .word (pieces ++ unquoted text) :: tokens := by
  induction text generalizing pieces with
  | nil =>
    rw [List.nil_append, unquoted, List.map_nil, List.append_nil]
    rfl
  | cons b text ih =>
    rw [List.cons_append, scan_cons_plain (h b List.mem_cons_self) (fun _ => rfl),
      ih fun c hc => h c (List.mem_cons_of_mem b hc), List.append_assoc]
    rfl

/-- A plain word is read as it stands. -/
lemma scan_plain {text : List UInt8} (h : PlainWord text) (rest : List UInt8) :
    scan (.unquoted false) [] (text ++ 32 :: rest)
      = (scan (.unquoted false) [] rest).map fun tokens => .word (unquoted text) :: tokens := by
  obtain ⟨hne, hplain, hfirst⟩ := h
  cases text with
  | nil => exact absurd rfl hne
  | cons b text =>
    have hb : b ≠ 35 := fun h => hfirst (congrArg some h)
    rw [List.cons_append, scan_cons_plain (hplain b List.mem_cons_self) (fun h => absurd h hb),
      scan_plain_rest fun c hc => hplain c (List.mem_cons_of_mem b hc)]
    rfl

end Plain

/-! ## Arguments that are put into a line -/

section Arguments
variable {pieces : List Piece} {tokens : List Token} {argv : List (List UInt8)}
  {cs : List Command} {field : List UInt8}

lemma expand_eq_some (h : expand pieces = some field) : field = pieces.map Piece.byte := by
  unfold expand at h
  split_ifs at h
  exact (Option.some.inj h).symm

lemma mem_words {w : List Piece} : w ∈ words tokens ↔ .word w ∈ tokens := by
  unfold words
  rw [List.mem_filterMap]
  constructor
  · rintro ⟨token, hmem, heq⟩
    cases token with
    | word pieces =>
      obtain rfl := Option.some.inj heq
      exact hmem
    | _ => cases heq
  · intro h
    exact ⟨.word w, h, rfl⟩

/-- An operator ends the command that has been begun. -/
lemma commands_operator {op : Token} (hop : ∀ pieces, op ≠ .word pieces)
    (h : commands (op :: tokens) argv = some cs) :
    ∃ rest, commands tokens [] = some rest ∧
      cs.flatMap Command.argv = argv ++ rest.flatMap Command.argv := by
  cases op with
  | word pieces => exact absurd rfl (hop pieces)
  | newline =>
    cases argv with
    | nil => exact ⟨cs, h, rfl⟩
    | cons a argv =>
      obtain ⟨rest, hrest, rfl⟩ := Option.map_eq_some_iff.mp h
      exact ⟨rest, hrest, rfl⟩
  | ampersand | semicolon =>
    cases argv with
    | nil => cases h
    | cons a argv =>
      obtain ⟨rest, hrest, rfl⟩ := Option.map_eq_some_iff.mp h
      exact ⟨rest, hrest, rfl⟩

/-- The arguments of the commands are the fields of the words, in this order. -/
lemma fields_of_commands (h : commands tokens argv = some cs) :
    ∃ fields : List (List UInt8), (words tokens).map expand = fields.map some ∧
      cs.flatMap Command.argv = argv ++ fields := by
  induction tokens generalizing argv cs with
  | nil =>
    refine ⟨[], rfl, ?_⟩
    cases argv with
    | nil =>
      obtain rfl := Option.some.inj h
      rfl
    | cons a argv =>
      obtain rfl := Option.some.inj h
      rw [List.flatMap_singleton, List.append_nil]
  | cons token tokens ih =>
    cases token with
    | word pieces =>
      rw [commands] at h
      split_ifs at h
      obtain ⟨field, hfield, hrest⟩ := Option.bind_eq_some_iff.mp h
      obtain ⟨fields, hfields, heq⟩ := ih hrest
      refine ⟨field :: fields, ?_, by rw [heq, List.append_assoc]; rfl⟩
      rw [List.map_cons, ← hfields, ← hfield]
      rfl
    | newline | ampersand | semicolon =>
      obtain ⟨rest, hrest, heq⟩ := commands_operator (fun _ hop => by cases hop) h
      obtain ⟨fields, hfields, hrest⟩ := ih hrest
      exact ⟨fields, hfields, by rw [heq, hrest, List.nil_append]⟩

/-- What the words have kept is what the commands get. -/
lemma flatMap_eq_flatten {ws : List (List Piece)} {fields : List (List UInt8)}
    (h : ws.map expand = fields.map some) :
    (ws.flatMap fun pieces => pieces.map Piece.byte) = fields.flatten := by
  induction ws generalizing fields with
  | nil =>
    rw [List.map_eq_nil_iff.mp h.symm]
    rfl
  | cons w ws ih =>
    cases fields with
    | nil => cases h
    | cons field fields =>
      rw [List.map_cons, List.map_cons, List.cons.injEq] at h
      rw [List.flatMap_cons, List.flatten_cons, ih h.2, expand_eq_some h.1]

/-- A text that is an argument as it stands: a plain word, with no `~` in front and no pattern. -/
structure Literal (text : List UInt8) : Prop extends PlainWord text where
  noTilde : text.head? ≠ some 126
  noPattern : isPattern (unquoted text) = false

lemma map_byte_unquoted (text : List UInt8) : (unquoted text).map Piece.byte = text := by
  unfold unquoted
  rw [List.map_map]
  exact List.map_id text

lemma hasTilde_unquoted (text : List UInt8) :
    hasTilde (unquoted text) = true ↔ text.head? = some 126 := by
  cases text with
  | nil => exact ⟨fun h => (by cases h), fun h => (by cases h)⟩
  | cons b text => simp [hasTilde, unquoted, Piece.isPlain]

/-- The words that are read back from their own text. -/
lemma expand_unquoted_iff (text : List UInt8) :
    expand (unquoted text) = some text ↔
      text.head? ≠ some 126 ∧ isPattern (unquoted text) = false := by
  unfold expand
  rw [map_byte_unquoted, ne_eq, ← hasTilde_unquoted]
  cases hasTilde (unquoted text) <;> cases isPattern (unquoted text) <;> simp

lemma Literal.expand_eq {text : List UInt8} (h : Literal text) :
    expand (unquoted text) = some text :=
  (expand_unquoted_iff text).mpr ⟨h.noTilde, h.noPattern⟩

/-- A command in the background, with its arguments put into the line as they are. -/
def line (argv : List (List UInt8)) : List UInt8 := argv.flatMap (fun a => a ++ [32]) ++ [38]

lemma line_cons (a : List UInt8) (argv : List (List UInt8)) :
    line (a :: argv) = a ++ 32 :: line argv := by
  unfold line
  rw [List.flatMap_cons, List.append_assoc, List.append_assoc]
  rfl

/-- Blanks and the `&` aside, the line consists of the arguments. -/
lemma count_line {q : UInt8} (hblank : q ≠ 32) (hamp : q ≠ 38) (argv : List (List UInt8)) :
    (line argv).count q = argv.flatten.count q := by
  induction argv with
  | nil => exact List.count_eq_zero.mpr fun h => hamp (List.mem_singleton.mp h)
  | cons a argv ih =>
    rw [line_cons, List.count_append, List.count_cons_of_ne hblank.symm, ih, List.flatten_cons,
      List.count_append]

lemma scan_line (h : ∀ a ∈ argv, PlainWord a) :
    scan (.unquoted false) [] (line argv)
      = some ((argv.map fun a => Token.word (unquoted a)) ++ [.ampersand]) := by
  induction argv with
  | nil => rfl
  | cons a argv ih =>
    rw [line_cons, scan_plain (h a List.mem_cons_self),
      ih fun b hb => h b (List.mem_cons_of_mem a hb)]
    rfl

lemma commands_line {args : List (List UInt8)} (h : ∀ a ∈ args, Literal a) (hargv : argv ≠ []) :
    commands ((args.map fun a => Token.word (unquoted a)) ++ [.ampersand]) argv
      = some [⟨argv ++ args, true⟩] := by
  induction args generalizing argv with
  | nil =>
    cases argv with
    | nil => exact absurd rfl hargv
    | cons a argv =>
      rw [List.append_nil]
      rfl
  | cons a args ih =>
    have hfield := (h a List.mem_cons_self).expand_eq
    rw [List.map_cons, List.cons_append, commands, if_neg fun hfirst => hargv hfirst.1, hfield,
      Option.bind_some, ih (fun b hb => h b (List.mem_cons_of_mem a hb)) (by simp),
      List.append_assoc]
    rfl

/-- A line that comes back as its own arguments has none of them quoted. -/
lemma literal_of_read {b : Bool} (h : read (line argv) = some [⟨argv, b⟩]) :
    ∀ a ∈ argv, Literal a := by
  intro a ha
  obtain ⟨tokens, hscan, hcommands⟩ := Option.bind_eq_some_iff.mp h
  obtain ⟨fields, hfields, hargv⟩ := fields_of_commands hcommands
  rw [List.flatMap_singleton, List.nil_append] at hargv
  subst hargv
  have hcontents : contents tokens = argv.flatten := flatMap_eq_flatten hfields
  have hplain : ∀ w, .word w ∈ tokens → IsPlain w := by
    refine isPlain_of_kept hscan rfl fun q hq => ?_
    have hblank : q ≠ 32 := by
      rintro rfl
      exact absurd hq (by decide)
    have hamp : q ≠ 38 := by
      rintro rfl
      exact absurd hq (by decide)
    apply Nat.le_of_eq
    rw [hcontents, count_line hblank hamp, List.map_nil, List.count_nil, Nat.zero_add]
  -- the word that the argument comes from
  have hmem : some a ∈ (words tokens).map expand := hfields ▸ List.mem_map_of_mem ha
  obtain ⟨w, hw, hexpand⟩ := List.mem_map.mp hmem
  obtain ⟨text, htext, rfl⟩ := hplain w (mem_words.mp hw)
  have heq := expand_eq_some hexpand
  rw [map_byte_unquoted] at heq
  subst heq
  obtain ⟨htilde, hpattern⟩ := (expand_unquoted_iff a).mp hexpand
  exact ⟨htext, htilde, hpattern⟩

/-- **Arguments in a line.** The line runs one command in the background with these arguments if and
only if each of them is literal. -/
theorem read_line_iff {name : List UInt8} {args : List (List UInt8)}
    (hname : isReserved (unquoted name) = false) :
    read (line (name :: args)) = some [⟨name :: args, true⟩] ↔ ∀ a ∈ name :: args, Literal a := by
  refine ⟨literal_of_read, fun h => ?_⟩
  have hfield := (h name List.mem_cons_self).expand_eq
  have hfirst : ¬ (([] : List (List UInt8)) = [] ∧ isReserved (unquoted name) = true) := fun hres =>
    Bool.false_ne_true (hname.symm.trans hres.2)
  unfold read
  rw [scan_line fun a ha => (h a ha).toPlainWord, Option.bind_some, List.map_cons,
    List.cons_append, commands, if_neg hfirst, hfield, Option.bind_some]
  exact commands_line (fun a ha => h a (List.mem_cons_of_mem name ha)) (List.cons_ne_nil name [])

end Arguments

end IpncRdk.Lib.Shell
