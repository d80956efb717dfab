import IpncRdk.CJson.Parse

/-!
# The parser on more memory, and its fuel

* `parse_append` — what the parser makes of a text stays when more memory follows it;
* `parse_ne_diverges` — the parser comes to an end on every text.
-/

namespace IpncRdk.CJson

open Lib Reader

variable {D : Type}

/-! ## More memory -/

section Extends

lemma extends_skip : Extends skip skip := extends_passWhile _

lemma extends_passInteger : Extends passInteger passInteger := by
  apply extends_bind (extends_passIf _)
  intro _
  apply extends_bind (extends_passIf _)
  intro _
  apply extends_bind extends_peek
  intro _
  exact extends_ite (extends_passWhile _) (extends_pure ())

lemma extends_passFraction : Extends passFraction passFraction := by
  apply extends_bind extends_peek
  intro _
  apply extends_ite _ (extends_pure ())
  apply extends_bind
  · exact extends_look (extends_bind (extends_advance 1) fun _ => extends_peek)
  · intro _
    apply extends_ite _ (extends_pure ())
    exact extends_bind (extends_advance 1) fun _ => extends_passWhile _

lemma extends_passExponent : Extends passExponent passExponent := by
  apply extends_bind extends_peek
  intro _
  apply extends_ite _ (extends_pure ())
  apply extends_bind (extends_advance 1)
  intro _
  exact extends_bind (extends_passIf _) fun _ => extends_passWhile _

lemma extends_parseNumber (numOf : List UInt8 → D × ℤ) :
    Extends (parseNumber numOf) (parseNumber numOf) := by
  apply extends_bind _ fun _ => extends_pure _
  apply extends_consumed
  apply extends_bind extends_passInteger
  intro _
  exact extends_bind extends_passFraction fun _ => extends_passExponent

lemma extends_parseHex (digits h : ℕ) : Extends (parseHex digits h) (parseHex digits h) := by
  induction digits generalizing h with
  | zero => exact extends_pure h
  | succ digits ih =>
    apply extends_bind extends_peek
    intro b
    cases hexDigit b with
    | none => exact extends_pure 0
    | some d => exact extends_bind (extends_advance 1) fun _ => ih _

lemma extends_parseHex4 : Extends parseHex4 parseHex4 := extends_look (extends_parseHex 4 0)

lemma extends_transcode : Extends transcode transcode := by
  apply extends_bind (extends_advance 1)
  intro _
  apply extends_bind extends_parseHex4
  intro _
  apply extends_bind (extends_advance 4)
  intro _
  apply extends_ite (extends_pure [])
  apply extends_ite _ (extends_pure _)
  apply extends_bind (extends_startsWith _)
  intro _
  apply extends_ite _ (extends_pure [])
  apply extends_bind (extends_advance 2)
  intro _
  apply extends_bind extends_parseHex4
  intro _
  apply extends_bind (extends_advance 4)
  intro _
  exact extends_ite (extends_pure []) (extends_pure _)

lemma extends_parseChar : Extends parseChar parseChar := by
  apply extends_bind extends_peek
  intro _
  apply extends_bind (extends_advance 1)
  intro _
  apply extends_ite (extends_pure _)
  apply extends_bind extends_peek
  intro _
  apply extends_ite extends_transcode
  exact extends_bind (extends_advance 1) fun _ => extends_pure _

lemma extends_stringLen (fuel k : ℕ) : Extends (stringLen fuel) (stringLen (fuel + k)) := by
  induction fuel with
  | zero => exact extends_fault _ _
  | succ fuel ih =>
    rw [Nat.succ_add]
    apply extends_bind extends_peek
    intro _
    apply extends_ite (extends_pure 0)
    apply extends_bind (extends_advance _)
    intro _
    exact extends_bind ih fun _ => extends_pure _

lemma extends_copyString (len fuel k : ℕ) (out : List UInt8) :
    Extends (copyString len fuel out) (copyString len (fuel + k) out) := by
  induction fuel generalizing out with
  | zero => exact extends_fault _ _
  | succ fuel ih =>
    rw [Nat.succ_add]
    apply extends_bind extends_peek
    intro _
    apply extends_ite
    · exact extends_ite (extends_pure out) (extends_fault _ _)
    · apply extends_bind extends_parseChar
      intro text
      exact extends_ite (ih _) (extends_fault _ _)

lemma extends_parseString (fuel k : ℕ) :
    Extends (parseString fuel) (parseString (fuel + k)) := by
  apply extends_bind extends_peek
  intro _
  apply extends_ite (extends_pure none)
  apply extends_bind (extends_advance 1)
  intro _
  apply extends_bind (extends_look (extends_stringLen fuel k))
  intro len
  apply extends_bind (extends_copyString len fuel k [])
  intro _
  exact extends_bind (extends_passIf _) fun _ => extends_pure _

variable {α : Type} {parseItem parseItem' : Reader (Option α)}

lemma extends_parseItems (hitem : Extends parseItem parseItem') (close : UInt8) (fuel k : ℕ) :
    Extends (parseItems parseItem close fuel) (parseItems parseItem' close (fuel + k)) := by
  induction fuel with
  | zero => exact extends_fault _ _
  | succ fuel ih =>
    rw [Nat.succ_add]
    apply extends_bind extends_skip
    intro _
    apply extends_andThen hitem
    intro item
    apply extends_bind extends_skip
    intro _
    apply extends_bind extends_peek
    intro _
    apply extends_ite
    · apply extends_bind (extends_advance 1)
      intro _
      exact extends_andThen ih fun _ => extends_pure _
    · apply extends_ite _ (extends_pure none)
      exact extends_bind (extends_advance 1) fun _ => extends_pure _

lemma extends_parseBracket (hitem : Extends parseItem parseItem') (close : UInt8) (fuel k : ℕ) :
    Extends (parseBracket parseItem close fuel) (parseBracket parseItem' close (fuel + k)) := by
  apply extends_bind (extends_advance 1)
  intro _
  apply extends_bind extends_skip
  intro _
  apply extends_bind extends_peek
  intro _
  apply extends_ite _ (extends_parseItems hitem close fuel k)
  exact extends_bind (extends_advance 1) fun _ => extends_pure _

lemma extends_parseMember {value value' : Reader (Option (Item D))} (hvalue : Extends value value')
    (fuel k : ℕ) : Extends (parseMember value fuel) (parseMember value' (fuel + k)) := by
  apply extends_andThen (extends_parseString fuel k)
  intro name
  apply extends_bind extends_skip
  intro _
  apply extends_bind extends_peek
  intro _
  apply extends_ite _ (extends_pure none)
  apply extends_bind (extends_advance 1)
  intro _
  apply extends_bind extends_skip
  intro _
  exact extends_andThen hvalue fun _ => extends_pure _

/-- More memory, and more fuel, do not change what `parse_value` comes to. -/
lemma extends_parseValue (numOf : List UInt8 → D × ℤ) (fuel k : ℕ) :
    Extends (parseValue numOf fuel) (parseValue numOf (fuel + k)) := by
  induction fuel with
  | zero => exact extends_fault _ _
  | succ fuel ih =>
    rw [Nat.succ_add]
    apply extends_bind (extends_startsWith _)
    intro _
    -- `null`, `false`, `true`
    apply extends_ite (extends_bind (extends_advance 4) fun _ => extends_pure _)
    apply extends_bind (extends_startsWith _)
    intro _
    apply extends_ite (extends_bind (extends_advance 5) fun _ => extends_pure _)
    apply extends_bind (extends_startsWith _)
    intro _
    apply extends_ite (extends_bind (extends_advance 4) fun _ => extends_pure _)
    apply extends_bind extends_peek
    intro _
    -- a string, a number, an array, an object
    apply extends_ite (extends_andThen (extends_parseString fuel k) fun _ => extends_pure _)
    apply extends_ite (extends_bind (extends_parseNumber numOf) fun _ => extends_pure _)
    apply extends_ite
    · exact extends_andThen (extends_parseBracket ih _ fuel k) fun _ => extends_pure _
    · apply extends_ite _ (extends_pure none)
      have hmember := extends_parseMember ih fuel k
      exact extends_andThen (extends_parseBracket hmember _ fuel k) fun _ => extends_pure _

end Extends

lemma parse_eq_ok {numOf : List UInt8 → D × ℤ} {mem : List UInt8} {root : Option (Item D)} :
    parse numOf mem = .ok root ↔
      ∃ rest, (skip >>= fun _ => parseValue numOf (mem.length + 1)) mem = .ok (root, rest) := by
  unfold parse
  rw [bind_eq_ok_iff]
  constructor
  · rintro ⟨⟨item, rest⟩, h, hroot⟩
    obtain rfl := Except.ok.inj hroot
    exact ⟨rest, h⟩
  · rintro ⟨rest, h⟩
    exact ⟨(root, rest), h, rfl⟩

/-- What the parser makes of a text stays when more memory follows it. -/
theorem parse_append {numOf : List UInt8 → D × ℤ} {mem : List UInt8} {root : Option (Item D)}
    (h : parse numOf mem = .ok root) (more : List UInt8) :
    parse numOf (mem ++ more) = .ok root := by
  obtain ⟨rest, hrest⟩ := parse_eq_ok.mp h
  apply parse_eq_ok.mpr
  refine ⟨rest ++ more, ?_⟩
  -- the longer memory comes with as much more fuel
  have hext : Extends (skip >>= fun _ => parseValue numOf (mem.length + 1))
      (skip >>= fun _ => parseValue numOf (mem.length + 1 + more.length)) :=
    extends_bind extends_skip fun _ => extends_parseValue numOf _ _
  have hlen : (mem ++ more).length + 1 = mem.length + 1 + more.length := by
    rw [List.length_append]
    omega
  rw [hlen]
  exact hext more hrest

/-! ## Fuel -/

section Returns
variable {n : ℕ}

lemma returns_skip : Returns n skip := returns_passWhile _

lemma returns_parseNumber (numOf : List UInt8 → D × ℤ) : Returns n (parseNumber numOf) := by
  apply returns_bind _ fun _ => returns_pure _
  apply returns_consumed
  apply returns_bind
  · -- `passInteger`
    apply returns_bind (returns_passIf _)
    intro _
    apply returns_bind (returns_passIf _)
    intro _
    apply returns_bind returns_peek
    intro _
    exact returns_ite (returns_passWhile _) (returns_pure ())
  · intro _
    apply returns_bind
    · -- `passFraction`
      apply returns_bind returns_peek
      intro _
      apply returns_ite _ (returns_pure ())
      apply returns_bind
      · exact returns_look (returns_bind (returns_advance 1) fun _ => returns_peek)
      · intro _
        apply returns_ite _ (returns_pure ())
        exact returns_bind (returns_advance 1) fun _ => returns_passWhile _
    · -- `passExponent`
      intro _
      apply returns_bind returns_peek
      intro _
      apply returns_ite _ (returns_pure ())
      apply returns_bind (returns_advance 1)
      intro _
      exact returns_bind (returns_passIf _) fun _ => returns_passWhile _

lemma returns_parseHex4 : Returns n parseHex4 := by
  apply returns_look
  suffices hhex : ∀ digits h, Returns n (parseHex digits h) from hhex 4 0
  intro digits
  induction digits with
  | zero => exact fun h => returns_pure h
  | succ digits ih =>
    intro h
    apply returns_bind returns_peek
    intro b
    cases hexDigit b with
    | none => exact returns_pure 0
    | some d => exact returns_bind (returns_advance 1) fun _ => ih _

lemma returns_transcode : Returns n transcode := by
  apply returns_bind (returns_advance 1)
  intro _
  apply returns_bind returns_parseHex4
  intro _
  apply returns_bind (returns_advance 4)
  intro _
  apply returns_ite (returns_pure [])
  apply returns_ite _ (returns_pure _)
  apply returns_bind (returns_startsWith _)
  intro _
  apply returns_ite _ (returns_pure [])
  apply returns_bind (returns_advance 2)
  intro _
  apply returns_bind returns_parseHex4
  intro _
  apply returns_bind (returns_advance 4)
  intro _
  exact returns_ite (returns_pure []) (returns_pure _)

/-- What follows a byte or an escape has less memory. -/
lemma returns_parseChar_bind {β : Type} {f : List UInt8 → Reader β}
    (hf : ∀ text m, m < n → Returns m (f text)) : Returns n (parseChar >>= f) := by
  unfold parseChar
  simp only [bind_assoc]
  apply returns_bind returns_peek
  intro b
  apply returns_advance_bind Nat.one_pos
  intro m hm
  by_cases hb : b ≠ 92
  · rw [if_pos hb, pure_bind]
    exact hf _ m hm
  · rw [if_neg hb, bind_assoc]
    apply returns_bind returns_peek
    intro c
    apply returns_bind _ fun text => hf text m hm
    apply returns_ite returns_transcode
    exact returns_bind (returns_advance 1) fun _ => returns_pure _

lemma returns_stringLen {fuel : ℕ} (h : n < fuel) : Returns n (stringLen fuel) := by
  induction fuel generalizing n with
  | zero => omega
  | succ fuel ih =>
    apply returns_bind returns_peek
    intro b
    apply returns_ite (returns_pure 0)
    apply returns_advance_bind (by split <;> omega)
    intro m hm
    exact returns_bind (ih (by omega)) fun _ => returns_pure _

lemma returns_fault_outOfBounds {α : Type} : Returns n (fault .outOfBounds : Reader α) :=
  fun _ _ => returns_of_eq_error rfl (by decide)

lemma returns_copyString {len fuel : ℕ} (h : n < fuel) (out : List UInt8) :
    Returns n (copyString len fuel out) := by
  induction fuel generalizing n out with
  | zero => omega
  | succ fuel ih =>
    apply returns_bind returns_peek
    intro b
    apply returns_ite
    · exact returns_ite (returns_pure out) returns_fault_outOfBounds
    · apply returns_parseChar_bind
      intro text m hm
      exact returns_ite (ih (by omega) _) returns_fault_outOfBounds

lemma returns_parseString {fuel : ℕ} (h : n ≤ fuel) : Returns n (parseString fuel) := by
  apply returns_bind returns_peek
  intro _
  apply returns_ite (returns_pure none)
  -- behind the opening quote there is less memory than fuel
  apply returns_advance_bind Nat.one_pos
  intro m hm
  have hfuel : m < fuel := by omega
  apply returns_bind (returns_look (returns_stringLen hfuel))
  intro len
  apply returns_bind (returns_copyString hfuel [])
  intro _
  exact returns_bind (returns_passIf _) fun _ => returns_pure _

variable {α : Type} {parseItem : Reader (Option α)}

lemma returns_parseItems (hitem : Returns n parseItem) (close : UInt8) {fuel : ℕ}
    (h : n < fuel) : Returns n (parseItems parseItem close fuel) := by
  induction fuel generalizing n with
  | zero => omega
  | succ fuel ih =>
    apply returns_bind returns_skip
    intro _
    apply returns_andThen hitem
    intro item
    apply returns_bind returns_skip
    intro _
    apply returns_bind returns_peek
    intro _
    apply returns_ite
    · -- a comma is passed, so the next round has less memory
      apply returns_advance_bind Nat.one_pos
      intro m hm
      apply returns_andThen (ih (returns_of_le hitem hm.le) (by omega))
      exact fun _ => returns_pure _
    · apply returns_ite _ (returns_pure none)
      exact returns_bind (returns_advance 1) fun _ => returns_pure _

lemma returns_parseBracket (hitem : ∀ m < n, Returns m parseItem) (close : UInt8) {fuel : ℕ}
    (h : n ≤ fuel) : Returns n (parseBracket parseItem close fuel) := by
  apply returns_advance_bind Nat.one_pos
  intro m hm
  apply returns_bind returns_skip
  intro _
  apply returns_bind returns_peek
  intro _
  apply returns_ite _ (returns_parseItems (hitem m hm) close (by omega))
  exact returns_bind (returns_advance 1) fun _ => returns_pure _

lemma returns_parseMember {value : Reader (Option (Item D))} (hvalue : Returns n value) {fuel : ℕ}
    (h : n ≤ fuel) : Returns n (parseMember value fuel) := by
  apply returns_andThen (returns_parseString h)
  intro name
  apply returns_bind returns_skip
  intro _
  apply returns_bind returns_peek
  intro _
  apply returns_ite _ (returns_pure none)
  apply returns_bind (returns_advance 1)
  intro _
  apply returns_bind returns_skip
  intro _
  exact returns_andThen hvalue fun _ => returns_pure _

lemma returns_parseValue (numOf : List UInt8 → D × ℤ) {fuel : ℕ} (h : n < fuel) :
    Returns n (parseValue numOf fuel) := by
  induction fuel generalizing n with
  | zero => omega
  | succ fuel ih =>
    apply returns_bind (returns_startsWith _)
    intro _
    -- `null`, `false`, `true`
    apply returns_ite (returns_bind (returns_advance 4) fun _ => returns_pure _)
    apply returns_bind (returns_startsWith _)
    intro _
    apply returns_ite (returns_bind (returns_advance 5) fun _ => returns_pure _)
    apply returns_bind (returns_startsWith _)
    intro _
    apply returns_ite (returns_bind (returns_advance 4) fun _ => returns_pure _)
    apply returns_bind returns_peek
    intro _
    have hle : n ≤ fuel := by omega
    apply returns_ite (returns_andThen (returns_parseString hle) fun _ => returns_pure _)
    apply returns_ite (returns_bind (returns_parseNumber numOf) fun _ => returns_pure _)
    -- behind a bracket there is less memory, so the elements come to an end
    have hvalue : ∀ m < n, Returns m (parseValue numOf fuel) := fun m hm => ih (by omega)
    apply returns_ite
    · exact returns_andThen (returns_parseBracket hvalue _ hle) fun _ => returns_pure _
    · apply returns_ite _ (returns_pure none)
      have hmember : ∀ m < n, Returns m (parseMember (parseValue numOf fuel) fuel) :=
        fun m hm => returns_parseMember (hvalue m hm) (by omega)
      exact returns_andThen (returns_parseBracket hmember _ hle) fun _ => returns_pure _

/-- The parser comes to an end on every text. -/
theorem parse_ne_diverges (numOf : List UInt8 → D × ℤ) (mem : List UInt8) :
    parse numOf mem ≠ .error .diverges := by
  have hread : Returns mem.length (skip >>= fun _ => parseValue numOf (mem.length + 1)) :=
    returns_bind returns_skip fun _ => returns_parseValue numOf (Nat.lt_succ_self _)
  unfold parse
  cases h : (skip >>= fun _ => parseValue numOf (mem.length + 1)) mem with
  | error f => exact fun he => ne_diverges_of_returns hread le_rfl h (Except.error.inj he)
  | ok x => exact fun he => by cases he

end Returns

end IpncRdk.CJson
