import IpncRdk.Lib.CSemantics
import Mathlib.Data.List.TakeWhile

/-!
# C strings

A C string is the list of the bytes before its NUL. What the models use of `<string.h>` and
`<ctype.h>`, in the C locale:

* `cstr` — the string at the start of a byte area;
* `strncasecmpEq` — `strncasecmp(key, text, strlen(key)) == 0`;
* `isAlpha` — `isalpha`;
* `put`, `strcpy` — stores into an area of known size.
-/

namespace IpncRdk.Lib

/-- A string without NUL. -/
structure CString where
  bytes : List UInt8
  noNul : (0 : UInt8) ∉ bytes

/-- The string at the start of a byte area. -/
def cstr (area : List UInt8) : List UInt8 := area.takeWhile (· != 0)

def toLower (b : UInt8) : UInt8 := if 65 ≤ b ∧ b ≤ 90 then b + 32 else b

def isAlpha (b : UInt8) : Bool := (65 ≤ b && b ≤ 90) || (97 ≤ b && b ≤ 122)

/-- `strncasecmp(key, text, strlen(key)) == 0`: `text` begins with `key`, ignoring case. -/
def strncasecmpEq : List UInt8 → List UInt8 → Bool
  | [], _ => true
  | _ :: _, [] => false
  | k :: key, b :: text => toLower k == toLower b && strncasecmpEq key text

/-- `area[i] = b`. -/
def put (area : List UInt8) (i : ℕ) (b : UInt8) : Except Fault (List UInt8) :=
  if i < area.length then .ok (area.set i b) else .error .outOfBounds

/-- `strcpy(area, text)`. -/
def strcpy (area text : List UInt8) : Except Fault (List UInt8) :=
  if text.length < area.length then .ok (text ++ 0 :: area.drop (text.length + 1))
  else .error .outOfBounds

section CStr

@[simp] lemma cstr_nil : cstr [] = [] := rfl

lemma cstr_of_noNul {text : List UInt8} (h : (0 : UInt8) ∉ text) : cstr text = text := by
  unfold cstr
  rw [List.takeWhile_eq_self_iff]
  intro b hb
  simpa using fun h0 : b = 0 => h (h0 ▸ hb)

/-- A string is read back from the area it was stored in. -/
lemma cstr_append_nul {text : List UInt8} (h : (0 : UInt8) ∉ text) (rest : List UInt8) :
    cstr (text ++ 0 :: rest) = text := by
  unfold cstr
  rw [List.takeWhile_append_of_pos]
  · simp
  · intro b hb
    simpa using fun h0 : b = 0 => h (h0 ▸ hb)

/-- An area with a NUL is a string, its NUL and some more. -/
lemma eq_cstr_append {area : List UInt8} (h : (0 : UInt8) ∈ area) :
    ∃ rest, area = cstr area ++ 0 :: rest := by
  obtain ⟨text, rest, rfl, htext⟩ := List.eq_append_cons_of_mem h
  exact ⟨rest, by rw [cstr_append_nul htext]⟩

lemma nul_notMem_cstr (area : List UInt8) : (0 : UInt8) ∉ cstr area := by
  intro h
  have := List.mem_takeWhile_imp h
  simp at this

end CStr

section Prefix

@[simp] lemma strncasecmpEq_nil (text : List UInt8) : strncasecmpEq [] text = true := by
  unfold strncasecmpEq
  rfl

/-- The bytes of the text that the key is compared with. -/
lemma strncasecmpEq_iff {key text : List UInt8} :
    strncasecmpEq key text = true ↔ (text.take key.length).map toLower = key.map toLower := by
  induction key generalizing text with
  | nil => simp
  | cons k key ih =>
    cases text with
    | nil => simp [strncasecmpEq]
    | cons b text =>
      rw [strncasecmpEq, Bool.and_eq_true, beq_iff_eq, ih, List.length_cons, List.take_succ_cons,
        List.map_cons, List.map_cons, List.cons.injEq]
      exact and_congr_left fun _ => eq_comm

/-- A key is a prefix of what begins with it. -/
lemma strncasecmpEq_append (key rest : List UInt8) : strncasecmpEq key (key ++ rest) = true := by
  induction key with
  | nil => rw [strncasecmpEq_nil]
  | cons k key ih =>
    rw [List.cons_append, strncasecmpEq, ih]
    simp

/-- Only letters have a second case. -/
lemma toLower_eq_of_notAlpha {b c : UInt8} (hb : isAlpha b = false)
    (h : toLower b = toLower c) : b = c := by
  simp only [isAlpha, Bool.or_eq_false_iff, Bool.and_eq_false_iff, decide_eq_false_iff_not,
    UInt8.le_iff_toNat_le, UInt8.reduceToNat] at hb
  have hnat := congrArg UInt8.toNat h
  simp only [toLower, UInt8.le_iff_toNat_le, apply_ite UInt8.toNat, UInt8.toNat_add,
    UInt8.reduceToNat] at hnat
  apply UInt8.toNat_inj.mp
  split_ifs at hnat <;> omega

/-- A byte that is no letter stands in the text where it stands in the key. -/
lemma getElem?_of_strncasecmpEq {key text : List UInt8} (h : strncasecmpEq key text = true)
    {i : ℕ} {b : UInt8} (hb : key[i]? = some b) (halpha : isAlpha b = false) :
    text[i]? = some b := by
  induction key generalizing text i with
  | nil => cases hb
  | cons k key ih =>
    cases text with
    | nil => cases h
    | cons c text =>
      rw [strncasecmpEq, Bool.and_eq_true, beq_iff_eq] at h
      cases i with
      | zero =>
        rw [List.getElem?_cons_zero, Option.some.injEq] at hb ⊢
        subst hb
        exact (toLower_eq_of_notAlpha halpha h.1).symm
      | succ i =>
        rw [List.getElem?_cons_succ] at hb ⊢
        exact ih h.2 hb

end Prefix

end IpncRdk.Lib
