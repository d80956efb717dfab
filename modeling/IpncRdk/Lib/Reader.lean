import IpncRdk.Lib.CSemantics

/-!
# Code that reads memory through a pointer

A `Reader` is C code with a pointer into readable memory; its state is the memory from the
pointer on. A read behind the memory, and a pointer moved there, is a fault.

* `peek`, `advance`, `look`, `passWhile`, `passIf`, `startsWith`, `consumed` — the reads;
* `andThen` — code that gives up where its first part gave up;
* `bind_of_ok`, `passWhile_append`, `startsWith_append` — the reads of a known text;
* `Extends` — a reader that comes to a result comes to the same one when more memory follows;
* `Returns` — a reader whose fuel is enough.
-/

namespace IpncRdk.Lib

abbrev Reader := StateT (List UInt8) (Except Fault)

namespace Reader

variable {α β : Type}

/-! ## Reads -/

def fault (f : Fault) : Reader α := fun _ => .error f

/-- `*p`. -/
def peek : Reader UInt8
  | [] => .error .outOfBounds
  | b :: mem => .ok (b, b :: mem)

/-- `p += n`. -/
def advance (n : ℕ) : Reader Unit := fun mem =>
  if n ≤ mem.length then .ok ((), mem.drop n) else .error .outOfBounds

/-- Reads on, and puts the pointer back. -/
def look (r : Reader α) : Reader α := fun mem => (r mem).map fun (a, _) => (a, mem)

/-- `while (f(*p)) p++`. -/
def passWhile (f : UInt8 → Bool) : Reader Unit
  | [] => .error .outOfBounds
  | b :: mem => if f b then passWhile f mem else .ok ((), b :: mem)

/-- `if (f(*p)) p++`. -/
def passIf (f : UInt8 → Bool) : Reader Unit := do
  if f (← peek) then advance 1 else pure ()

/-- `strncmp(p, text, strlen(text)) == 0`, which stops at the first difference. -/
def startsWith : List UInt8 → Reader Bool
  | [] => pure true
  | c :: text => look do
    if (← peek) = c then do
      advance 1
      startsWith text
    else pure false

/-- The bytes that the pointer passes over. -/
def consumed (r : Reader Unit) : Reader (List UInt8) := fun mem =>
  (r mem).map fun (_, rest) => (mem.take (mem.length - rest.length), rest)

/-- What follows is left out where the first part gives up. -/
def andThen (r : Reader (Option α)) (f : α → Reader (Option β)) : Reader (Option β) := do
  match ← r with
  | none => pure none
  | some a => f a

/-! ## Results of a sequence -/

lemma bind_eq_ok {r : Reader α} {f : α → Reader β} {mem rest : List UInt8} {b : β} :
    (r >>= f) mem = .ok (b, rest) ↔
      ∃ a mid, r mem = .ok (a, mid) ∧ f a mid = .ok (b, rest) := by
  show ((r mem).bind fun x => f x.1 x.2) = _ ↔ _
  cases h : r mem with
  | error e => simp [Except.bind]
  | ok x =>
    obtain ⟨a, mid⟩ := x
    simp [Except.bind]

lemma pure_eq (a : α) (mem : List UInt8) : (pure a : Reader α) mem = .ok (a, mem) := rfl

/-! ## Reads of a known text -/

section Known
variable {r : Reader α} {f : α → Reader β} {mem mid : List UInt8} {a : α}

lemma bind_of_ok (h : r mem = .ok (a, mid)) : (r >>= f) mem = f a mid := by
  show ((r mem).bind fun x => f x.1 x.2) = f a mid
  rw [h]
  rfl

end Known

/-! ## More memory -/

/-- What `r` comes to, `r'` comes to as well when more memory follows. -/
def Extends (r r' : Reader α) : Prop := ∀ ⦃mem rest : List UInt8⦄ ⦃a : α⦄ (more : List UInt8),
  r mem = .ok (a, rest) → r' (mem ++ more) = .ok (a, rest ++ more)

section Extends

lemma extends_pure (a : α) : Extends (pure a : Reader α) (pure a) := by
  intro mem rest b more h
  rw [pure_eq, Except.ok.injEq, Prod.mk.injEq] at h
  rw [pure_eq, h.1, h.2]

lemma extends_fault (f : Fault) (r : Reader α) : Extends (fault f) r := by
  intro mem rest a more h
  nomatch h

lemma extends_bind {r r' : Reader α} {f f' : α → Reader β} (hr : Extends r r')
    (hf : ∀ a, Extends (f a) (f' a)) : Extends (r >>= f) (r' >>= f') := by
  intro mem rest b more h
  obtain ⟨a, mid, ha, hb⟩ := bind_eq_ok.mp h
  exact bind_eq_ok.mpr ⟨a, mid ++ more, hr more ha, hf a more hb⟩

lemma extends_ite {c : Prop} [Decidable c] {r r' t t' : Reader α} (hr : Extends r r')
    (ht : Extends t t') : Extends (if c then r else t) (if c then r' else t') := by
  by_cases h : c
  · rw [if_pos h, if_pos h]
    exact hr
  · rw [if_neg h, if_neg h]
    exact ht

lemma extends_peek : Extends peek peek := by
  intro mem rest b more h
  cases mem with
  | nil => nomatch h
  | cons c mem =>
    simp only [peek, Except.ok.injEq, Prod.mk.injEq] at h
    rw [← h.1, ← h.2]
    rfl

lemma extends_advance (n : ℕ) : Extends (advance n) (advance n) := by
  intro mem rest b more h
  unfold advance at h ⊢
  split at h
  · next hle =>
    rw [Except.ok.injEq, Prod.mk.injEq] at h
    rw [if_pos (by rw [List.length_append]; omega), List.drop_append_of_le_length hle, h.2]
  · nomatch h

lemma extends_look {r r' : Reader α} (hr : Extends r r') : Extends (look r) (look r') := by
  intro mem rest a more h
  obtain ⟨⟨b, mid⟩, hmem, heq⟩ := map_eq_ok_iff.mp h
  obtain ⟨rfl, rfl⟩ := Prod.mk.inj heq
  exact map_eq_ok_iff.mpr ⟨(b, mid ++ more), hr more hmem, rfl⟩

lemma extends_passWhile (f : UInt8 → Bool) : Extends (passWhile f) (passWhile f) := by
  intro mem
  induction mem with
  | nil =>
    intro rest a more h
    nomatch h
  | cons b mem ih =>
    intro rest a more h
    rw [List.cons_append]
    unfold passWhile at h ⊢
    split at h
    · next hb =>
      rw [if_pos hb]
      exact ih more h
    · next hb =>
      rw [if_neg hb]
      rw [Except.ok.injEq, Prod.mk.injEq] at h
      rw [← h.2]
      rfl

lemma extends_passIf (f : UInt8 → Bool) : Extends (passIf f) (passIf f) :=
  extends_bind extends_peek fun _ => extends_ite (extends_advance 1) (extends_pure ())

lemma extends_startsWith (text : List UInt8) : Extends (startsWith text) (startsWith text) := by
  induction text with
  | nil => exact extends_pure true
  | cons c text ih =>
    apply extends_look
    apply extends_bind extends_peek
    intro b
    apply extends_ite
    · exact extends_bind (extends_advance 1) fun _ => ih
    · exact extends_pure false

lemma extends_consumed {r r' : Reader Unit} (hr : Extends r r') :
    Extends (consumed r) (consumed r') := by
  intro mem rest text more h
  obtain ⟨⟨_, mid⟩, hmem, heq⟩ := map_eq_ok_iff.mp h
  obtain ⟨rfl, rfl⟩ := Prod.mk.inj heq
  refine map_eq_ok_iff.mpr ⟨((), mid ++ more), hr more hmem, Prod.ext ?_ rfl⟩
  -- the passed bytes are counted from the start, so what follows does not matter
  show (mem ++ more).take ((mem ++ more).length - (mid ++ more).length) = _
  rw [List.length_append, List.length_append, Nat.add_sub_add_right,
    List.take_append_of_le_length (by omega)]

lemma extends_andThen {r r' : Reader (Option α)} {f f' : α → Reader (Option β)}
    (hr : Extends r r') (hf : ∀ a, Extends (f a) (f' a)) :
    Extends (andThen r f) (andThen r' f') := by
  apply extends_bind hr
  intro a
  cases a with
  | none => exact extends_pure none
  | some a => exact hf a

end Extends

/-! ## Enough fuel -/

/-- On at most `n` bytes of memory `r` does not run out of fuel, and it moves forward. -/
def Returns (n : ℕ) (r : Reader α) : Prop := ∀ mem : List UInt8, mem.length ≤ n →
  r mem ≠ .error .diverges ∧ ∀ a rest, r mem = .ok (a, rest) → rest.length ≤ mem.length

section Returns
variable {n : ℕ}

lemma returns_of_le {r : Reader α} {m : ℕ} (h : Returns n r) (hm : m ≤ n) : Returns m r :=
  fun mem hmem => h mem (hmem.trans hm)

/-- A result with the pointer moved forward. -/
lemma returns_of_eq_ok {r : Reader α} {mem mid : List UInt8} {a : α} (h : r mem = .ok (a, mid))
    (hle : mid.length ≤ mem.length) :
    r mem ≠ .error .diverges ∧ ∀ b rest, r mem = .ok (b, rest) → rest.length ≤ mem.length := by
  rw [h]
  refine ⟨fun he => (by cases he), fun b rest heq => ?_⟩
  rw [Except.ok.injEq, Prod.mk.injEq] at heq
  exact heq.2 ▸ hle

/-- A fault other than that of the fuel. -/
lemma returns_of_eq_error {r : Reader α} {mem : List UInt8} {f : Fault} (h : r mem = .error f)
    (hf : f ≠ .diverges) :
    r mem ≠ .error .diverges ∧ ∀ b rest, r mem = .ok (b, rest) → rest.length ≤ mem.length := by
  rw [h]
  exact ⟨fun he => hf (Except.error.inj he), fun _ _ heq => by cases heq⟩

lemma ne_diverges_of_returns {r : Reader α} {mem : List UInt8} {f : Fault} (hr : Returns n r)
    (hmem : mem.length ≤ n) (h : r mem = .error f) : f ≠ .diverges := by
  rintro rfl
  exact (hr mem hmem).1 h

lemma returns_pure (a : α) : Returns n (pure a : Reader α) := fun mem _ =>
  returns_of_eq_ok (pure_eq a mem) (le_refl _)

lemma returns_bind {r : Reader α} {f : α → Reader β} (hr : Returns n r)
    (hf : ∀ a, Returns n (f a)) : Returns n (r >>= f) := by
  intro mem hmem
  have hlen := (hr mem hmem).2
  constructor
  · show ((r mem).bind fun x => f x.1 x.2) ≠ _
    cases h : r mem with
    | error f => exact fun he => ne_diverges_of_returns hr hmem h (Except.error.inj he)
    | ok x => exact (hf x.1 x.2 ((hlen x.1 x.2 h).trans hmem)).1
  · intro b rest h
    obtain ⟨a, mid, ha, hb⟩ := bind_eq_ok.mp h
    have hmid := hlen a mid ha
    exact ((hf a mid (hmid.trans hmem)).2 b rest hb).trans hmid

lemma returns_ite {c : Prop} [Decidable c] {r t : Reader α} (hr : Returns n r)
    (ht : Returns n t) : Returns n (if c then r else t) := by
  by_cases h : c
  · rwa [if_pos h]
  · rwa [if_neg h]

lemma returns_peek : Returns n peek := by
  intro mem _
  cases mem with
  | nil => exact returns_of_eq_error rfl (by decide)
  | cons b mem => exact returns_of_eq_ok rfl (le_refl _)

lemma returns_advance (k : ℕ) : Returns n (advance k) := by
  intro mem _
  by_cases hle : k ≤ mem.length
  · exact returns_of_eq_ok (if_pos hle) (List.length_drop.trans_le (Nat.sub_le _ _))
  · exact returns_of_eq_error (if_neg hle) (by decide)

/-- Behind a pointer that has moved on there is less memory. -/
lemma returns_advance_bind {k : ℕ} {f : Unit → Reader β} (hk : 0 < k)
    (hf : ∀ m, m < n → Returns m (f ())) : Returns n (advance k >>= f) := by
  intro mem hmem
  by_cases hle : k ≤ mem.length
  · have hadv : advance k mem = .ok ((), mem.drop k) := if_pos hle
    have hbind : (advance k >>= f) mem = f () (mem.drop k) := by
      show ((advance k mem).bind fun x => f x.1 x.2) = _
      rw [hadv]
      rfl
    have hlen : (mem.drop k).length = mem.length - k := List.length_drop
    have hrest := hf (mem.length - k) (by omega) (mem.drop k) hlen.le
    rw [hbind]
    refine ⟨hrest.1, fun b rest h => ?_⟩
    have := hrest.2 b rest h
    omega
  · have hadv : advance k mem = .error .outOfBounds := if_neg hle
    have hbind : (advance k >>= f) mem = .error .outOfBounds := by
      show ((advance k mem).bind fun x => f x.1 x.2) = _
      rw [hadv]
      rfl
    exact returns_of_eq_error hbind (by decide)

lemma returns_look {r : Reader α} (hr : Returns n r) : Returns n (look r) := by
  intro mem hmem
  cases h : r mem with
  | error f =>
    have hlook : look r mem = .error f := congrArg (Except.map _) h
    exact returns_of_eq_error hlook (ne_diverges_of_returns hr hmem h)
  | ok x =>
    have hlook : look r mem = .ok (x.1, mem) := congrArg (Except.map _) h
    exact returns_of_eq_ok hlook (le_refl _)

lemma returns_passWhile (f : UInt8 → Bool) : Returns n (passWhile f) := by
  intro mem _
  induction mem with
  | nil => exact returns_of_eq_error rfl (by decide)
  | cons b mem ih =>
    by_cases hb : f b = true
    · have hpass : passWhile f (b :: mem) = passWhile f mem := if_pos hb
      obtain ⟨hdiv, hlen⟩ := ih (by simp only [List.length_cons] at *; omega)
      rw [hpass]
      exact ⟨hdiv, fun a rest h => (hlen a rest h).trans (Nat.le_succ _)⟩
    · exact returns_of_eq_ok (if_neg hb) (le_refl _)

lemma returns_passIf (f : UInt8 → Bool) : Returns n (passIf f) :=
  returns_bind returns_peek fun _ => returns_ite (returns_advance 1) (returns_pure ())

lemma returns_startsWith (text : List UInt8) : Returns n (startsWith text) := by
  induction text with
  | nil => exact returns_pure true
  | cons c text ih =>
    apply returns_look
    apply returns_bind returns_peek
    intro b
    apply returns_ite
    · exact returns_bind (returns_advance 1) fun _ => ih
    · exact returns_pure false

lemma returns_consumed {r : Reader Unit} (hr : Returns n r) : Returns n (consumed r) := by
  intro mem hmem
  cases h : r mem with
  | error f =>
    have hconsumed : consumed r mem = .error f := congrArg (Except.map _) h
    exact returns_of_eq_error hconsumed (ne_diverges_of_returns hr hmem h)
  | ok x =>
    have hconsumed : consumed r mem = .ok (mem.take (mem.length - x.2.length), x.2) :=
      congrArg (Except.map _) h
    exact returns_of_eq_ok hconsumed ((hr mem hmem).2 x.1 x.2 h)

lemma returns_andThen {r : Reader (Option α)} {f : α → Reader (Option β)} (hr : Returns n r)
    (hf : ∀ a, Returns n (f a)) : Returns n (andThen r f) := by
  apply returns_bind hr
  intro a
  cases a with
  | none => exact returns_pure none
  | some a => exact hf a

end Returns

end Reader

end IpncRdk.Lib
