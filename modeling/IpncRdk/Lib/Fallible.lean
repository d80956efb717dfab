import Mathlib.Logic.Basic

/-!
# Programs that may give up

A program over a state that gives a value or gives up. It leaves a state behind either way, so that
what it has done before it gives up stays done.

* `exec` — what a program gives from a state;
* `Ends` — from a state, a program ends with `Q` if it gives a value and with `R` if it gives up;
* a rule of `Ends` for each way to put programs together.
-/

namespace IpncRdk.Lib

/-- A program over states `σ` that gives an `α` or gives up. -/
abbrev Fallible (σ α : Type) : Type := OptionT (StateM σ) α

namespace Fallible

variable {σ α β : Type}

/-- The value, `none` where the program gives up, and the state left behind. -/
def exec (prog : Fallible σ α) (s : σ) : Option α × σ := prog.run.run s

/-- A program that gives up unless `ok`. -/
def check (ok : Bool) : Fallible σ Unit := if ok then pure () else failure

/-- From `s`, the program ends with `Q` where it gives a value and with `R` where it gives up. -/
def Ends (prog : Fallible σ α) (s : σ) (Q : α → σ → Prop) (R : σ → Prop) : Prop :=
  match exec prog s with
  | (some a, s') => Q a s'
  | (none, s') => R s'

section Rules
variable {prog : Fallible σ α} {s : σ} {Q Q' : α → σ → Prop} {R R' : σ → Prop}

lemma exec_bind (prog : Fallible σ α) (next : α → Fallible σ β) (s : σ) :
    exec (prog >>= next) s = match exec prog s with
      | (some a, s') => exec (next a) s'
      | (none, s') => (none, s') := by
  unfold exec
  rw [OptionT.run_bind, Option.elimM, StateT.run_bind]
  rcases prog.run.run s with ⟨_ | a, s'⟩ <;> rfl

lemma ends_pure (a : α) : Ends (pure a) s Q R ↔ Q a s := Iff.rfl

lemma ends_bind {next : α → Fallible σ β} {Q : β → σ → Prop} :
    Ends (prog >>= next) s Q R ↔ Ends prog s (fun a s' => Ends (next a) s' Q R) R := by
  unfold Ends
  rw [exec_bind]
  rcases exec prog s with ⟨_ | a, s'⟩ <;> rfl

/-- What gives up ends the whole program. -/
lemma ends_check {ok : Bool} {Q : Unit → σ → Prop} (hok : ok = true → Q () s)
    (hfail : ok = false → R s) : Ends (check ok) s Q R := by
  cases ok with
  | true => exact hok rfl
  | false => exact hfail rfl

lemma Ends.mono (h : Ends prog s Q R) (hQ : ∀ a s', Q a s' → Q' a s')
    (hR : ∀ s', R s' → R' s') : Ends prog s Q' R' := by
  unfold Ends at h ⊢
  rcases hexec : exec prog s with ⟨_ | a, s'⟩
  · rw [hexec] at h
    exact hR s' h
  · rw [hexec] at h
    exact hQ a s' h

end Rules

end Fallible

end IpncRdk.Lib
