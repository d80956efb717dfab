import Mathlib.Data.Option.Basic
import Mathlib.Data.List.Basic

/-!
# Runs of a partial event system

A system is a step function `σ → ε → Option σ`: the state after an event, `none` where the
event is not enabled (or has no defined outcome). A run is a list of events.

* `run` — the state a list of events leads to;
* `EveryStep` — a condition on the state before each step and on its event;
* `Always` — a property of every state a run passes through;
* the invariant rules that lead from one step to whole runs.
-/

namespace IpncRdk.Lib

variable {σ ε : Type*}

/-- The state a list of events leads to. -/
def run (step : σ → ε → Option σ) : σ → List ε → Option σ
  | s, [] => some s
  | s, e :: es => (step s e).bind fun s' => run step s' es

/-- `Q` holds of every step of a run: of the state before it and of its event. -/
def EveryStep (step : σ → ε → Option σ) (Q : σ → ε → Prop) : σ → List ε → Prop
  | _, [] => True
  | s, e :: es => Q s e ∧ ∀ s', step s e = some s' → EveryStep step Q s' es

/-- `P` holds of every state a run passes through, its first and its last included. -/
def Always (step : σ → ε → Option σ) (P : σ → Prop) : σ → List ε → Prop
  | s, [] => P s
  | s, e :: es => P s ∧ ∀ s', step s e = some s' → Always step P s' es

/-- A condition that can be decided of a step can be decided of a run. -/
instance EveryStep.decidable (step : σ → ε → Option σ) (Q : σ → ε → Prop)
    [∀ s e, Decidable (Q s e)] : (s : σ) → (es : List ε) → Decidable (EveryStep step Q s es)
  | _, [] => isTrue trivial
  | s, e :: es =>
    match h : step s e with
    | none => decidable_of_iff (Q s e) ⟨fun hQ => ⟨hQ, fun s' he => by simp [h] at he⟩, And.left⟩
    | some s' =>
      have := EveryStep.decidable step Q s' es
      decidable_of_iff (Q s e ∧ EveryStep step Q s' es)
        ⟨fun hQ => ⟨hQ.1, fun t he => Option.some.inj (h.symm.trans he) ▸ hQ.2⟩,
          fun hQ => ⟨hQ.1, hQ.2 s' h⟩⟩

section Rules
variable {step : σ → ε → Option σ}

@[simp] lemma run_nil (s : σ) : run step s [] = some s := rfl

lemma run_cons (s : σ) (e : ε) (es : List ε) :
    run step s (e :: es) = (step s e).bind fun s' => run step s' es := rfl

lemma run_cons_eq_some {s t : σ} {e : ε} {es : List ε} :
    run step s (e :: es) = some t ↔ ∃ s', step s e = some s' ∧ run step s' es = some t := by
  rw [run_cons, Option.bind_eq_some_iff]

/-- A run in two parts. -/
lemma run_append (s : σ) (es es' : List ε) :
    run step s (es ++ es') = (run step s es).bind fun t => run step t es' := by
  induction es generalizing s with
  | nil => rfl
  | cons e es ih =>
    rw [List.cons_append, run_cons, run_cons, Option.bind_assoc]
    exact congrArg _ (funext ih)

/-- What holds of every state of a run holds of its last. -/
lemma of_always {P : σ → Prop} {es : List ε} {s t : σ} (h : Always step P s es)
    (hrun : run step s es = some t) : P t := by
  induction es generalizing s with
  | nil =>
    rw [run_nil, Option.some.injEq] at hrun
    exact hrun ▸ h
  | cons e es ih =>
    obtain ⟨s', he, hrest⟩ := run_cons_eq_some.mp hrun
    exact ih (h.2 s' he) hrest

/-- A system whose events are always enabled runs through. -/
lemma run_of_total (htotal : ∀ s e, ∃ s', step s e = some s') (es : List ε) {s : σ} :
    ∃ t, run step s es = some t := by
  induction es generalizing s with
  | nil => exact ⟨s, rfl⟩
  | cons e es ih =>
    obtain ⟨s', he⟩ := htotal s e
    obtain ⟨t, ht⟩ := ih (s := s')
    exact ⟨t, run_cons_eq_some.mpr ⟨s', he, ht⟩⟩

/-- A condition on every step, by the events before the step. -/
lemma everyStep_iff_forall {Q : σ → ε → Prop} {es : List ε} {s : σ} :
    EveryStep step Q s es ↔
      ∀ before e after t, es = before ++ e :: after → run step s before = some t → Q t e := by
  induction es generalizing s with
  | nil =>
    refine ⟨fun _ before e after t hsplit _ => ?_, fun _ => trivial⟩
    simp at hsplit
  | cons e es ih =>
    constructor
    · rintro ⟨hQ, hrest⟩ before e' after t hsplit hrun
      cases before with
      | nil =>
        obtain ⟨rfl, -⟩ := List.cons.inj hsplit
        rw [run_nil, Option.some.injEq] at hrun
        exact hrun ▸ hQ
      | cons _ before =>
        obtain ⟨rfl, hrest'⟩ := List.cons.inj hsplit
        obtain ⟨s', he, hrun⟩ := run_cons_eq_some.mp hrun
        exact ih.mp (hrest s' he) before e' after t hrest' hrun
    · intro h
      refine ⟨h [] e es s rfl rfl, fun s' he => ih.mpr fun before e' after t hsplit hrun => ?_⟩
      exact h (e :: before) e' after t (by rw [hsplit]; rfl)
        (run_cons_eq_some.mpr ⟨s', he, hrun⟩)

/-- Where an invariant makes two conditions on a step the same, they are the same on a
whole run. -/
theorem everyStep_iff_of_invariant {I : σ → Prop} {Q C : σ → ε → Prop}
    (hiff : ∀ s e, I s → (Q s e ↔ C s e))
    (hstep : ∀ s e s', I s → C s e → step s e = some s' → I s') (es : List ε) {s : σ}
    (hs : I s) : EveryStep step Q s es ↔ EveryStep step C s es := by
  induction es generalizing s with
  | nil => exact Iff.rfl
  | cons e es ih =>
    constructor
    · rintro ⟨hQ, hrest⟩
      have hC := (hiff s e hs).mp hQ
      exact ⟨hC, fun s' he => (ih (hstep s e s' hs hC he)).mp (hrest s' he)⟩
    · rintro ⟨hC, hrest⟩
      exact ⟨(hiff s e hs).mpr hC, fun s' he => (ih (hstep s e s' hs hC he)).mpr (hrest s' he)⟩

/-- A condition on the steps that an invariant turns into another. -/
theorem everyStep_imp_of_invariant {I : σ → Prop} {C Q : σ → ε → Prop}
    (hQ : ∀ s e, I s → C s e → Q s e)
    (hstep : ∀ s e s', I s → C s e → step s e = some s' → I s') (es : List ε) {s : σ} (hs : I s)
    (h : EveryStep step C s es) : EveryStep step Q s es := by
  induction es generalizing s with
  | nil => trivial
  | cons e es ih =>
    exact ⟨hQ s e hs h.1, fun s' he => ih (hstep s e s' hs h.1 he) (h.2 s' he)⟩

/-- A condition that an invariant of all steps implies holds of every step of a run. -/
theorem everyStep_of_invariant {I : σ → Prop} {Q : σ → ε → Prop} (hQ : ∀ s e, I s → Q s e)
    (hstep : ∀ s e s', I s → step s e = some s' → I s') (es : List ε) {s : σ} (hs : I s) :
    EveryStep step Q s es := by
  induction es generalizing s with
  | nil => trivial
  | cons e es ih => exact ⟨hQ s e hs, fun s' he => ih (hstep s e s' hs he)⟩

/-- A property that an invariant of all steps implies holds of every state of a run. -/
theorem always_of_invariant {I P : σ → Prop} (hP : ∀ s, I s → P s)
    (hstep : ∀ s e s', I s → step s e = some s' → I s') (es : List ε) {s : σ} (hs : I s) :
    Always step P s es := by
  induction es generalizing s with
  | nil => exact hP s hs
  | cons e es ih => exact ⟨hP s hs, fun s' he => ih (hstep s e s' hs he)⟩

/-- A property that an invariant of the steps that meet a condition implies holds of every state
of a run of such steps. -/
theorem always_of_everyStep {I P : σ → Prop} {C : σ → ε → Prop} (hP : ∀ s, I s → P s)
    (hstep : ∀ s e s', I s → C s e → step s e = some s' → I s') (es : List ε) {s : σ} (hs : I s)
    (h : EveryStep step C s es) : Always step P s es := by
  induction es generalizing s with
  | nil => exact hP s hs
  | cons e es ih => exact ⟨hP s hs, fun s' he => ih (hstep s e s' hs h.1 he) (h.2 s' he)⟩

/-- What a property of all states of a run says of its steps: a step that does not meet the
condition breaks the property at once. -/
theorem everyStep_of_always {I P : σ → Prop} {C : σ → ε → Prop}
    (hstep : ∀ s e s', I s → C s e → P s' → step s e = some s' → I s')
    (hbad : ∀ s e, I s → ¬ C s e → ∃ s', step s e = some s' ∧ ¬ P s') (es : List ε) {s : σ}
    (hs : I s) (h : Always step P s es) : EveryStep step C s es := by
  induction es generalizing s with
  | nil => trivial
  | cons e es ih =>
    obtain ⟨_, hrest⟩ := h
    have hafter : ∀ s', step s e = some s' → P s' := by
      intro s' he
      have := hrest s' he
      cases es with
      | nil => exact this
      | cons _ _ => exact this.1
    by_cases hC : C s e
    · exact ⟨hC, fun s' he => ih (hstep s e s' hs hC (hafter s' he) he) (hrest s' he)⟩
    · obtain ⟨s', he, hnot⟩ := hbad s e hs hC
      exact absurd (hafter s' he) hnot

/-- A safety property holds along a run exactly when every step meets the condition `C`:
the invariant `I` gives the property and is kept by the steps that meet `C`, and a step that
does not meet it breaks the property at once. -/
theorem always_iff_everyStep {I P : σ → Prop} {C : σ → ε → Prop}
    (hP : ∀ s, I s → P s)
    (hstep : ∀ s e s', I s → C s e → step s e = some s' → I s')
    (hbad : ∀ s e, I s → ¬ C s e → ∃ s', step s e = some s' ∧ ¬ P s') (es : List ε) {s : σ}
    (hs : I s) : Always step P s es ↔ EveryStep step C s es :=
  ⟨everyStep_of_always (fun s e s' hI hC _ => hstep s e s' hI hC) hbad es hs,
    always_of_everyStep hP hstep es hs⟩

end Rules

end IpncRdk.Lib
