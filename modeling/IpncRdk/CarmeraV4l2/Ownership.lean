import IpncRdk.Lib.Run
import Mathlib.Data.Finset.Basic
import Mathlib.Data.Finset.Range

/-!
# `carmera_v4l2.c`: who owns a picture buffer

A buffer belongs to the driver from `VIDIOC_QBUF` to the `VIDIOC_DQBUF` that returns it.
`save_Picture` takes two pictures, and queues the buffer of the second one again before it hands it
to its callback.

* `initCameral` — the buffers that are queued at the start;
* `savePicture` — a call;
* `Owned` — the callback reads a buffer that the driver does not own, and all are queued after it;
* `owned_iff` — exactly the runs in which that is so.
-/

namespace IpncRdk.CarmeraV4l2

open Lib

/-- The loop of `Init_Cameral` that queues the `count` buffers; the result of `VIDIOC_QBUF` is not
looked at. -/
def initCameral (count : ℕ) (qbuf : ℕ → Bool) : Finset ℕ :=
  (List.range count).foldl (fun queued i => if qbuf i then insert i queued else queued) ∅

/-- How the calls of the driver end in a round of `save_Picture`: the buffer that `VIDIOC_DQBUF`
returns, if it does not fail, and whether `VIDIOC_QBUF` succeeds. -/
structure Round where
  dqbuf : Option ℕ
  qbuf : Bool

/-- A call of `save_Picture`: its rounds, by the value of `count`, and whether it has a callback. -/
structure Call where
  round : ℕ → Round
  callBack : Bool

/-- What the loop of `save_Picture` leaves: whether it ran to its end, the buffers that are queued,
and `buf.index`. -/
structure Loop where
  passed : Bool
  queued : Finset ℕ
  index : ℕ

/-- The loop of `save_Picture`; the driver returns no buffer that is not queued. -/
def rounds (c : Call) : ℕ → Finset ℕ → ℕ → Option Loop
  | 0, queued, index => some ⟨true, queued, index⟩
  | count + 1, queued, index =>
    match (c.round count).dqbuf with
    -- `dequeue fail`
    | none => some ⟨false, queued, index⟩
    | some i =>
      if i ∈ queued then
        if (c.round count).qbuf then rounds c count (insert i (queued.erase i)) i
        -- `enqueue fail`
        else some ⟨false, queued.erase i, i⟩
      else none

/-- A call: the buffers that are queued after it, and the one that the callback read. -/
structure Outcome where
  queued : Finset ℕ
  read : Option ℕ

/-- `save_Picture`, which returns 0 on every path. The buffers do not change hands from the loop
to the return. -/
def savePicture (queued : Finset ℕ) (c : Call) : Option Outcome :=
  (rounds c 2 queued 0).map fun l =>
    ⟨l.queued, if l.passed && c.callBack then some l.index else none⟩

/-- The buffers that are queued after a call. -/
def step (queued : Finset ℕ) (c : Call) : Option (Finset ℕ) :=
  (savePicture queued c).map Outcome.queued

/-- The buffer that is read has been dequeued and not queued again, and all buffers are queued on
return. -/
def Owned (count : ℕ) (queued : Finset ℕ) (c : Call) : Prop :=
  ∀ o, savePicture queued c = some o →
    (∀ i, o.read = some i → i ∉ o.queued) ∧ o.queued = Finset.range count

/-- No `VIDIOC_QBUF` of the call fails, and a `VIDIOC_DQBUF` does or there is no callback. -/
def Keeps (c : Call) : ℕ → Prop
  | 0 => c.callBack = false
  | count + 1 =>
    (c.round count).dqbuf = none ∨ ((c.round count).qbuf = true ∧ Keeps c count)

/-! ## The loop -/

section Rounds
variable {c : Call} {count index : ℕ} {queued : Finset ℕ} {l : Loop}

/-- A round: `VIDIOC_DQBUF` fails, or it returns a buffer, which is queued again or, when
`VIDIOC_QBUF` fails, is not. -/
lemma rounds_succ (h : rounds c (count + 1) queued index = some l) :
    ((c.round count).dqbuf = none ∧ l = ⟨false, queued, index⟩) ∨
    ∃ i ∈ queued, (c.round count).dqbuf = some i ∧
      (((c.round count).qbuf = true ∧ rounds c count queued i = some l) ∨
        ((c.round count).qbuf = false ∧ l = ⟨false, queued.erase i, i⟩)) := by
  rw [rounds] at h
  cases hdq : (c.round count).dqbuf with
  | none =>
    rw [hdq] at h
    exact Or.inl ⟨rfl, (Option.some.inj h).symm⟩
  | some i =>
    rw [hdq] at h
    dsimp only at h
    split_ifs at h with hmem hq
    · rw [Finset.insert_erase hmem] at h
      exact Or.inr ⟨i, hmem, rfl, Or.inl ⟨hq, h⟩⟩
    · exact Or.inr ⟨i, hmem, rfl, Or.inr ⟨Bool.eq_false_iff.mpr hq, (Option.some.inj h).symm⟩⟩

/-- A call queues no buffer that was not queued. -/
lemma queued_subset (h : rounds c count queued index = some l) : l.queued ⊆ queued := by
  induction count generalizing index with
  | zero =>
    cases h
    exact Finset.Subset.refl _
  | succ count ih =>
    rcases rounds_succ h with ⟨-, rfl⟩ | ⟨i, -, -, ⟨-, h⟩ | ⟨-, rfl⟩⟩
    · exact Finset.Subset.refl _
    · exact ih h
    · exact Finset.erase_subset i queued

/-- The buffer of the last round is queued when the loop ends. -/
lemma index_mem (h : rounds c count queued index = some l) (hpassed : l.passed = true)
    (hindex : 0 < count ∨ index ∈ queued) : l.index ∈ l.queued := by
  induction count generalizing index with
  | zero =>
    cases h
    exact hindex.resolve_left (lt_irrefl 0)
  | succ count ih =>
    rcases rounds_succ h with ⟨-, rfl⟩ | ⟨i, hmem, -, ⟨-, h⟩ | ⟨-, rfl⟩⟩
    · cases hpassed
    · exact ih h (Or.inr hmem)
    · cases hpassed

/-- The calls after which the same buffers are queued and nothing is read. -/
lemma keeps_iff (h : rounds c count queued index = some l) :
    Keeps c count ↔ l.queued = queued ∧ (l.passed && c.callBack) = false := by
  induction count generalizing index with
  | zero =>
    cases h
    simp [Keeps]
  | succ count ih =>
    rw [Keeps]
    rcases rounds_succ h with ⟨hdq, rfl⟩ | ⟨i, hmem, hdq, ⟨hq, h⟩ | ⟨hq, rfl⟩⟩
    · exact iff_of_true (Or.inl hdq) ⟨rfl, rfl⟩
    · rw [hdq, hq, ih h]
      simp
    · -- the buffer is missing from now on
      refine iff_of_false (by simp [hdq, hq]) fun heq => ?_
      exact Finset.erase_eq_self.mp heq.1 hmem

end Rounds

/-! ## Calls -/

section Calls
variable {count : ℕ} {queued queued' : Finset ℕ} {c : Call}

lemma step_eq_some (h : step queued c = some queued') :
    ∃ l, rounds c 2 queued 0 = some l ∧ l.queued = queued' := by
  unfold step savePicture at h
  rw [Option.map_map, Option.map_eq_some_iff] at h
  exact h

/-- Where all buffers are queued, the calls that keep them are the right ones. -/
lemma owned_iff_keeps (h : step (Finset.range count) c = some queued') :
    Owned count (Finset.range count) c ↔ Keeps c 2 := by
  obtain ⟨l, hl, -⟩ := step_eq_some h
  unfold Owned savePicture
  rw [hl, keeps_iff hl]
  constructor
  · intro hgood
    obtain ⟨hread, hqueued⟩ := hgood _ rfl
    -- a callback would read the buffer of the last round
    refine ⟨hqueued, Bool.eq_false_iff.mpr fun hcall => ?_⟩
    rw [Bool.and_eq_true] at hcall
    exact hread l.index (by simp [hcall.1, hcall.2])
      (index_mem hl hcall.1 (Or.inl Nat.two_pos))
  · rintro ⟨hqueued, hcall⟩ o ho
    cases ho
    refine ⟨fun i hi => ?_, hqueued⟩
    dsimp only at hi
    rw [hcall] at hi
    cases hi

/-- A buffer that is not queued before a call is not queued after it. -/
lemma not_owned_of_ssubset (hsub : queued ⊂ Finset.range count)
    (h : step queued c = some queued') : ¬ Owned count queued c := by
  obtain ⟨l, hl, -⟩ := step_eq_some h
  intro hgood
  unfold Owned savePicture at hgood
  rw [hl] at hgood
  have hqueued : l.queued = Finset.range count := (hgood _ rfl).2
  exact hsub.2 (hqueued ▸ queued_subset hl)

lemma everyStep_owned_iff {calls : List Call}
    (h : run step (Finset.range count) calls = some queued) :
    EveryStep step (Owned count) (Finset.range count) calls ↔ ∀ c ∈ calls, Keeps c 2 := by
  induction calls with
  | nil => simp [EveryStep]
  | cons c calls ih =>
    obtain ⟨queued', hstep, hrest⟩ := run_cons_eq_some.mp h
    rw [EveryStep, List.forall_mem_cons, owned_iff_keeps hstep]
    refine and_congr_right fun hkeeps => ?_
    obtain ⟨l, hl, rfl⟩ := step_eq_some hstep
    have hsame := ((keeps_iff hl).mp hkeeps).1
    rw [hsame] at hrest hstep
    rw [← ih hrest]
    refine ⟨fun hall => hall _ hstep, fun hall queued' hnext => ?_⟩
    rw [← Option.some.inj (hstep.symm.trans hnext)]
    exact hall

end Calls

/-! ## The start -/

section Start

lemma mem_initCameral {count : ℕ} {qbuf : ℕ → Bool} {i : ℕ} :
    i ∈ initCameral count qbuf ↔ i < count ∧ qbuf i = true := by
  unfold initCameral
  induction count with
  | zero => simp
  | succ count ih =>
    rw [List.range_succ, List.foldl_append, List.foldl_cons, List.foldl_nil]
    split_ifs with hq
    · rw [Finset.mem_insert, ih]
      constructor
      · rintro (rfl | ⟨hlt, hi⟩)
        · exact ⟨Nat.lt_succ_self i, hq⟩
        · exact ⟨by omega, hi⟩
      · rintro ⟨hlt, hi⟩
        rcases Nat.lt_succ_iff_lt_or_eq.mp hlt with hlt | rfl
        · exact Or.inr ⟨hlt, hi⟩
        · exact Or.inl rfl
    · rw [ih]
      refine ⟨fun ⟨hlt, hi⟩ => ⟨by omega, hi⟩, fun ⟨hlt, hi⟩ => ⟨?_, hi⟩⟩
      have hne : i ≠ count := fun heq => hq (heq ▸ hi)
      omega

lemma initCameral_subset (count : ℕ) (qbuf : ℕ → Bool) :
    initCameral count qbuf ⊆ Finset.range count := fun _ hi =>
  Finset.mem_range.mpr (mem_initCameral.mp hi).1

lemma initCameral_eq_iff {count : ℕ} {qbuf : ℕ → Bool} :
    initCameral count qbuf = Finset.range count ↔ ∀ i < count, qbuf i = true := by
  constructor
  · intro h i hi
    have hmem : i ∈ initCameral count qbuf := h ▸ Finset.mem_range.mpr hi
    exact (mem_initCameral.mp hmem).2
  · intro h
    ext i
    rw [mem_initCameral, Finset.mem_range]
    exact ⟨And.left, fun hi => ⟨hi, h i hi⟩⟩

end Start

/-! ## The runs in which the buffers are owned -/

theorem owned_iff (count : ℕ) (qbuf : ℕ → Bool) (calls : List Call) (queued : Finset ℕ)
    (h : run step (initCameral count qbuf) calls = some queued) :
    EveryStep step (Owned count) (initCameral count qbuf) calls ↔
      calls = [] ∨ ((∀ i < count, qbuf i = true) ∧ ∀ c ∈ calls, Keeps c 2) := by
  cases calls with
  | nil => simp [EveryStep]
  | cons c calls =>
    rw [← initCameral_eq_iff]
    by_cases hinit : initCameral count qbuf = Finset.range count
    · rw [hinit] at h
      rw [hinit, everyStep_owned_iff h]
      simp
    · obtain ⟨queued', hstep, -⟩ := run_cons_eq_some.mp h
      have hsub : initCameral count qbuf ⊂ Finset.range count :=
        (initCameral_subset count qbuf).ssubset_of_ne hinit
      refine iff_of_false (fun hall => not_owned_of_ssubset hsub hstep hall.1) ?_
      rintro (hnil | ⟨heq, -⟩)
      · cases hnil
      · exact hinit heq

/-- Two rounds that succeed: both take the first of the buffers. -/
def twoPictures : Call := ⟨fun _ => ⟨some 0, true⟩, true⟩

/-- A call whose first `VIDIOC_DQBUF` fails. -/
def noPicture : Call := ⟨fun _ => ⟨none, true⟩, true⟩

theorem noPicture_owned :
    EveryStep step (Owned 4) (initCameral 4 fun _ => true) [noPicture] :=
  (owned_iff 4 (fun _ => true) [noPicture] (Finset.range 4) (by decide)).mpr
    (Or.inr ⟨fun _ _ => rfl, fun c hc => by
      rw [List.mem_singleton.mp hc]
      exact Or.inl rfl⟩)

/-- The callback reads a buffer that has been queued again. -/
theorem twoPictures_not_owned : ∃ queued,
    run step (initCameral 4 fun _ => true) [twoPictures] = some queued ∧
      ¬ EveryStep step (Owned 4) (initCameral 4 fun _ => true) [twoPictures] := by
  refine ⟨Finset.range 4, by decide, fun h => ?_⟩
  have hread : 0 ∉ initCameral 4 fun _ => true := by
    have hqueued : (savePicture (initCameral 4 fun _ => true) twoPictures).map Outcome.queued =
        some (initCameral 4 fun _ => true) := by decide
    obtain ⟨o, ho, hsame⟩ := Option.map_eq_some_iff.mp hqueued
    have hindex : (savePicture (initCameral 4 fun _ => true) twoPictures).map Outcome.read =
        some (some 0) := by decide
    rw [ho, Option.map_some, Option.some.injEq] at hindex
    exact hsame ▸ (h.1 o ho).1 0 hindex
  exact absurd hread (by decide)

end IpncRdk.CarmeraV4l2
