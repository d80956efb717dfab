import Mathlib.Data.Finset.Card
import Mathlib.Data.List.Nodup
import Mathlib.Data.List.Perm.Basic

/-!
# Things that are at exactly one place

A system of places holds things: a queue, a hand, a heap of released things. `ids` lists what is
at each place.

* `Placed` — everything in `S`, and nothing else, is at exactly one place, and is there once;
* `Placed.move` — a thing that goes from one place to another;
* `Placed.insert` — a thing that was nowhere;
* `Placed.move_toList`, `Placed.insert_toList` — the same for what may be there or not;
* `Placed.length_lt_card` — where one of finitely many things is missing there is room.
-/

namespace IpncRdk.Lib

variable {ι α : Type*}

/-- Everything in `S`, and nothing else, is at exactly one place, and is there once. -/
structure Placed (ids : ι → List α) (S : α → Prop) : Prop where
  nodup : ∀ p, (ids p).Nodup
  unique : ∀ p q a, a ∈ ids p → a ∈ ids q → p = q
  mem_iff : ∀ a, S a ↔ ∃ p, a ∈ ids p

namespace Placed

variable {ids ids' : ι → List α} {S : α → Prop} {p q : ι} {a : α}

lemma notMem (h : Placed ids S) (hp : a ∈ ids p) (hpq : p ≠ q) : a ∉ ids q :=
  fun hq => hpq (h.unique p q a hp hq)

lemma congr {S' : α → Prop} (h : Placed ids S) (hS : ∀ a, S a ↔ S' a) : Placed ids S' :=
  ⟨h.nodup, h.unique, fun a => (hS a).symm.trans (h.mem_iff a)⟩

/-- The things at a place, in another order. -/
lemma of_perm (h : Placed ids S) (hperm : ∀ r, (ids' r).Perm (ids r)) : Placed ids' S where
  nodup r := (hperm r).nodup_iff.mpr (h.nodup r)
  unique r t b hr ht := h.unique r t b ((hperm r).mem_iff.mp hr) ((hperm t).mem_iff.mp ht)
  mem_iff b := by
    rw [h.mem_iff b]
    exact exists_congr fun r => (hperm r).mem_iff.symm

/-- A thing goes from one place to another. -/
lemma move (h : Placed ids S) (hpq : p ≠ q) (hp : (ids p).Perm (a :: ids' p))
    (hq : (ids' q).Perm (a :: ids q)) (hr : ∀ r, r ≠ p → r ≠ q → ids' r = ids r) :
    Placed ids' S := by
  have hmem : a ∈ ids p := hp.mem_iff.mpr List.mem_cons_self
  have hnotq : a ∉ ids q := h.notMem hmem hpq
  have hnodup : (a :: ids' p).Nodup := hp.nodup_iff.mp (h.nodup p)
  -- what is at a place now was there before, but for `a`, which is at `q`
  have hback : ∀ r b, b ∈ ids' r → (b = a ∧ r = q) ∨ (b ≠ a ∧ b ∈ ids r) := by
    intro r b hb
    by_cases hrp : r = p
    · subst hrp
      refine .inr ⟨?_, hp.mem_iff.mpr (List.mem_cons_of_mem a hb)⟩
      rintro rfl
      exact (List.nodup_cons.mp hnodup).1 hb
    by_cases hrq : r = q
    · subst hrq
      rcases List.mem_cons.mp (hq.mem_iff.mp hb) with rfl | hold
      · exact .inl ⟨rfl, rfl⟩
      · exact .inr ⟨fun heq => hnotq (heq ▸ hold), hold⟩
    · rw [hr r hrp hrq] at hb
      exact .inr ⟨fun heq => hrp (h.unique r p a (heq ▸ hb) hmem), hb⟩
  refine ⟨fun r => ?_, fun r t b hbr hbt => ?_, fun b => ?_⟩
  · by_cases hrp : r = p
    · exact hrp ▸ (List.nodup_cons.mp hnodup).2
    by_cases hrq : r = q
    · exact hrq ▸ hq.nodup_iff.mpr (List.nodup_cons.mpr ⟨hnotq, h.nodup q⟩)
    · exact hr r hrp hrq ▸ h.nodup r
  · rcases hback r b hbr with ⟨hba, hrq⟩ | ⟨hne, hold⟩ <;>
      rcases hback t b hbt with ⟨hba', htq⟩ | ⟨hne', hold'⟩
    · rw [hrq, htq]
    · exact absurd hba hne'
    · exact absurd hba' hne
    · exact h.unique r t b hold hold'
  · rw [h.mem_iff b]
    constructor
    · rintro ⟨r, hb⟩
      by_cases hba : b = a
      · exact ⟨q, hq.mem_iff.mpr (hba ▸ List.mem_cons_self)⟩
      by_cases hrp : r = p
      · subst hrp
        exact ⟨r, (List.mem_cons.mp (hp.mem_iff.mp hb)).resolve_left hba⟩
      by_cases hrq : r = q
      · subst hrq
        exact ⟨r, hq.mem_iff.mpr (List.mem_cons_of_mem a hb)⟩
      · exact ⟨r, hr r hrp hrq ▸ hb⟩
    · rintro ⟨r, hb⟩
      rcases hback r b hb with ⟨rfl, -⟩ | ⟨-, hold⟩
      · exact ⟨p, hmem⟩
      · exact ⟨r, hold⟩

/-- A thing that was nowhere comes to a place. -/
lemma insert (h : Placed ids S) (ha : ¬ S a) (hq : (ids' q).Perm (a :: ids q))
    (hr : ∀ r, r ≠ q → ids' r = ids r) : Placed ids' fun b => b = a ∨ S b := by
  have hnot : ∀ r, a ∉ ids r := fun r hmem => ha ((h.mem_iff a).mpr ⟨r, hmem⟩)
  have hback : ∀ r b, b ∈ ids' r ↔ (b = a ∧ r = q) ∨ b ∈ ids r := by
    intro r b
    by_cases hrq : r = q
    · subst hrq
      rw [hq.mem_iff, List.mem_cons]
      simp
    · rw [hr r hrq]
      simp [hrq]
  refine ⟨fun r => ?_, fun r t b hbr hbt => ?_, fun b => ?_⟩
  · by_cases hrq : r = q
    · exact hrq ▸ hq.nodup_iff.mpr (List.nodup_cons.mpr ⟨hnot q, h.nodup q⟩)
    · exact hr r hrq ▸ h.nodup r
  · rcases (hback r b).mp hbr with ⟨hba, hrq⟩ | hold <;>
      rcases (hback t b).mp hbt with ⟨hba', htq⟩ | hold'
    · rw [hrq, htq]
    · exact absurd (hba ▸ hold') (hnot t)
    · exact absurd (hba' ▸ hold) (hnot r)
    · exact h.unique r t b hold hold'
  · rw [h.mem_iff b]
    constructor
    · rintro (rfl | ⟨r, hb⟩)
      · exact ⟨q, (hback q b).mpr (.inl ⟨rfl, rfl⟩)⟩
      · exact ⟨r, (hback r b).mpr (.inr hb)⟩
    · rintro ⟨r, hb⟩
      rcases (hback r b).mp hb with ⟨rfl, -⟩ | hold
      · exact .inl rfl
      · exact .inr ⟨r, hold⟩

/-- What there may be goes from one place to another. -/
lemma move_toList {o : Option α} (h : Placed ids S) (hpq : p ≠ q)
    (hp : (ids p).Perm (o.toList ++ ids' p)) (hq : (ids' q).Perm (o.toList ++ ids q))
    (hr : ∀ r, r ≠ p → r ≠ q → ids' r = ids r) : Placed ids' S := by
  cases o with
  | none =>
    refine h.of_perm fun r => ?_
    by_cases hrp : r = p
    · exact hrp ▸ hp.symm
    by_cases hrq : r = q
    · exact hrq ▸ hq
    · exact List.Perm.of_eq (hr r hrp hrq)
  | some a => exact h.move hpq hp hq hr

/-- What there may be, and was nowhere, comes to a place. -/
lemma insert_toList {o : Option α} (h : Placed ids S) (ho : ∀ a ∈ o.toList, ¬ S a)
    (hq : (ids' q).Perm (o.toList ++ ids q)) (hr : ∀ r, r ≠ q → ids' r = ids r) :
    Placed ids' fun a => a ∈ o.toList ∨ S a := by
  cases o with
  | none =>
    refine (h.of_perm fun r => ?_).congr fun a => by simp
    by_cases hrq : r = q
    · exact hrq ▸ hq
    · exact List.Perm.of_eq (hr r hrq)
  | some a => exact (h.insert (ho a List.mem_cons_self) hq hr).congr fun b => by simp

/-- A place that lacks one of finitely many things holds fewer than all of them. -/
lemma length_lt_card {F : Finset α} (h : Placed ids S) (hF : ∀ a, S a → a ∈ F) (hp : a ∈ ids p)
    (hpq : p ≠ q) : (ids q).length < F.card := by
  classical
  have ha : a ∈ F := hF a ((h.mem_iff a).mpr ⟨p, hp⟩)
  have hsub : (ids q).toFinset ⊆ F.erase a := by
    intro b hb
    have hbq : b ∈ ids q := List.mem_toFinset.mp hb
    refine Finset.mem_erase.mpr ⟨?_, hF b ((h.mem_iff b).mpr ⟨q, hbq⟩)⟩
    rintro rfl
    exact h.notMem hp hpq hbq
  calc (ids q).length = (ids q).toFinset.card := (List.toFinset_card_of_nodup (h.nodup q)).symm
    _ ≤ (F.erase a).card := Finset.card_le_card hsub
    _ < F.card := Finset.card_erase_lt_of_mem ha

end Placed

end IpncRdk.Lib
