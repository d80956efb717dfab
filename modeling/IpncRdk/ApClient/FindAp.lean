import IpncRdk.ApClient.Survey
import Mathlib.Data.List.Rotate

/-!
# `ap_client.c`: the choice of a network

`wifi_find_ap` looks for an entry with the wanted address or name. Where there is none it takes a
hidden network, one whose name is a single blank, and a static counter makes it take another one
at each call.

* `wifiFindAp` — a call: the entry it returns and the counter it leaves;
* `hidden` — the hidden entries of a table;
* `answers` — the results of a sequence of calls;
* `hidden_in_rotation` — the hidden entries are returned in turn.
-/

namespace IpncRdk.ApClient

open Lib

/-- The entry is of a hidden network. -/
def SurveyTable.isHidden (e : SurveyTable) : Bool := e.ssidIs [blank]

/-- What a call is made with: `name` and `bssid`. -/
structure Wanted where
  name : CString
  bssid : Option CString

/-- `bssid && strlen(bssid)` -/
def Wanted.byAddress (w : Wanted) : Option (List UInt8) :=
  match w.bssid with
  | none => none
  | some bssid => if bssid.bytes.length = 0 then none else some bssid.bytes

/-- The last loop of `wifi_find_ap`, from the entry `i` on; `j` hidden entries are counted. -/
def nextHidden (sqHideNum : ℕ) : List SurveyTable → ℕ → ℕ → Option ℕ × ℕ
  | [], _, _ => (none, sqHideNum)
  | e :: st, i, j =>
    if e.isHidden then
      if j = sqHideNum then (some i, sqHideNum + 1) else nextHidden sqHideNum st (i + 1) (j + 1)
    else nextHidden sqHideNum st (i + 1) j

/-- `wifi_find_ap`: the index of the entry it returns, and `sq_hide_num`. -/
def wifiFindAp (st : List SurveyTable) (w : Wanted) (sqHideNum : ℕ) : Option ℕ × ℕ :=
  match w.byAddress with
  -- find mac addr
  | some bssid => (st.findIdx? (·.bssidIs bssid), sqHideNum)
  | none =>
    -- find ssid
    match st.findIdx? (·.ssidIs w.name.bytes) with
    | some i => (some i, sqHideNum)
    | none =>
      -- find hidden ssid; the counter may come from a table with more of them
      let totalHideNum := st.countP (·.isHidden)
      let sqHideNum := if sqHideNum > totalHideNum then 1 else sqHideNum
      nextHidden sqHideNum st 0 1

/-! ## Sequences of calls -/

/-- A call: the table it finds and what it looks for. -/
structure Call where
  st : List SurveyTable
  wanted : Wanted

/-- The results of calls from a value of `sq_hide_num` on. -/
def answers : ℕ → List Call → List (Option ℕ)
  | _, [] => []
  | sqHideNum, c :: cs =>
    let (found, sqHideNum) := wifiFindAp c.st c.wanted sqHideNum
    found :: answers sqHideNum cs

/-- `sq_hide_num` after calls. -/
def sqHideNum (history : List Call) : ℕ :=
  history.foldl (fun sqHideNum c => (wifiFindAp c.st c.wanted sqHideNum).2) 1

/-- The indices of the hidden entries from the index `i` on. -/
def hiddenFrom (st : List SurveyTable) (i : ℕ) : List ℕ :=
  ((st.zipIdx i).filter (·.1.isHidden)).map (·.2)

/-- The indices of the hidden entries. -/
def hidden (st : List SurveyTable) : List ℕ := hiddenFrom st 0

/-- No address is given, and the table has no entry with the wanted name. -/
def Misses (st : List SurveyTable) (w : Wanted) : Prop :=
  w.byAddress = none ∧ ∀ e ∈ st, e.ssidIs w.name.bytes = false

/-! ## The last loop -/

section NextHidden
variable (e : SurveyTable) (st : List SurveyTable) (i : ℕ)

lemma hiddenFrom_cons_of_isHidden (h : e.isHidden = true) :
    hiddenFrom (e :: st) i = i :: hiddenFrom st (i + 1) := by
  unfold hiddenFrom
  rw [List.zipIdx_cons, List.filter_cons, if_pos h, List.map_cons]

lemma hiddenFrom_cons_of_not (h : ¬ e.isHidden = true) :
    hiddenFrom (e :: st) i = hiddenFrom st (i + 1) := by
  unfold hiddenFrom
  rw [List.zipIdx_cons, List.filter_cons, if_neg h]

lemma length_hiddenFrom : (hiddenFrom st i).length = st.countP (·.isHidden) := by
  induction st generalizing i with
  | nil => rfl
  | cons e st ih =>
    by_cases h : e.isHidden = true
    · rw [hiddenFrom_cons_of_isHidden e st i h, List.length_cons, ih, List.countP_cons, if_pos h]
    · rw [hiddenFrom_cons_of_not e st i h, ih, List.countP_cons, if_neg h, Nat.add_zero]

/-- The loop stops at the hidden entry its counter names. -/
lemma nextHidden_eq {sq j : ℕ} (hj : j ≤ sq) {k : ℕ}
    (hk : (hiddenFrom st i)[sq - j]? = some k) : nextHidden sq st i j = (some k, sq + 1) := by
  induction st generalizing i j with
  | nil => cases hk
  | cons e st ih =>
    rw [nextHidden]
    by_cases h : e.isHidden = true
    · rw [hiddenFrom_cons_of_isHidden e st i h] at hk
      rw [if_pos h]
      by_cases hstop : j = sq
      · rw [hstop, Nat.sub_self, List.getElem?_cons_zero, Option.some.injEq] at hk
        rw [if_pos hstop, hk]
      · rw [show sq - j = sq - (j + 1) + 1 by omega, List.getElem?_cons_succ] at hk
        rw [if_neg hstop, ih (i + 1) (by omega) hk]
    · rw [hiddenFrom_cons_of_not e st i h] at hk
      rw [if_neg h, ih (i + 1) hj hk]

/-- The loop only ever counts on. -/
lemma le_nextHidden {sq : ℕ} (j : ℕ) : sq ≤ (nextHidden sq st i j).2 := by
  induction st generalizing i j with
  | nil => exact le_refl sq
  | cons e st ih =>
    rw [nextHidden]
    split_ifs
    · exact Nat.le_succ sq
    · exact ih (i + 1) (j + 1)
    · exact ih (i + 1) j

end NextHidden

/-! ## The counter -/

/-- The counter never falls below 1. -/
lemma one_le_wifiFindAp {st : List SurveyTable} {w : Wanted} {sq : ℕ} (h : 1 ≤ sq) :
    1 ≤ (wifiFindAp st w sq).2 := by
  unfold wifiFindAp
  split
  · exact h
  · split
    · exact h
    · refine le_trans ?_ (le_nextHidden st 0 1)
      split_ifs
      · exact le_refl 1
      · exact h

lemma one_le_sqHideNum (history : List Call) : 1 ≤ sqHideNum history := by
  induction history using List.reverseRecOn with
  | nil => exact le_refl 1
  | append_singleton history c ih =>
    unfold sqHideNum
    rw [List.foldl_append]
    exact one_le_wifiFindAp ih

/-- The place in the rotation of `h` hidden entries that the next call looks at. -/
def place (h sqHideNum : ℕ) : ℕ := if sqHideNum > h then 0 else sqHideNum - 1

section Rotation
variable {st : List SurveyTable} {w : Wanted} {sq : ℕ}

lemma place_lt (hh : 1 ≤ (hidden st).length) (hsq : 1 ≤ sq) :
    place (hidden st).length sq < (hidden st).length := by
  unfold place
  split_ifs <;> omega

/-- A call that finds no wanted entry returns the hidden entry of its place. -/
lemma wifiFindAp_of_misses (hw : Misses st w) (hh : 1 ≤ (hidden st).length) (hsq : 1 ≤ sq) :
    wifiFindAp st w sq =
      ((hidden st)[place (hidden st).length sq]?, place (hidden st).length sq + 2) := by
  have hname : st.findIdx? (·.ssidIs w.name.bytes) = none := by
    rw [List.findIdx?_eq_none_iff]
    exact hw.2
  have hlt := place_lt hh hsq
  unfold wifiFindAp
  rw [hw.1, hname]
  dsimp only
  rw [← length_hiddenFrom st 0, ← hidden.eq_1]
  have hclamped : (if sq > (hidden st).length then 1 else sq) =
      place (hidden st).length sq + 1 := by
    unfold place
    split_ifs <;> omega
  rw [hclamped, List.getElem?_eq_getElem hlt]
  refine nextHidden_eq st 0 (by omega) ?_
  rw [Nat.add_sub_cancel, ← hidden.eq_1, List.getElem?_eq_getElem hlt]

/-- The next call looks at the next place. -/
lemma place_add_two {h r : ℕ} (hr : r < h) : place h (r + 2) = (r + 1) % h := by
  unfold place
  split_ifs with hlast
  · rw [show r + 1 = h by omega, Nat.mod_self]
  · rw [Nat.mod_eq_of_lt (by omega)]
    omega

/-- The results of calls that find no wanted entry. -/
lemma answers_of_misses (hh : 1 ≤ (hidden st).length) {ws : List Wanted}
    (hws : ∀ w ∈ ws, Misses st w) (hsq : 1 ≤ sq) :
    answers sq (ws.map (⟨st, ·⟩)) = (List.range ws.length).map fun k =>
      (hidden st)[(k + place (hidden st).length sq) % (hidden st).length]? := by
  induction ws generalizing sq with
  | nil => rfl
  | cons w ws ih =>
    have hlt := place_lt hh hsq
    -- this call looks at its place, and leaves the next one to the others
    rw [List.map_cons, answers, wifiFindAp_of_misses (hws w List.mem_cons_self) hh hsq]
    dsimp only
    rw [ih (fun w hw => hws w (List.mem_cons_of_mem _ hw)) (by omega), place_add_two hlt,
      List.length_cons, List.range_succ_eq_map, List.map_cons, List.map_map, Nat.zero_add,
      Nat.mod_eq_of_lt hlt]
    refine congrArg _ (List.map_congr_left fun k _ => ?_)
    dsimp only [Function.comp_apply]
    rw [Nat.add_mod_mod, show k.succ + place (hidden st).length sq =
      k + (place (hidden st).length sq + 1) by omega]

end Rotation

/-! ## The rotation -/

/-- After any calls, calls that find no wanted entry in a table with hidden entries all return
one, and as many calls as there are hidden entries return each of them once. -/
theorem hidden_in_rotation (history : List Call) (st : List SurveyTable) (ws : List Wanted)
    (hh : 1 ≤ (hidden st).length) (hws : ∀ w ∈ ws, Misses st w) :
    (∀ found ∈ answers (sqHideNum history) (ws.map (⟨st, ·⟩)), found ≠ none) ∧
    (ws.length = (hidden st).length →
      (answers (sqHideNum history) (ws.map (⟨st, ·⟩))).Perm ((hidden st).map some)) := by
  have hsq := one_le_sqHideNum history
  rw [answers_of_misses hh hws hsq]
  constructor
  · intro found hfound
    obtain ⟨k, -, rfl⟩ := List.mem_map.mp hfound
    rw [List.getElem?_eq_getElem (Nat.mod_lt _ hh)]
    exact Option.some_ne_none _
  · intro hlen
    rw [hlen]
    have hrotate : (List.range (hidden st).length).map (fun k =>
        (hidden st)[(k + place (hidden st).length (sqHideNum history)) % (hidden st).length]?) =
        ((hidden st).rotate (place (hidden st).length (sqHideNum history))).map some := by
      refine List.ext_getElem (by simp) fun k hk hk' => ?_
      rw [List.getElem_map, List.getElem_map, List.getElem_range, List.getElem_rotate,
        List.getElem?_eq_getElem]
    rw [hrotate]
    exact (List.rotate_perm _ _).map some

/-- An entry of a hidden network. -/
def hiddenEntry : SurveyTable where
  channel := List.Vector.replicate 4 0
  ssid := blank ::ᵥ List.Vector.replicate 32 0
  bssid := List.Vector.replicate 20 0
  security := List.Vector.replicate 23 0
  crypto := none

theorem hidden_in_rotation_two :
    let st := [hiddenEntry, hiddenEntry]
    let wanted : Wanted := ⟨⟨[97], by decide⟩, none⟩
    1 ≤ (hidden st).length ∧
      (answers (sqHideNum [⟨st, wanted⟩]) [⟨st, wanted⟩, ⟨st, wanted⟩]).Perm [some 0, some 1] := by
  intro st wanted
  have hh : 1 ≤ (hidden st).length := by decide
  have hws : ∀ w ∈ [wanted, wanted], Misses st w := by
    intro w hw
    have hw : w = wanted := by simpa using hw
    subst hw
    exact ⟨rfl, by decide⟩
  exact ⟨hh, (hidden_in_rotation [⟨st, wanted⟩] st [wanted, wanted] hh hws).2 rfl⟩

end IpncRdk.ApClient
