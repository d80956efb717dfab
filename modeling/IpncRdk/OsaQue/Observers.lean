import IpncRdk.OsaQue.QueTheorems

/-!
# `osa_que.c`: the functions that look at a queue

`OSA_queGetQueuedCount`, `OSA_quePeek` and `OSA_queIsEmpty` read a queue under its lock and leave it
as it is.

* `Agree` — what they say is true of the values in the queue;
* `quePeek_eq` — a peek stores what the next get takes;
* `observers_never_agree` — an empty queue is not reported as empty, and no peek reports a value.
-/

namespace IpncRdk.OsaQue

open Lib

def osaQueGetQueuedCount (hndl : QueHndl) : ℕ := hndl.count

/-- `OSA_quePeek`: its status, which stays the one that it begins with, and the value that it stores
where the caller's pointer is not `NULL`. -/
def osaQuePeek (hndl : QueHndl) : Except Fault (ℤ × Option ℤ) :=
  if hndl.count > 0 then
    if hndl.curRd < hndl.cells then .ok (osaEfail, some hndl.head)
    else .error .outOfBounds
  else .ok (osaEfail, none)

/-- `OSA_queIsEmpty`; both branches store the same. -/
def osaQueIsEmpty (hndl : QueHndl) : ℤ := if hndl.count = 0 then 0 else 0

/-- The observers and the queue. -/
structure Agree (hndl : QueHndl) : Prop where
  count : osaQueGetQueuedCount hndl = hndl.contents.length
  isEmpty : osaQueIsEmpty hndl ≠ 0 ↔ hndl.contents.length = 0
  /-- a peek succeeds where there is a value, and stores the one that the next get takes -/
  peek : ∃ status value, osaQuePeek hndl = .ok (status, value) ∧
    (status = osaSok ↔ hndl.contents ≠ []) ∧
    ∀ timeout result taken hndl', osaQueGet hndl timeout = .ok (result, taken, hndl') →
      value = taken

section Observers
variable {hndl : QueHndl}

lemma queuedCount_eq (hndl : QueHndl) : osaQueGetQueuedCount hndl = hndl.contents.length :=
  (CellRing.length_contents hndl.toCellRing).symm

lemma queIsEmpty_eq (hndl : QueHndl) : osaQueIsEmpty hndl = 0 := by
  unfold osaQueIsEmpty
  split <;> rfl

/-- A peek fails, and stores what a get takes. -/
lemma quePeek_eq (hndl : QueHndl) (timeout : ℕ) :
    osaQuePeek hndl = (osaQueGet hndl timeout).map fun r => (osaEfail, r.2.1) := by
  unfold osaQuePeek osaQueGet getPass
  split_ifs <;> rfl

/-- What is said of an empty queue is wrong in the one way, and of any other in the other. -/
lemma not_agree (hndl : QueHndl) : ¬ Agree hndl := by
  rintro ⟨-, hempty, status, value, hpeek, hstatus, -⟩
  rw [queIsEmpty_eq, ne_eq, eq_self, not_true, false_iff] at hempty
  have hne : hndl.contents ≠ [] := fun hnil => hempty (List.length_eq_zero_iff.mpr hnil)
  obtain ⟨r, -, hr⟩ := map_eq_ok_iff.mp ((quePeek_eq hndl osaTimeoutNone).symm.trans hpeek)
  have hfail : osaEfail = status := congrArg Prod.fst hr
  exact absurd (hfail.trans (hstatus.mpr hne)) (by decide)

end Observers

/-! ## Runs -/

/-- The number that is reported is that of the values put and not yet taken. -/
lemma queuedCount_always {maxLen : ℕ} (hpos : 1 ≤ maxLen) (hsize : 4 * maxLen < 2 ^ 32)
    (queue : ℕ → ℤ) {hndl : QueHndl} (hcreate : osaQueCreate maxLen (some queue) = some hndl)
    (events : List (Event ℤ)) :
    Always step (fun s => s.puts.length = s.gets.length + osaQueGetQueuedCount s.hndl)
      (fresh hndl) events := by
  obtain rfl := Option.some.inj hcreate
  refine always_of_invariant (I := Inv) (fun s hs => ?_) inv_step events (inv_fresh ?_ rfl)
  · rw [hs.values, List.length_append, queuedCount_eq]
  · refine ⟨.empty hpos queue, ?_⟩
    show maxLen ≤ 4 * maxLen % 2 ^ 32 / 4
    rw [Nat.mod_eq_of_lt hsize]
    omega

/-- **The observers never agree with the queue.** In no state of any run of any threads, whichever
queue it begins with. -/
theorem observers_never_agree (hndl : QueHndl) (events : List (Event ℤ)) :
    Always step (fun s => ¬ Agree s.hndl) (fresh hndl) events :=
  always_of_invariant (I := fun _ => True) (fun s _ => not_agree s.hndl)
    (fun _ _ _ _ _ => trivial) events trivial

/-- A queue of four values that nobody has used. -/
def newQueue : QueHndl := { toCellRing := .empty 4 fun _ => 0, cells := 4 }

/-- It is not reported as empty; and with a value in it, the peek that stores it fails. -/
theorem newQueue_not_agree : osaQueCreate 4 (some fun _ => 0) = some newQueue ∧
    ¬ Always step (fun s => Agree s.hndl) (fresh newQueue) [] ∧
    ∃ hndl, osaQuePut newQueue 7 osaTimeoutNone = .ok (some osaSok, hndl) ∧
      osaQuePeek hndl = .ok (osaEfail, some 7) := by
  refine ⟨rfl, fun h => ?_, _, rfl, rfl⟩
  exact absurd (h.isEmpty.mpr rfl) (by decide)

end IpncRdk.OsaQue
