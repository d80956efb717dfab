import Mathlib.Tactic.IntervalCases
import IpncRdk.Lib.Descriptors
import IpncRdk.OsaPipe.Pipe

/-!
# Creating a pipe

`OSA_CreatePipe` keeps away from the descriptors 0, 1 and 2. Where its first pipe has one of them it
opens a second, and where that one begins with 2 it closes it and opens a third behind a dummy. Only
then does it close the first. Where a call fails it frees its memory, and closes nothing.

* `Created` — what a creation should leave behind;
* `CleansUp` — the calls that fail before there is anything to close, and the calls that succeed;
* `created_iff` — exactly these creations are right.
-/

namespace IpncRdk.OsaPipe.Create

open Lib Fallible

/-- `OSA_PIPE` -/
structure Handle where
  pfd : ℕ × ℕ
  pipeSize : ULong
  messageSize : ULong
  isFixedMessage : UInt8
  messageCount : ℤ
  totalBytesInPipe : ℤ
  deriving DecidableEq, Repr

/-- The outcomes of the calls of one creation, in the order of the calls. -/
structure Calls where
  memAlloc : Bool
  pipe : Bool
  memAllocBackup : Bool
  pipeBackup : Bool
  closeBackup : Close × Close
  pipeDummy : Bool
  pipeAgain : Bool
  closeDummy : Close × Close
  closeHandle : Close × Close
  deriving DecidableEq, Repr

/-- The pipe of `pHandleBackup` once more, behind a dummy that takes the reserved descriptor. -/
def againPfd (calls : Calls) (pfdBackup : ℕ × ℕ) : Fallible (Finset ℕ) (ℕ × ℕ) := do
  closePair pfdBackup calls.closeBackup
  let pfdDummy ← pipe calls.pipeDummy
  let pfdAgain ← pipe calls.pipeAgain
  closePair pfdDummy calls.closeDummy
  pure pfdAgain

/-- The pipe of `pHandleBackup`. -/
def backupPfd (calls : Calls) : Fallible (Finset ℕ) (ℕ × ℕ) := do
  let pfdBackup ← pipe calls.pipeBackup
  if pfdBackup.1 = 2 ∨ pfdBackup.2 = 2 then
    againPfd calls pfdBackup
  else
    pure pfdBackup

/-- The body of `OSA_CreatePipe`, which gives up where the source goes to `EXIT`. -/
def createPfd (calls : Calls) : Fallible (Finset ℕ) (ℕ × ℕ) := do
  check calls.memAlloc
  let pfd ← pipe calls.pipe
  if pfd.1 = 0 ∨ pfd.1 = 1 ∨ pfd.1 = 2 ∨ pfd.2 = 0 ∨ pfd.2 = 1 ∨ pfd.2 = 2 then
    check calls.memAllocBackup
    let pfdBackup ← backupPfd calls
    closePair pfd calls.closeHandle
    pure pfdBackup
  else
    pure pfd

/-- `OSA_CreatePipe`: the status, `*pPipe` and the open descriptors. -/
def osaCreatePipe (calls : Calls) (pipeSize messageSize : ULong) (isFixedMessage : UInt8)
    (t : Finset ℕ) : ℤ × Option Handle × Finset ℕ :=
  match exec (createPfd calls) t with
  | (some pfd, t') =>
    (osaSok, some ⟨pfd, pipeSize, messageSize, isFixedMessage, 0, 0⟩, t')
  | (none, t') => (osaEfail, none, t')

/-! ## The property -/

/-- A pipe with descriptors greater than 2 and nothing else, or nothing. -/
structure Created (t : Finset ℕ) (r : ℤ × Option Handle × Finset ℕ) : Prop where
  sok : r.1 = osaSok → ∃ pHandle, r.2.1 = some pHandle ∧
    2 < pHandle.pfd.1 ∧ 2 < pHandle.pfd.2 ∧ Opens t pHandle.pfd r.2.2
  efail : r.1 = osaEfail → r.2.1 = none ∧ r.2.2 = t

/-- The calls for the third pipe succeed. -/
structure AgainOk (calls : Calls) : Prop where
  closeBackup : calls.closeBackup = (.closed, .closed)
  pipeDummy : calls.pipeDummy = true
  pipeAgain : calls.pipeAgain = true
  closeDummy : calls.closeDummy = (.closed, .closed)

/-- The calls for the second pipe succeed, and for the third one where there has to be one. -/
structure BackupOk (t : Finset ℕ) (calls : Calls) : Prop where
  memAllocBackup : calls.memAllocBackup = true
  pipeBackup : calls.pipeBackup = true
  again : (∀ fd < 3, fd ∉ t) → AgainOk calls
  closeHandle : calls.closeHandle = (.closed, .closed)

/-- The creation fails before it has a pipe, or it needs no second pipe, or it has no failing
call. -/
def CleansUp (t : Finset ℕ) (calls : Calls) : Prop :=
  calls.memAlloc = false ∨ calls.pipe = false ∨ (∀ fd < 3, fd ∈ t) ∨ BackupOk t calls

/-! ## The pipes -/

section Pipes
variable {calls : Calls} {t u v : Finset ℕ} {pfd : ℕ × ℕ}

/-- The third pipe, where the 2 is the lowest that is free. -/
lemma ends_againPfd (hopens : Opens u pfd v) (hlow : lowestFree u = 2) :
    Ends (againPfd calls pfd) v
      (fun pfdAgain w => AgainOk calls ∧ Opens u pfdAgain w ∧ 2 < pfdAgain.1)
      (fun w => ¬ AgainOk calls ∧ u ⊆ w) := by
  refine ends_bind.mpr (ends_closePair ?_ ?_)
  all_goals rw [hopens.erase]; intro hbackup
  swap
  · exact fun w hw => ⟨fun h => hbackup h.closeBackup, hw⟩
  refine ends_bind.mpr (ends_pipe (fun hpipe pfdDummy w hdummy hlow1 _ => ?_) fun hpipe => ?_)
  swap
  · exact ⟨fun h => by simp [h.pipeDummy] at hpipe, subset_rfl⟩
  refine ends_bind.mpr (ends_pipe (fun hpipe' pfdAgain x hagain hlow2 _ => ?_) fun hpipe' => ?_)
  swap
  · exact ⟨fun h => by simp [h.pipeAgain] at hpipe', hdummy.subset⟩
  refine ends_bind.mpr (ends_closePair (fun hclose => ?_) fun hclose y hy => ?_)
  swap
  · exact ⟨fun h => hclose h.closeDummy, (hdummy.subset_erase hagain.subset).trans hy⟩
  refine (ends_pure pfdAgain).mpr
    ⟨⟨hbackup, hpipe, hpipe', hclose⟩, hdummy.erase_older hagain, ?_⟩
  -- the dummy has the 2
  have hreserved : 3 ≤ lowestFree w := by
    rw [le_lowestFree_iff]
    intro fd hfd
    rcases Nat.lt_succ_iff_lt_or_eq.mp hfd with hlt | rfl
    · exact hdummy.subset (mem_of_lt_lowestFree (hlow ▸ hlt))
    · rw [hdummy.table, hlow1, hlow]
      exact Finset.mem_insert_of_mem (Finset.mem_insert_self _ _)
  rw [hlow2]
  exact hreserved

/-- The second pipe, over a table that has the 0 and the 1. -/
lemma ends_backupPfd (hlow : 2 ≤ lowestFree u) :
    Ends (backupPfd calls) u
      (fun pfd v => (calls.pipeBackup = true ∧ (2 ∉ u → AgainOk calls)) ∧
        Opens u pfd v ∧ 2 < pfd.1)
      (fun v => ¬ (calls.pipeBackup = true ∧ (2 ∉ u → AgainOk calls)) ∧ u ⊆ v) := by
  refine ends_bind.mpr (ends_pipe (fun hpipe pfd v hopens hfst _ => ?_) fun hpipe => ?_)
  swap
  · exact ⟨fun h => by simp [h.1] at hpipe, subset_rfl⟩
  have hlt := hopens.lt
  split_ifs with htwo
  · have hlow2 : lowestFree u = 2 := by omega
    have hmem : 2 ∉ u := hlow2 ▸ lowestFree_notMem u
    refine (ends_againPfd hopens hlow2).mono ?_ ?_
    · rintro pfdAgain w ⟨hok, hagain⟩
      exact ⟨⟨hpipe, fun _ => hok⟩, hagain⟩
    · rintro w ⟨hok, hkept⟩
      exact ⟨fun h => hok (h.2 hmem), hkept⟩
  · refine (ends_pure pfd).mpr ⟨⟨hpipe, fun hmem => ?_⟩, hopens, by omega⟩
    have hle := lowestFree_le hmem
    omega

/-- A second pipe begins with the 2 exactly if the first has taken the 0 and the 1. -/
lemma two_notMem_iff (hopens : Opens t pfd u) (hfst : pfd.1 = lowestFree t)
    (hsnd : pfd.2 = lowestFree (insert pfd.1 t)) : 2 ∉ u ↔ ∀ fd < 3, fd ∉ t := by
  have hlt := hopens.lt
  rw [hopens.table]
  simp only [Finset.mem_insert, not_or]
  constructor
  · rintro ⟨hne2, hne1, hmem⟩ fd hfd
    have hle := lowestFree_le (t := insert pfd.1 t) (n := 2) (by simp [hmem, hne1])
    have h0 : pfd.1 = 0 := by omega
    have h1 : pfd.2 = 1 := by omega
    interval_cases fd
    · exact h0 ▸ hopens.fst
    · exact h1 ▸ hopens.snd
    · exact hmem
  · intro hfree
    have hle0 := lowestFree_le (hfree 0 (by omega))
    have hle1 := lowestFree_le (t := insert pfd.1 t) (n := 1)
      (by simp [hfree 1 (by omega), hfst, Nat.le_zero.mp hle0])
    exact ⟨by omega, by omega, hfree 2 (by omega)⟩

/-- A creation that gives up leaves the table as it was exactly if it cleans up. -/
lemma ends_createPfd (calls : Calls) (t : Finset ℕ) :
    Ends (createPfd calls) t
      (fun pfd u => CleansUp t calls ∧ Opens t pfd u ∧ 2 < pfd.1)
      (fun u => CleansUp t calls ↔ u = t) := by
  refine ends_bind.mpr (ends_check (fun halloc => ?_) fun halloc => ?_)
  swap
  · exact ⟨fun _ => rfl, fun _ => .inl halloc⟩
  refine ends_bind.mpr (ends_pipe (fun hpipe pfd u hopens hfst hsnd => ?_) fun hpipe => ?_)
  swap
  · exact ⟨fun _ => rfl, fun _ => .inr (.inl hpipe)⟩
  have hlt := hopens.lt
  split_ifs with hreserved
  swap
  · exact (ends_pure pfd).mpr
      ⟨.inr (.inr (.inl (le_lowestFree_iff.mp (by omega)))), hopens, by omega⟩
  have htwo := two_notMem_iff hopens hfst hsnd
  have hcleans : CleansUp t calls ↔ BackupOk t calls := by
    unfold CleansUp
    rw [← le_lowestFree_iff, halloc, hpipe]
    have hlow : ¬ 3 ≤ lowestFree t := by omega
    simp only [hlow, Bool.true_eq_false, false_or]
  rw [hcleans]
  have hleft {v : Finset ℕ} (huv : u ⊆ v) (hfail : ¬ BackupOk t calls) : BackupOk t calls ↔ v = t :=
    iff_of_false hfail (hopens.ne huv)
  refine ends_bind.mpr (ends_check (fun hbackup => ?_) fun hbackup => ?_)
  swap
  · exact hleft subset_rfl fun h => by simp [h.memAllocBackup] at hbackup
  have hlow : 2 ≤ lowestFree u := by
    have hstep := lowestFree_lt_insert (insert pfd.1 t)
    rw [← hsnd, ← hopens.table] at hstep
    omega
  refine ends_bind.mpr ((ends_backupPfd hlow).mono ?_ ?_)
  swap
  · rintro v ⟨hfail, huv⟩
    exact hleft huv fun h => hfail ⟨h.pipeBackup, fun hmem => h.again (htwo.mp hmem)⟩
  rintro pfdBackup v ⟨⟨hbackup', hagain⟩, hopens', hbig⟩
  have holder := hopens.erase_older hopens'
  refine ends_bind.mpr (ends_closePair (fun hclose => ?_) fun hclose w hw => ?_)
  swap
  · exact iff_of_false (fun h => hclose h.closeHandle) (holder.ne hw)
  exact (ends_pure pfdBackup).mpr
    ⟨⟨hbackup, hbackup', fun hfree => hagain (htwo.mpr hfree), hclose⟩, holder, hbig⟩

section Creation
variable {pipeSize messageSize : ULong} {isFixedMessage : UInt8}

/-- A creation gives a pipe that nothing has been sent through, or it gives up. -/
lemma osaCreatePipe_cases (calls : Calls) (pipeSize messageSize : ULong) (isFixedMessage : UInt8)
    (t : Finset ℕ) :
    (∃ pfd u, osaCreatePipe calls pipeSize messageSize isFixedMessage t =
        (osaSok, some ⟨pfd, pipeSize, messageSize, isFixedMessage, 0, 0⟩, u) ∧
      CleansUp t calls ∧ Opens t pfd u ∧ 2 < pfd.1) ∨
    ∃ u, osaCreatePipe calls pipeSize messageSize isFixedMessage t = (osaEfail, none, u) ∧
      (CleansUp t calls ↔ u = t) := by
  have hends := ends_createPfd calls t
  unfold Ends at hends
  unfold osaCreatePipe
  rcases hexec : exec (createPfd calls) t with ⟨_ | pfd, u⟩ <;> rw [hexec] at hends
  · exact .inr ⟨u, rfl, hends⟩
  · exact .inl ⟨pfd, u, rfl, hends⟩

/-- A creation that succeeds is right, whatever failed on the way. -/
lemma created_of_sok
    (hsok : (osaCreatePipe calls pipeSize messageSize isFixedMessage t).1 = osaSok) :
    Created t (osaCreatePipe calls pipeSize messageSize isFixedMessage t) := by
  rcases osaCreatePipe_cases calls pipeSize messageSize isFixedMessage t with
    ⟨pfd, u, hcreate, -, hopens, hbig⟩ | ⟨u, hcreate, -⟩
  · rw [hcreate]
    refine ⟨fun _ => ?_, (fun hfail => by cases hfail)⟩
    exact ⟨_, rfl, hbig, hbig.trans hopens.lt, hopens⟩
  · rw [hcreate] at hsok
    cases hsok

/-- The counters begin as those of a pipe with nothing in it. -/
lemma counters_of_created {pHandle : Handle}
    (h : (osaCreatePipe calls pipeSize messageSize isFixedMessage t).2.1 = some pHandle) :
    (⟨[], pHandle.messageCount, pHandle.totalBytesInPipe⟩ : Pipe) = OsaPipe.osaCreatePipe := by
  rcases osaCreatePipe_cases calls pipeSize messageSize isFixedMessage t with
    ⟨pfd, u, hcreate, -⟩ | ⟨u, hcreate, -⟩
  · rw [hcreate] at h
    cases h
    rfl
  · rw [hcreate] at h
    cases h

end Creation

/-- **Exactly which creations are right.** For every table of open descriptors and every pattern
of failing calls. -/
theorem created_iff (calls : Calls) (pipeSize messageSize : ULong) (isFixedMessage : UInt8)
    (t : Finset ℕ) :
    Created t (osaCreatePipe calls pipeSize messageSize isFixedMessage t) ↔ CleansUp t calls := by
  rcases osaCreatePipe_cases calls pipeSize messageSize isFixedMessage t with
    ⟨pfd, u, hcreate, hclean, -⟩ | ⟨u, hcreate, hclean⟩
  · refine iff_of_true (created_of_sok ?_) hclean
    rw [hcreate]
  · rw [hcreate, hclean]
    constructor
    · intro h
      exact (h.efail rfl).2
    · intro hut
      exact ⟨(fun hsok => by cases hsok), fun _ => ⟨rfl, hut⟩⟩

/-- No descriptor is open but the 1 and the 2, and there is no memory for the second handle: the
first pipe stays open. -/
theorem noBackup_not_created :
    ¬ Created {1, 2} (osaCreatePipe
      ⟨true, true, false, true, (.closed, .closed), true, true, (.closed, .closed),
        (.closed, .closed)⟩ 0 0 0 {1, 2}) := by
  rw [created_iff]
  rintro (h | h | h | h)
  · cases h
  · cases h
  · exact absurd (h 0 (by decide)) (by decide)
  · cases h.memAllocBackup

end Pipes

end IpncRdk.OsaPipe.Create
