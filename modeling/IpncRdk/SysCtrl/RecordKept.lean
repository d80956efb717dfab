import IpncRdk.SysCtrl.Record

/-!
# When a check leaves the record of the last report alone

* `Kept` — unless a reply of the run has set `isValid`, the report and the saved record are those
  from before the run;
* `SparesRecord` — an invocation does not show and save a report that no reply has filled in;
* `record_kept` — the record is kept throughout a run whose invocations spare it, and in no other
  run but where the clock shows the date of the report;
* `record_not_kept` — a run with the server link down.
-/

namespace IpncRdk.SysCtrl

open Lib HttpThread SysCfg

/-- Unless a reply of this run has set `isValid`, the record is that of `start`. -/
structure Kept (start w : World) : Prop where
  date : w.answered = false → w.http.report.date = start.http.report.date
  percent : w.answered = false → w.http.report.percent = start.http.report.percent
  result : w.answered = false → w.http.report.result = start.http.report.result
  saved : w.answered = false → savedRecord w.file = savedRecord start.file

/-- An invocation in state 5 finds `isValid` set, or no memory to draw with. -/
def SparesRecord (w : World) (tick : Tick) : Prop :=
  w.machine.state = 5 → w.http.report.isValid = true ∨ tick.hasMemory = false

/-- An invocation spares the record, or the clock shows the date that the report has. -/
def SparesDate (w : World) (tick : Tick) : Prop :=
  SparesRecord w tick ∨ dateText tick.now = w.http.report.date

/-- Behind state 0 `isValid` tells whether a reply of this run has set it. -/
structure Tells (w : World) : Prop where
  fresh : w.machine.state = 0 → w.answered = false
  valid : w.machine.state ≠ 0 → w.http.report.isValid = w.answered
  /-- a save is the last thing of a check -/
  ended : w.stopped = true → w.machine.state ≠ 5

/-! ## One invocation -/

section Invoke
variable {intOf : List UInt8 → ℤ} {start w t : World} {tick : Tick}

lemma Kept.of_eq (h : Kept start w) (hdate : t.http.report.date = w.http.report.date)
    (hpercent : t.http.report.percent = w.http.report.percent)
    (hresult : t.http.report.result = w.http.report.result)
    (hfile : savedRecord t.file = savedRecord w.file) (hanswered : t.answered = w.answered) :
    Kept start t := by
  constructor <;> intro hno <;> rw [hanswered] at hno
  · rw [hdate, h.date hno]
  · rw [hpercent, h.percent hno]
  · rw [hresult, h.result hno]
  · rw [hfile, h.saved hno]

/-- With a reply that sets `isValid` nothing is promised. -/
lemma kept_of_answered (h : t.answered = true) : Kept start t := by
  constructor <;> intro hno <;> nomatch h.symm.trans hno

lemma performAll_singleton (a : Action) : performAll intOf tick [a] w = perform intOf tick w a := by
  unfold performAll
  cases perform intOf tick w a <;> rfl

/-- What the upload makes of the world. -/
lemma perform_saveJpeg (h : perform intOf tick w .saveJpeg = .ok t) : t =
    { w with
      http :=
        { (lastWrites intOf tick.replies).act w.http with
          report :=
            { ((lastWrites intOf tick.replies).act w.http).report with
              errCode := tick.errCode.getD w.http.report.errCode } }
      answered := w.answered || (lastWrites intOf tick.replies).valid } := by
  obtain ⟨http, hdeliver, h⟩ := bind_eq_ok_iff.mp h
  rw [← Except.ok.inj h, deliver_eq_ok intOf hdeliver]
  rfl

lemma performAll_finish (isValid : Bool) (m : Machine) :
    performAll intOf tick (finish isValid m).2 w = perform intOf tick w .showReport := by
  cases isValid with
  | true => exact bind_pure (perform intOf tick w .showReport)
  | false => exact bind_pure (perform intOf tick w .showReport)

/-- What the display makes of the world: the clock is stored before the file is written. -/
lemma perform_showReport (hmem : tick.hasMemory = true) :
    let report := { w.http.report with date := dateText tick.now }
    perform intOf tick w .showReport =
      .ok { w with
        http := { w.http with report := report }
        file := (saveReport report w.file).1
        stopped := !(saveReport report w.file).2 } := by
  simp only [perform, showReport, hmem, if_true]
  rfl

lemma perform_showReport_noMemory (hmem : tick.hasMemory = false) :
    perform intOf tick w .showReport = .ok { w with stopped := false } := by
  simp only [perform, showReport, hmem]
  rfl

/-- What the display writes leaves `isValid` alone. -/
lemma showReport_isValid (h : perform intOf tick w .showReport = .ok t) :
    t.machine = w.machine ∧ t.answered = w.answered ∧
      t.http.report.isValid = w.http.report.isValid := by
  cases hmem : tick.hasMemory with
  | false =>
    rw [perform_showReport_noMemory hmem] at h
    rw [← Except.ok.inj h]
    exact ⟨rfl, rfl, rfl⟩
  | true =>
    rw [perform_showReport hmem] at h
    rw [← Except.ok.inj h]
    exact ⟨rfl, rfl, rfl⟩

/-- The actions of an invocation that has an outcome. -/
lemma performAll_of_invoke (h : invoke intOf tick w = .ok t) :
    let r := execTaskStateMachine tick.link w.http.report.isValid w.machine
    w.stopped = false ∧ performAll intOf tick r.2 { w with machine := r.1 } = .ok t := by
  unfold invoke at h
  split at h
  · cases h
  · next hgoes => exact ⟨Bool.eq_false_of_not_eq_true hgoes, h⟩

/-- What `isValid` tells stays so, whatever an invocation does. -/
lemma tells_invoke (hT : Tells w) (h : invoke intOf tick w = .ok t) : Tells t := by
  obtain ⟨hgoes, h⟩ := performAll_of_invoke h
  have hno : w.stopped = true → ∀ {p : Prop}, p := fun hstop => nomatch hgoes.symm.trans hstop
  have hbranch := execTaskStateMachine_branch tick.link w.http.report.isValid w.machine
  generalize execTaskStateMachine tick.link w.http.report.isValid w.machine = r at h hbranch
  cases hbranch with
  | begins h0 =>
    have hne : (1 : ℤ) ≠ 0 := by decide
    rw [← Except.ok.inj h]
    -- state 0 clears `isValid`, and no reply of this run has come yet
    exact ⟨fun h1 => absurd h1 hne, fun _ => (hT.fresh h0).symm, fun hstop => hno hstop⟩
  | uploads h4 =>
    have hne : (5 : ℤ) ≠ 0 := by decide
    have hvalid : w.http.report.isValid = w.answered := hT.valid (by omega)
    rw [performAll_singleton] at h
    rw [perform_saveJpeg h]
    refine ⟨fun h5 => absurd h5 hne, fun _ => ?_, fun hstop => hno hstop⟩
    show ((lastWrites intOf tick.replies).valid || w.http.report.isValid) = _
    rw [hvalid, Bool.or_comm]
  | finishes h5 =>
    have hvalid : w.http.report.isValid = w.answered := hT.valid (by omega)
    rw [performAll_finish] at h
    obtain ⟨hmachine, hanswered, hshown⟩ := showReport_isValid h
    have hsix : t.machine.state = 6 := congrArg Machine.state hmachine
    exact ⟨fun h0 => by omega, fun _ => hshown.trans (hvalid.trans hanswered.symm),
      fun _ => by omega⟩
  -- the other branches leave `isValid` and the replies alone
  | _ =>
    rw [← Except.ok.inj h]
    exact ⟨fun h0 => by simp only at h0; omega, fun _ => hT.valid (by omega),
      fun hstop => hno hstop⟩

/-- An upload without a success reply writes nothing. -/
lemma kept_upload (hK : Kept start w) (h : perform intOf tick w .saveJpeg = .ok t) :
    Kept start t := by
  rw [perform_saveJpeg h]
  by_cases hany : (lastWrites intOf tick.replies).valid = true
  · exact kept_of_answered (by simp [hany])
  · rw [Bool.not_eq_true] at hany
    rw [lastWrites_eq_nothing intOf hany]
    exact hK.of_eq rfl rfl rfl rfl (Bool.or_false _)

/-- The display comes with `isValid` set, or does nothing. -/
lemma kept_finish (hK : Kept start w) (hvalid : w.http.report.isValid = w.answered)
    (hspares : w.http.report.isValid = true ∨ tick.hasMemory = false)
    (h : perform intOf tick w .showReport = .ok t) : Kept start t := by
  rcases hspares with hshown | hmem
  · -- a reply of this run has set it, so the record may change
    exact kept_of_answered ((showReport_isValid h).2.1.trans (hvalid.symm.trans hshown))
  · rw [perform_showReport_noMemory hmem] at h
    rw [← Except.ok.inj h]
    exact hK.of_eq rfl rfl rfl rfl rfl

/-- An invocation that spares the record keeps it. -/
lemma kept_invoke (hT : Tells w) (hK : Kept start w) (hspares : SparesRecord w tick)
    (h : invoke intOf tick w = .ok t) : Kept start t := by
  obtain ⟨-, h⟩ := performAll_of_invoke h
  have hbranch := execTaskStateMachine_branch tick.link w.http.report.isValid w.machine
  generalize execTaskStateMachine tick.link w.http.report.isValid w.machine = r at h hbranch
  have hK' : Kept start { w with machine := r.1 } := hK.of_eq rfl rfl rfl rfl rfl
  cases hbranch with
  | uploads _ =>
    rw [performAll_singleton] at h
    exact kept_upload hK' h
  | finishes h5 =>
    rw [performAll_finish] at h
    exact kept_finish hK' (hT.valid (by omega)) (hspares h5) h
  -- the other branches leave the record and the file alone
  | _ =>
    rw [← Except.ok.inj h]
    exact hK.of_eq rfl rfl rfl rfl rfl

/-- Unless the clock shows the date of the report, an invocation that does not spare the record
changes it, whether the save comes to its end or not. -/
lemma not_kept_invoke (hT : Tells w) (hK : Kept start w) (h : ¬ SparesDate w tick) :
    ∃ t, invoke intOf tick w = .ok t ∧ ¬ Kept start t := by
  unfold SparesDate SparesRecord at h
  push Not at h
  obtain ⟨⟨h5, hshown, hmem⟩, hdate⟩ := h
  rw [ne_eq, Bool.not_eq_true] at hshown
  rw [ne_eq, Bool.not_eq_false] at hmem
  have hno : w.answered = false := (hT.valid (by omega)).symm.trans hshown
  have hgoes : ¬ w.stopped = true := fun hstop => hT.ended hstop h5
  have hfinish : execTaskStateMachine tick.link w.http.report.isValid w.machine =
      finish w.http.report.isValid w.machine := by
    simp [execTaskStateMachine, h5]
  have hinvoke : invoke intOf tick w =
      perform intOf tick { w with machine := { w.machine with state := 6 } } .showReport := by
    unfold invoke
    rw [if_neg hgoes, hfinish, performAll_finish]
    rfl
  refine ⟨_, hinvoke.trans (perform_showReport hmem), fun hkept => hdate ?_⟩
  -- a date kept before and after would be the same on both sides of the store
  exact (hkept.date hno).trans (hK.date hno).symm

end Invoke

/-! ## Runs -/

section Runs
variable (intOf : List UInt8 → ℤ)

lemma tells_execTask (w : World) : Tells (execTask w) :=
  ⟨fun _ => rfl, fun h => absurd rfl h, fun _ h => nomatch h⟩

lemma kept_execTask (w : World) : Kept w (execTask w) :=
  ⟨fun _ => rfl, fun _ => rfl, fun _ => rfl, fun _ => rfl⟩

lemma step_eq_some {w t : World} {tick : Tick} :
    step intOf w tick = some t ↔ invoke intOf tick w = .ok t := toOption_eq_some_iff

/-- **When a check leaves the record alone.** In every run that `execTask` begins, whatever the link
readings and the replies: the record is kept throughout if every invocation spares it, and it is
kept in no other run, unless an invocation finds the clock at the date of the report. -/
theorem record_kept (w : World) (ticks : List Tick) :
    (EveryStep (step intOf) SparesRecord (execTask w) ticks →
        Always (step intOf) (Kept w) (execTask w) ticks) ∧
      (Always (step intOf) (Kept w) (execTask w) ticks →
        EveryStep (step intOf) SparesDate (execTask w) ticks) := by
  constructor
  · intro h
    apply always_of_everyStep (I := fun s => Tells s ∧ Kept w s) (fun _ hI => hI.2) _ ticks
      ⟨tells_execTask w, kept_execTask w⟩ h
    rintro s tick t ⟨hT, hK⟩ hspares hstep
    have hinvoke := (step_eq_some intOf).mp hstep
    exact ⟨tells_invoke hT hinvoke, kept_invoke hT hK hspares hinvoke⟩
  · apply everyStep_of_always (I := fun s => Tells s ∧ Kept w s) _ _ ticks
      ⟨tells_execTask w, kept_execTask w⟩
    · rintro s tick t ⟨hT, -⟩ - hkept hstep
      exact ⟨tells_invoke hT ((step_eq_some intOf).mp hstep), hkept⟩
    · rintro s tick ⟨hT, hK⟩ h
      obtain ⟨t, ht, hnot⟩ : ∃ t, invoke intOf tick s = .ok t ∧ ¬ Kept w t :=
        not_kept_invoke hT hK h
      exact ⟨t, (step_eq_some intOf).mpr ht, hnot⟩

/-- A record of January 2nd, and a check on June 5th with the server link down. -/
def savedInJanuary : World where
  machine := ⟨6, 0, 0⟩
  http := ⟨⟨dateText ⟨0, 2, 3, 4⟩, 80, 1, true, 0⟩, []⟩
  file := some (sectionHeader reportSection ++ [cr, lf] ++ keyLine resultKey [49] ++
    keyLine percentKey [56, 48] ++ keyLine dateKey (dateText ⟨0, 2, 3, 4⟩))
  answered := false
  stopped := false

def linkDown : Tick := ⟨false, [], none, true, ⟨5, 5, 6, 7⟩⟩

theorem record_not_kept :
    ¬ Always (step decimal) (Kept savedInJanuary) (execTask savedInJanuary)
      (List.replicate 82 linkDown) := by
  intro h
  have hrun : ((run (step decimal) (execTask savedInJanuary) (List.replicate 82 linkDown)).map
      fun t => (t.answered, t.http.report.date)) = some (false, dateText ⟨5, 5, 6, 7⟩) := by
    decide +kernel
  rw [Option.map_eq_some_iff] at hrun
  obtain ⟨t, ht, heq⟩ := hrun
  rw [Prod.mk.injEq] at heq
  have hdate := (of_always h ht).date heq.1
  rw [heq.2] at hdate
  exact absurd hdate (by decide)

end Runs

end IpncRdk.SysCtrl
