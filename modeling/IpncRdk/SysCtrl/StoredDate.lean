import IpncRdk.Display.Bounds
import IpncRdk.SysCfg.Extract
import IpncRdk.SysCtrl.RecordKept

/-!
# The stored date and the buffer it is shown from

`report.date` is loaded at boot, with a default, written by `showReport` and saved; `showRecord`
formats it in a buffer that is shorter than the field.

* `Device`, `next` — the field's bytes beside the world of a check, through boots, checks and
  displays;
* `DateFits` — the string of the field, at most 15 characters;
* `loadDate_fits_iff` — the files from which a boot loads such a date;
* `date_always_fits` — boots from such files keep it so.
-/

namespace IpncRdk.SysCtrl

open Lib HttpThread SysCfg

/-! ## The device -/

/-- The field `report.date` as a boot loads it. -/
def loadDate (file : Option (List UInt8)) : Except Fault (List UInt8) :=
  getConfigFileStringValue reportSection dateKey (some defaultDate) (List.replicate 20 0) 20 file

/-- What `showRecord` formats in `text`, a buffer of 16 bytes. -/
def recordText (percent : ℤ) (date : List UInt8) : Except Fault (List UInt8) := do
  let text ← strcpy (List.replicate 16 0) (format02 percent)
  strcpy text (cstr date)

/-- What an action of the state machine stores in the field. -/
def performDate (tick : Tick) (date : List UInt8) : Action → Except Fault (List UInt8)
  | .showReport => if tick.hasMemory then strcpy date (dateText tick.now) else pure date
  | _ => pure date

/-- The actions of an invocation in their order. -/
def performDates (tick : Tick) : List Action → List UInt8 → Except Fault (List UInt8)
  | [], date => pure date
  | a :: actions, date => do
    let date ← performDate tick date a
    performDates tick actions date

/-- The world of a check, and the 20 bytes of `report.date`. -/
structure Device where
  world : World
  date : List UInt8

inductive Event
  /-- a boot, with the file that it finds -/
  | boot (file : Option (List UInt8))
  | execTask
  | execTaskStateMachine (tick : Tick)
  | showRecord (isShow hasMemory : Bool)

def next (intOf : List UInt8 → ℤ) (d : Device) : Event → Except Fault Device
  | .boot file => do
    let date ← loadDate file
    let (text, result, percent) ← savedRecord file
    pure ⟨⟨Display.start, ⟨⟨text, percent, result, false, 0⟩, []⟩, file, false, false⟩, date⟩
  | .execTask => pure ⟨execTask d.world, d.date⟩
  | .execTaskStateMachine tick => do
    let actions :=
      (execTaskStateMachine tick.link d.world.http.report.isValid d.world.machine).2
    let date ← performDates tick actions d.date
    let world ← invoke intOf tick d.world
    pure ⟨world, date⟩
  | .showRecord isShow hasMemory =>
    if isShow && hasMemory then do
      let _ ← recordText d.world.http.report.percent d.date
      pure d
    else pure d

def stepDevice (intOf : List UInt8 → ℤ) (d : Device) (e : Event) : Option Device :=
  (next intOf d e).toOption

/-- The zeroed memory that the first boot meets. -/
def poweredOff : Device where
  world := ⟨Display.start, ⟨⟨[], 0, 0, false, 0⟩, []⟩, none, false, false⟩
  date := List.replicate 20 0

/-! ## The property -/

/-- A field of 20 bytes with a string of at most 15 characters. -/
structure ShortField (date : List UInt8) : Prop where
  field : date.length = 20
  terminated : (0 : UInt8) ∈ date
  short : (cstr date).length ≤ 15

/-- The date in the report is the string of such a field. -/
structure DateFits (d : Device) : Prop where
  field : ShortField d.date
  string : d.world.http.report.date = cstr d.date

/-- The file has a date of 1 to 15 characters. -/
def HasShortDate (file : Option (List UInt8)) : Prop :=
  ∃ content text, file = some content ∧
    fileText reportSection dateKey (linesRead content) = some text ∧
    1 ≤ (valueOf text).length ∧ (valueOf text).length ≤ 15

/-- A boot finds a file with a date of 1 to 15 characters. -/
def BootsShort (_ : Device) : Event → Prop
  | .boot file => HasShortDate file
  | _ => True

/-! ## The field -/

section Field
variable {date text : List UInt8} {tick : Tick}

lemma zero_notMem_dateText (now : Tm) : (0 : UInt8) ∉ dateText now := by
  have hformat : ∀ n : ℤ, (0 : UInt8) ∉ format02 n := fun n hmem =>
    absurd (Display.isGlyph_of_mem_format02 hmem) (by decide)
  unfold dateText
  simp only [List.mem_append, not_or]
  exact ⟨⟨⟨⟨⟨⟨hformat _, by decide⟩, hformat _⟩, by decide⟩, hformat _⟩, by decide⟩, hformat _⟩

/-- A string that was copied into the field. -/
lemma shortField_strcpy (hfield : date.length = 20) (hnul : (0 : UInt8) ∉ text)
    (hshort : text.length ≤ 15) : ShortField (text ++ 0 :: date.drop (text.length + 1)) where
  field := (length_strcpy (by omega)).trans hfield
  terminated := List.mem_append_right text List.mem_cons_self
  short := by rwa [cstr_append_nul hnul]

/-- The display stores twelve characters. -/
lemma strcpy_dateText (hfield : date.length = 20) (now : Tm) : ∃ date',
    strcpy date (dateText now) = .ok date' ∧ ShortField date' ∧ cstr date' = dateText now := by
  have hlen : (dateText now).length = 12 := Display.length_dateText now
  have hnul := zero_notMem_dateText now
  exact ⟨_, strcpy_eq_ok (by omega), shortField_strcpy hfield hnul (by omega),
    cstr_append_nul hnul _⟩

/-- A date of at most 15 characters can be shown, and no other one. -/
lemma recordText_isOk_iff {percent : ℤ} (hpercent : (format02 percent).length < 16) :
    (∃ text, recordText percent date = .ok text) ↔ (cstr date).length ≤ 15 := by
  have hbuffer : (List.replicate 16 (0 : UInt8)).length = 16 := List.length_replicate
  have hfirst := length_strcpy (hpercent.trans_eq hbuffer.symm)
  unfold recordText
  rw [strcpy_eq_ok (hpercent.trans_eq hbuffer.symm), ok_bind]
  unfold strcpy
  rw [hfirst, hbuffer]
  by_cases h : (cstr date).length < 16
  · exact iff_of_true ⟨_, if_pos h⟩ (by omega)
  · rw [if_neg h]
    refine iff_of_false (fun ⟨text, htext⟩ => ?_) (by omega)
    cases htext

/-! ## A boot -/

lemma strcpy_default : strcpy (List.replicate 20 0) defaultDate =
    .ok (defaultDate ++ [0, 0, 0, 0]) := rfl

lemma loadDate_none : loadDate none = .ok (defaultDate ++ [0, 0, 0, 0]) := rfl

lemma loadDate_some (content : List UInt8) : loadDate (some content) =
    match fileText reportSection dateKey (linesRead content) with
    | some text => storeValue 20 text (defaultDate ++ [0, 0, 0, 0])
    | none => .ok (defaultDate ++ [0, 0, 0, 0]) := by
  unfold loadDate
  rw [get_reads, Option.getD_some, strcpy_default]
  rfl

/-- The default takes 16 characters. -/
lemma not_shortField_default : ¬ ShortField (defaultDate ++ [0, 0, 0, 0]) := fun h =>
  absurd h.short (by decide)

/-- A value that takes the place of the default. -/
lemma storeValue_short_iff : (∃ date, storeValue 20 text (defaultDate ++ [0, 0, 0, 0]) = .ok date ∧
    ShortField date) ↔ 1 ≤ (valueOf text).length ∧ (valueOf text).length ≤ 15 := by
  have hfield : (defaultDate ++ [0, 0, 0, 0]).length = 20 := rfl
  by_cases hlong : (valueOf text).length < 20
  · rw [storeValue_eq text hfield.ge hlong]
    by_cases hnil : valueOf text = []
    · rw [if_pos hnil, hnil]
      refine iff_of_false (fun ⟨date, hdate, hshort⟩ => ?_) (by decide)
      exact not_shortField_default (Except.ok.inj hdate ▸ hshort)
    · have hpos := List.length_pos_of_ne_nil hnil
      have hnul := zero_notMem_valueOf text
      rw [if_neg hnil]
      constructor
      · rintro ⟨date, hdate, hshort⟩
        have hlen := hshort.short
        rw [← Except.ok.inj hdate, cstr_append_nul hnul] at hlen
        exact ⟨hpos, hlen⟩
      · rintro ⟨-, hlen⟩
        exact ⟨_, rfl, shortField_strcpy hfield hnul hlen⟩
  · -- the value fills the field, and its second NUL is stored behind it
    have hover := storeValue_overrun (List.cons_ne_nil _ _) (Nat.not_lt.mp hlong :
      (defaultDate ++ [0, 0, 0, 0]).length ≤ (valueOf text).length)
    refine iff_of_false (fun ⟨date, hdate, _⟩ => ?_) (by omega)
    cases hover.symm.trans hdate

/-- Exactly the files from which a boot loads a short date. -/
lemma loadDate_fits_iff (file : Option (List UInt8)) :
    (∃ date, loadDate file = .ok date ∧ ShortField date) ↔ HasShortDate file := by
  unfold HasShortDate
  cases file with
  | none =>
    rw [loadDate_none]
    refine iff_of_false (fun ⟨date, hdate, hshort⟩ => ?_) (fun ⟨_, _, h, _⟩ => by cases h)
    exact not_shortField_default (Except.ok.inj hdate ▸ hshort)
  | some content =>
    rw [loadDate_some]
    cases htext : fileText reportSection dateKey (linesRead content) with
    | none =>
      refine iff_of_false (fun ⟨date, hdate, hshort⟩ => ?_) (fun ⟨c, t, hc, ht, _⟩ => ?_)
      · exact not_shortField_default (Except.ok.inj hdate ▸ hshort)
      · obtain rfl := Option.some.inj hc
        cases htext.symm.trans ht
    | some text =>
      refine storeValue_short_iff.trans ⟨fun h => ⟨content, text, rfl, htext, h⟩, ?_⟩
      rintro ⟨c, t, hc, ht, h⟩
      obtain rfl := Option.some.inj hc
      rwa [Option.some.inj (htext.symm.trans ht)]

end Field

/-! ## Runs -/

section Runs
variable {intOf : List UInt8 → ℤ} {d d' : Device} {w t : World} {date date' : List UInt8}
  {tick : Tick}

lemma performDates_finish (isValid : Bool) (m : Machine) :
    performDates tick (finish isValid m).2 date = performDate tick date .showReport := by
  cases isValid with
  | true => exact bind_pure (performDate tick date .showReport)
  | false => exact bind_pure (performDate tick date .showReport)

/-- The display writes the same string in the report and in its field. -/
lemma fits_showReport (hfield : ShortField date) (hstring : w.http.report.date = cstr date)
    (hdate : performDate tick date .showReport = .ok date')
    (h : perform intOf tick w .showReport = .ok t) :
    ShortField date' ∧ t.http.report.date = cstr date' := by
  cases hmem : tick.hasMemory with
  | false =>
    rw [perform_showReport_noMemory hmem] at h
    unfold performDate at hdate
    rw [hmem] at hdate
    rw [← Except.ok.inj h, ← Except.ok.inj hdate]
    exact ⟨hfield, hstring⟩
  | true =>
    obtain ⟨area, harea, hshort, hcstr⟩ := strcpy_dateText hfield.field tick.now
    unfold performDate at hdate
    rw [hmem, if_pos rfl, harea] at hdate
    obtain rfl := Except.ok.inj hdate
    rw [perform_showReport hmem] at h
    rw [← Except.ok.inj h]
    exact ⟨hshort, hcstr.symm⟩

/-- An invocation of the state machine. -/
lemma fits_invoke (hfield : ShortField date) (hstring : w.http.report.date = cstr date)
    (hdate : performDates tick
      (execTaskStateMachine tick.link w.http.report.isValid w.machine).2 date = .ok date')
    (h : invoke intOf tick w = .ok t) : ShortField date' ∧ t.http.report.date = cstr date' := by
  obtain ⟨-, h⟩ := performAll_of_invoke h
  have hbranch := execTaskStateMachine_branch tick.link w.http.report.isValid w.machine
  generalize execTaskStateMachine tick.link w.http.report.isValid w.machine = r at h hdate hbranch
  cases hbranch with
  | uploads _ =>
    rw [performAll_singleton] at h
    rw [perform_saveJpeg h, ← Except.ok.inj hdate]
    exact ⟨hfield, hstring⟩
  | finishes _ =>
    rw [performAll_finish] at h
    rw [performDates_finish] at hdate
    exact fits_showReport (w := { w with machine := { w.machine with state := 6 } })
      hfield hstring hdate h
  -- the other branches leave the date alone
  | _ =>
    rw [← Except.ok.inj h, ← Except.ok.inj hdate]
    exact ⟨hfield, hstring⟩

/-- A boot on a file with a short date. -/
lemma fits_boot {file : Option (List UInt8)} (hfile : HasShortDate file)
    (h : next intOf d (.boot file) = .ok d') : DateFits d' := by
  obtain ⟨date, hdate, hshort⟩ := (loadDate_fits_iff file).mpr hfile
  obtain ⟨area, harea, h⟩ := bind_eq_ok_iff.mp h
  obtain rfl := Except.ok.inj (hdate.symm.trans harea)
  obtain ⟨⟨text, result, percent⟩, hsaved, h⟩ := bind_eq_ok_iff.mp h
  -- the report takes the string of the field that the same lookup fills
  obtain ⟨_, hget, hsaved⟩ := bind_eq_ok_iff.mp hsaved
  obtain rfl := Except.ok.inj (hdate.symm.trans hget)
  obtain ⟨_, -, hsaved⟩ := bind_eq_ok_iff.mp hsaved
  obtain ⟨_, -, hsaved⟩ := bind_eq_ok_iff.mp hsaved
  obtain ⟨rfl, -⟩ := Prod.mk.inj (Except.ok.inj hsaved)
  obtain rfl := Except.ok.inj h
  exact ⟨hshort, rfl⟩

/-- What one step preserves. -/
lemma fits_next {e : Event} (hd : DateFits d) (he : BootsShort d e)
    (h : next intOf d e = .ok d') : DateFits d' := by
  cases e with
  | boot file => exact fits_boot he h
  | execTask =>
    rw [← Except.ok.inj h]
    exact ⟨hd.field, hd.string⟩
  | execTaskStateMachine tick =>
    obtain ⟨date, hdate, h⟩ := bind_eq_ok_iff.mp h
    obtain ⟨world, hinvoke, h⟩ := bind_eq_ok_iff.mp h
    obtain ⟨hfield, hstring⟩ := fits_invoke hd.field hd.string hdate hinvoke
    rw [← Except.ok.inj h]
    exact ⟨hfield, hstring⟩
  | showRecord isShow hasMemory =>
    unfold next at h
    dsimp only at h
    split at h
    · obtain ⟨_, -, h⟩ := bind_eq_ok_iff.mp h
      exact Except.ok.inj h ▸ hd
    · exact Except.ok.inj h ▸ hd

/-- Zeroed memory holds the empty string. -/
lemma dateFits_poweredOff : DateFits poweredOff := ⟨⟨rfl, by decide, by decide⟩, rfl⟩

/-- **The stored date fits where it is shown.** In every run of boots, checks and displays in which
the boots find a file with a date of 1 to 15 characters. -/
theorem date_always_fits (intOf : List UInt8 → ℤ) (es : List Event)
    (h : EveryStep (stepDevice intOf) BootsShort poweredOff es) :
    Always (stepDevice intOf) DateFits poweredOff es := by
  apply always_of_everyStep (I := DateFits) _ _ es dateFits_poweredOff h
  · exact fun _ hd => hd
  · intro d e d' hd he hstep
    exact fits_next hd he (toOption_eq_some_iff.mp hstep)

/-- A boot that finds the record of January 2nd, and its display. -/
theorem january_always_fits :
    Always (stepDevice decimal) DateFits poweredOff
      [.boot savedInJanuary.file, .showRecord true true] := by
  have hboot : HasShortDate savedInJanuary.file :=
    (loadDate_fits_iff _).mp ⟨dateText ⟨0, 2, 3, 4⟩ ++ [0, 58, 48, 48, 0, 0, 0, 0],
      by decide +kernel, by decide, by decide, by decide⟩
  exact date_always_fits decimal _ ⟨hboot, fun _ _ => ⟨trivial, fun _ _ => trivial⟩⟩

/-- The first boot has no file, and the default takes 16 characters, one more than `showRecord`
has room for. -/
theorem firstBoot_not_fits :
    ¬ Always (stepDevice decimal) DateFits poweredOff [.boot none] ∧
      recordText 0 (defaultDate ++ [0, 0, 0, 0]) = .error .outOfBounds := by
  refine ⟨fun h => ?_, rfl⟩
  have hrun : ((run (stepDevice decimal) poweredOff [.boot none]).map Device.date) =
      some (defaultDate ++ [0, 0, 0, 0]) := by decide +kernel
  obtain ⟨d, hd, hdate⟩ := Option.map_eq_some_iff.mp hrun
  exact not_shortField_default (hdate ▸ (of_always h hd).field)

end Runs

end IpncRdk.SysCtrl
