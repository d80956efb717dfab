import IpncRdk.Display.Show

/-!
# Which calls stay on the screen

* `AllOnScreen` — all pixels of a call are on the screen, and inside the frame buffer;
* `Fits` — the calls of which that is true;
* `picture_not_onScreen` — the picture is one row too high;
* `allOnScreen_iff` — one call, in the states that the counters allow;
* `drawing_onScreen_iff` — all runs.
-/

namespace IpncRdk.Display

open Lib SysCfg SysCtrl

/-- Every pixel of a call is on the screen, and written inside the frame buffer. -/
def AllOnScreen (m : Machine) (c : Call) : Prop :=
  ∀ p ∈ writes m c, OnScreen p ∧ p.index < lcdWidth * lcdHight

/-- The invocation of the state machine draws no picture and no `retry` text. -/
def MachineFits (m : Machine) (link hasMemory : Bool) : Prop :=
  (m.state = 3 → link = true) ∧
    (hasMemory = true → m.state ≠ 0 ∧ m.state ≠ 2 ∧ m.state ≠ 5 ∧
      (m.state = 1 → m.heatCount = 1 → link = true))

/-- The calls that stay on the screen: those that draw the picture do not, nor do the texts of
`airkissThr`, the `retry` text, and an address of 15 characters. -/
def Fits (m : Machine) : Call → Prop
  | .showRecord isShow hasMemory _ | .showReport isShow hasMemory _ _
  | .showWelcom isShow hasMemory => isShow = true ∧ hasMemory = false
  | .showWarning hasMemory => hasMemory = false
  | .showSysInfo ip => ip.a < 100 ∨ ip.b < 100 ∨ ip.c < 100 ∨ ip.d < 100
  | .execTaskStateMachine link hasMemory _ _ => MachineFits m link hasMemory
  | .airkissThr stops isGetSSID _ _ => stops = false ∨ isGetSSID = false
  | .showCamera _ | .showAirkissQRcode _ _ | .showSysTime _ | .showSysNet _ | .execTask => True

/-- The counters while they are shown. -/
structure Counting (m : Machine) : Prop where
  heat : m.state = 1 → 1 ≤ m.heatCount ∧ m.heatCount ≤ 50
  retry : m.state = 3 → 1 ≤ m.retryCount ∧ m.retryCount ≤ 30

/-! ## Lists of writes -/

section Lists
variable {xs ys : List Write}

lemma forall_onScreen_append : (∀ p ∈ xs ++ ys, OnScreen p) ↔
    (∀ p ∈ xs, OnScreen p) ∧ ∀ p ∈ ys, OnScreen p := List.forall_mem_append

lemma plain_append (hxs : ∀ p ∈ xs, p.Plain) (hys : ∀ p ∈ ys, p.Plain) :
    ∀ p ∈ xs ++ ys, p.Plain := List.forall_mem_append.mpr ⟨hxs, hys⟩

lemma onScreen_nil : ∀ p ∈ ([] : List Write), OnScreen p := List.forall_mem_nil _

lemma plain_nil : ∀ p ∈ ([] : List Write), p.Plain := List.forall_mem_nil _

end Lists

/-! ## The picture and the texts -/

/-- Row 240 of the picture is below the screen. -/
lemma picture_not_onScreen : ¬ ∀ p ∈ guiImageDraw 0 25 240 216, OnScreen p := by
  intro hall
  have hcorner := (onScreen_rect_iff (by decide) (by decide)).mp hall
  have hrow : 25 + 216 ≤ 240 := hcorner.2
  omega

lemma onScreen_picture_iff (hasMemory : Bool) :
    (∀ p ∈ picture hasMemory, OnScreen p) ↔ hasMemory = false := by
  cases hasMemory with
  | true => exact iff_of_false picture_not_onScreen (by decide)
  | false => exact iff_of_true onScreen_nil rfl

lemma plain_picture (hasMemory : Bool) : ∀ p ∈ picture hasMemory, p.Plain := by
  unfold picture
  split
  · exact fun p hp => plain_guiImageDraw hp
  · exact plain_nil

/-- A character of a text of glyphs. -/
lemma isGlyph_of_mem {text : List UInt8} (h : text.all isGlyph = true) {b : UInt8}
    (hb : b ∈ text) : isGlyph b = true := List.all_eq_true.mp h b hb

lemma isGlyph_of_mem_digits {n : ℕ} {b : UInt8} (hb : b ∈ digits n) : isGlyph b = true := by
  have hdigit := digit_of_mem_digits hb
  unfold isGlyph
  simp [hdigit.1, hdigit.2]

lemma isGlyph_of_mem_format02 {n : ℤ} {b : UInt8} (hb : b ∈ format02 n) : isGlyph b = true := by
  have hpad (width : ℕ) (hb : b ∈ padZeros width (digits n.natAbs)) : isGlyph b = true := by
    rcases List.mem_append.mp hb with hzero | hdigit
    · rw [List.eq_of_mem_replicate hzero]
      decide
    · exact isGlyph_of_mem_digits hdigit
  unfold format02 at hb
  split at hb
  · rcases List.mem_cons.mp hb with hsign | hb
    · rw [hsign]
      decide
    · exact hpad 1 hb
  · exact hpad 2 hb

/-- A text of glyphs only is drawn to its end. -/
lemma onScreen_glyphs_iff {x y : ℕ} {text : List UInt8} {fontSize : FontSize}
    (hglyphs : ∀ b ∈ text, isGlyph b = true) (hne : text ≠ []) :
    (∀ p ∈ guiDrawText x y text fontSize, OnScreen p) ↔
      x + text.length * fontSize.charw ≤ lcdWidth ∧ y + fontSize.charh ≤ lcdHight := by
  have hpos : text.length ≠ 0 := fun h => hne (List.length_eq_zero_iff.mp h)
  rw [onScreen_text_iff, List.takeWhile_eq_self_iff.mpr hglyphs]
  exact or_iff_right hpos

lemma length_dateText (now : Tm) : (dateText now).length = 12 := by
  have hmon : (format02 (now.mon + 1)).length = 2 := length_format02 (by omega) (by omega)
  have hmday : (format02 now.mday).length = 2 := length_format02 (by omega) (by omega)
  have hhour : (format02 now.hour).length = 2 := length_format02 (by omega) (by omega)
  have hmin : (format02 now.min).length = 2 := length_format02 (by omega) (by omega)
  unfold dateText
  simp only [List.length_append, hmon, hmday, hhour, hmin]
  rfl

/-- The `retry` text takes twelve characters, and there is room for six. -/
lemma retryText_not_onScreen {n : ℤ} (hlo : 1 ≤ n) (hhi : n ≤ 30) :
    ¬ ∀ p ∈ guiDrawText 160 169 (retryText n) .big, OnScreen p := by
  have hglyphs : ∀ b ∈ retryText n, isGlyph b = true := by
    intro b hb
    rcases List.mem_append.mp hb with hb | hb
    · rcases List.mem_append.mp hb with hb | hb
      · exact isGlyph_of_mem (by decide) hb
      · exact isGlyph_of_mem_format02 hb
    · exact isGlyph_of_mem (by decide) hb
  have hlen : (retryText n).length = 12 := by
    unfold retryText
    rw [List.length_append, List.length_append, length_format02 (by omega) (by omega)]
    rfl
  rw [onScreen_glyphs_iff hglyphs (List.ne_nil_of_length_pos (by omega)), hlen]
  decide

/-- The countdown of the heating takes two characters. -/
lemma onScreen_heatCount {n : ℤ} (hlo : 1 ≤ n) (hhi : n ≤ 50) :
    ∀ p ∈ guiDrawText 160 169 (format02 n) .big, OnScreen p := by
  refine onScreen_of_length ?_ (by decide)
  rw [length_format02 (by omega) (by omega)]
  decide

/-! ## Addresses -/

lemma length_digits_octet (o : UInt8) :
    (digits o.toNat).length ≤ 3 ∧ ((digits o.toNat).length ≤ 2 ↔ o < 100) := by
  have hlt : o.toNat < 256 := o.toNat_lt
  refine ⟨(length_digits_le_iff (by decide)).mpr (by omega), ?_⟩
  rw [length_digits_le_iff (by decide), UInt8.lt_iff_toNat_lt]
  rfl

/-- There is room for 14 characters of an address. -/
lemma onScreen_wlanText_iff (ip : InAddr) :
    (∀ p ∈ guiDrawText 8 130 (wlanText ip) .big, OnScreen p) ↔
      ip.a < 100 ∨ ip.b < 100 ∨ ip.c < 100 ∨ ip.d < 100 := by
  have hglyphs : ∀ b ∈ wlanText ip, isGlyph b = true := by
    intro b hb
    simp only [wlanText, inetNtoa, List.mem_append, List.mem_singleton] at hb
    rcases hb with hb | ((((((hb | hb) | hb) | hb) | hb) | hb) | hb)
    · exact isGlyph_of_mem (by decide) hb
    all_goals first | exact isGlyph_of_mem_digits hb | (rw [hb]; decide)
  have hlen : (wlanText ip).length = (digits ip.a.toNat).length + (digits ip.b.toNat).length
      + (digits ip.c.toNat).length + (digits ip.d.toNat).length + 8 := by
    simp only [wlanText, inetNtoa, List.length_append, List.length_cons, List.length_nil]
    omega
  rw [onScreen_glyphs_iff hglyphs (List.ne_nil_of_length_pos (by omega)), hlen]
  obtain ⟨ha, ha'⟩ := length_digits_octet ip.a
  obtain ⟨hb, hb'⟩ := length_digits_octet ip.b
  obtain ⟨hc, hc'⟩ := length_digits_octet ip.c
  obtain ⟨hd, hd'⟩ := length_digits_octet ip.d
  rw [← ha', ← hb', ← hc', ← hd']
  show 8 + _ * 12 ≤ 240 ∧ 130 + 24 ≤ 240 ↔ _
  omega

/-! ## One call -/

section Calls
variable {m : Machine}

lemma guiCleanScreen_not_onScreen : ¬ ∀ p ∈ guiCleanScreen 0 25 240 216, OnScreen p := by
  rw [guiCleanScreen_eq]
  exact picture_not_onScreen

/-- A screen with the picture, that is cleaned with the size of the picture too. -/
lemma onScreen_cleaned_iff {isShow hasMemory : Bool} {screen : List Write}
    (hpicture : ∀ p ∈ picture hasMemory, p ∈ screen) :
    (∀ p ∈ (if !isShow then guiCleanScreen 0 25 240 216 else if !hasMemory then [] else screen),
      OnScreen p) ↔ isShow = true ∧ hasMemory = false := by
  cases isShow with
  | false => exact iff_of_false guiCleanScreen_not_onScreen (by simp)
  | true =>
    cases hasMemory with
    | false => exact iff_of_true onScreen_nil ⟨rfl, rfl⟩
    | true =>
      refine iff_of_false (fun hall => ?_) (by simp)
      exact picture_not_onScreen fun p hp => hall p (hpicture p hp)

lemma onScreen_showRecord_iff (isShow hasMemory : Bool) (report : Report) :
    (∀ p ∈ showRecord isShow hasMemory report, OnScreen p) ↔
      isShow = true ∧ hasMemory = false :=
  onScreen_cleaned_iff fun _ hp => List.mem_append_left _ (List.mem_append_left _ hp)

lemma onScreen_showReport_iff (isShow hasMemory : Bool) (now : Tm) (report : Report) :
    (∀ p ∈ showReport isShow hasMemory now report, OnScreen p) ↔
      isShow = true ∧ hasMemory = false :=
  onScreen_cleaned_iff fun _ hp =>
    List.mem_append_left _ (List.mem_append_left _ (List.mem_append_left _ hp))

lemma onScreen_showWelcom_iff (isShow hasMemory : Bool) :
    (∀ p ∈ showWelcom isShow hasMemory, OnScreen p) ↔ isShow = true ∧ hasMemory = false := by
  cases isShow with
  | false => exact iff_of_false guiCleanScreen_not_onScreen (by simp)
  | true =>
    rw [and_iff_right rfl]
    exact onScreen_picture_iff hasMemory

lemma onScreen_showCamera (hasMemory : Bool) : ∀ p ∈ showCamera hasMemory, OnScreen p := by
  cases hasMemory with
  | false => exact onScreen_nil
  | true => exact (onScreen_rect_iff (by decide) (by decide)).mpr (by decide)

lemma onScreen_showAirkissQRcode (isShow hasMemory : Bool) :
    ∀ p ∈ showAirkissQRcode isShow hasMemory, OnScreen p := by
  have hrect : ∀ p ∈ guiImageDraw 41 65 160 158, OnScreen p :=
    (onScreen_rect_iff (by decide) (by decide)).mpr (by decide)
  cases isShow with
  | false => exact hrect
  | true =>
    cases hasMemory with
    | false => exact onScreen_nil
    | true => exact hrect

lemma onScreen_showSysInfo_iff (ip : InAddr) :
    (∀ p ∈ showSysInfo ip, OnScreen p) ↔
      ip.a < 100 ∨ ip.b < 100 ∨ ip.c < 100 ∨ ip.d < 100 := by
  unfold showSysInfo
  rw [forall_onScreen_append, onScreen_wlanText_iff]
  exact and_iff_right (onScreen_of_length (by decide) (by decide))

lemma onScreen_showSysTime (now : Tm) : ∀ p ∈ showSysTime now, OnScreen p := by
  refine onScreen_of_length ?_ (by decide)
  rw [length_dateText]
  decide

lemma onScreen_showSysNet (runState : RunState) : ∀ p ∈ showSysNet runState, OnScreen p := by
  have hleft : ∀ p ∈ guiImageDraw 150 0 24 20, OnScreen p :=
    (onScreen_rect_iff (by decide) (by decide)).mpr (by decide)
  have hright : ∀ p ∈ guiImageDraw 210 0 24 20, OnScreen p :=
    (onScreen_rect_iff (by decide) (by decide)).mpr (by decide)
  unfold showSysNet
  split
  · exact hright
  · exact forall_onScreen_append.mpr ⟨hright, hleft⟩

/-- The texts of `airkissThr` end four rows below the screen. -/
lemma onScreen_airkissThr_iff (stops isGetSSID : Bool) (assoc hasIp : ℕ → Bool) :
    (∀ p ∈ airkissThr stops isGetSSID assoc hasIp, OnScreen p) ↔
      stops = false ∨ isGetSSID = false := by
  cases stops with
  | false => exact iff_of_true onScreen_nil (.inl rfl)
  | true =>
  cases isGetSSID with
  | false => exact iff_of_true onScreen_nil (.inr rfl)
  | true =>
    refine iff_of_false (fun hall => ?_) (by decide)
    have hfirst : ∀ p ∈ countdownText (connectText 30), OnScreen p := fun p hp =>
      hall p (List.mem_append_left _ (List.mem_append_left _ hp))
    rcases onScreen_text_iff.mp hfirst with hnone | ⟨-, hrow⟩
    · exact absurd hnone (by decide)
    · exact absurd hrow (by decide)

/-- A call that draws the picture stays on the screen without memory only. -/
lemma onScreen_picture_iff_of {C : Prop} {hasMemory : Bool} (htrue : hasMemory = true → ¬ C)
    (hfalse : hasMemory = false → C) : (∀ p ∈ picture hasMemory, OnScreen p) ↔ C := by
  rw [onScreen_picture_iff]
  refine ⟨hfalse, fun hC => ?_⟩
  cases hasMemory with
  | true => exact absurd hC (htrue rfl)
  | false => rfl

/-- Without memory no picture is drawn. -/
lemma machineFits_of_noMemory {link : Bool} (h : m.state ≠ 3) : MachineFits m link false :=
  ⟨fun h3 => absurd h3 h, nofun⟩

/-- The last invocation shows the report, and with it the picture. -/
lemma onScreen_finish_iff (isValid hasMemory : Bool) (now : Tm) (report : Report) :
    (∀ p ∈ (finish isValid m).2.flatMap (actionWrites hasMemory now report), OnScreen p) ↔
      hasMemory = false := by
  have herror : ∀ p ∈ guiDrawText 48 74 checkError .big, OnScreen p :=
    onScreen_of_length (by decide) (by decide)
  have hreport := onScreen_showReport_iff true hasMemory now report
  rw [and_iff_right rfl] at hreport
  rw [← hreport]
  cases isValid with
  | true =>
    show (∀ p ∈ showReport true hasMemory now report ++ [], OnScreen p) ↔ _
    rw [List.append_nil]
  | false =>
    show (∀ p ∈ showReport true hasMemory now report ++
      (guiDrawText 48 74 checkError .big ++ []), OnScreen p) ↔ _
    rw [List.append_nil, forall_onScreen_append]
    exact and_iff_left herror

/-- What an invocation of the state machine draws. -/
lemma onScreen_branch_iff {link isValid : Bool} {r : Machine × List Action}
    (hcount : Counting m) (h : Branch link isValid m r) (hasMemory : Bool) (now : Tm)
    (report : Report) :
    (∀ p ∈ r.2.flatMap (actionWrites hasMemory now report), OnScreen p) ↔
      MachineFits m link hasMemory := by
  cases h with
  | begins h =>
    show (∀ p ∈ picture hasMemory ++ [], OnScreen p) ↔ _
    rw [List.append_nil]
    exact onScreen_picture_iff_of (fun hmem hfits => (hfits.2 hmem).1 h)
      fun hmem => hmem ▸ machineFits_of_noMemory (by omega)
  | light h hheat | counts h hheat =>
    show (∀ p ∈ guiDrawText 160 169 (format02 m.heatCount) .big ++ [], OnScreen p) ↔ _
    rw [List.append_nil]
    exact iff_of_true (onScreen_heatCount (hcount.heat h).1 (hcount.heat h).2)
      ⟨by omega, by omega⟩
  | endsUp h hheat hlink =>
    show (∀ p ∈ guiDrawText 160 169 (format02 m.heatCount) .big ++ [], OnScreen p) ↔ _
    rw [List.append_nil]
    exact iff_of_true (onScreen_heatCount (hcount.heat h).1 (hcount.heat h).2)
      ⟨by omega, fun _ => ⟨by omega, by omega, by omega, fun _ _ => hlink⟩⟩
  | endsDown h hheat hlink =>
    show (∀ p ∈ guiDrawText 160 169 (format02 m.heatCount) .big ++ (picture hasMemory ++ []),
      OnScreen p) ↔ _
    rw [List.append_nil, forall_onScreen_append,
      and_iff_right (onScreen_heatCount (hcount.heat h).1 (hcount.heat h).2)]
    refine onScreen_picture_iff_of (fun hmem hfits => ?_)
      fun hmem => hmem ▸ machineFits_of_noMemory (by omega)
    have hup : link = true := (hfits.2 hmem).2.2.2 h hheat
    exact absurd (hup.symm.trans hlink) (by decide)
  | checks h =>
    show (∀ p ∈ picture hasMemory ++ [], OnScreen p) ↔ _
    rw [List.append_nil]
    exact onScreen_picture_iff_of (fun hmem hfits => (hfits.2 hmem).2.1 h)
      fun hmem => hmem ▸ machineFits_of_noMemory (by omega)
  | linkUp h hlink => exact iff_of_true onScreen_nil ⟨fun _ => hlink, by omega⟩
  | givesUp h hlink _ | retries h hlink _ =>
    show (∀ p ∈ guiDrawText 160 169 (retryText m.retryCount) .big ++ [], OnScreen p) ↔ _
    rw [List.append_nil]
    refine iff_of_false (retryText_not_onScreen (hcount.retry h).1 (hcount.retry h).2) ?_
    exact fun hfits => absurd ((hfits.1 h).symm.trans hlink) (by decide)
  | uploads h => exact iff_of_true onScreen_nil ⟨by omega, by omega⟩
  | finishes h =>
    rw [onScreen_finish_iff]
    constructor
    · intro hmem
      exact hmem ▸ machineFits_of_noMemory (by omega)
    · intro hfits
      cases hasMemory with
      | true => exact absurd h (hfits.2 rfl).2.2.1
      | false => rfl
  | rests h => exact iff_of_true onScreen_nil ⟨by omega, by omega⟩

/-- Which calls stay on the screen, in the states that the counters allow. -/
lemma onScreen_iff (hcount : Counting m) (c : Call) :
    (∀ p ∈ writes m c, OnScreen p) ↔ Fits m c := by
  cases c with
  | showRecord isShow hasMemory report => exact onScreen_showRecord_iff isShow hasMemory report
  | showReport isShow hasMemory now report =>
    exact onScreen_showReport_iff isShow hasMemory now report
  | showCamera hasMemory => exact iff_of_true (onScreen_showCamera hasMemory) trivial
  | showAirkissQRcode isShow hasMemory =>
    exact iff_of_true (onScreen_showAirkissQRcode isShow hasMemory) trivial
  | showWelcom isShow hasMemory => exact onScreen_showWelcom_iff isShow hasMemory
  | showWarning hasMemory => exact onScreen_picture_iff hasMemory
  | showSysInfo ip => exact onScreen_showSysInfo_iff ip
  | showSysTime now => exact iff_of_true (onScreen_showSysTime now) trivial
  | showSysNet runState => exact iff_of_true (onScreen_showSysNet runState) trivial
  | execTask => exact iff_of_true onScreen_nil trivial
  | execTaskStateMachine link hasMemory now report =>
    exact onScreen_branch_iff hcount (execTaskStateMachine_branch link report.isValid m) hasMemory
      now report
  | airkissThr stops isGetSSID assoc hasIp =>
    exact onScreen_airkissThr_iff stops isGetSSID assoc hasIp

end Calls

/-! ## The index of a write -/

lemma plain_showReport (isShow hasMemory : Bool) (now : Tm) (report : Report) :
    ∀ p ∈ showReport isShow hasMemory now report, p.Plain := by
  have hresult : ∀ p ∈ (if report.result < 4 ∧ 0 ≤ report.result then
      guiImageDraw 120 172 56 18 else []), p.Plain := by
    split
    · exact fun _ => plain_guiImageDraw
    · exact plain_nil
  unfold showReport
  split
  · exact fun _ => plain_guiImageDraw
  split
  · exact plain_nil
  · refine plain_append (plain_append (plain_append (plain_picture _) ?_) hresult) ?_
    · exact fun _ => plain_guiDrawText
    · exact fun _ => plain_guiDrawText

lemma plain_connectLoop (assoc : ℕ → Bool) (timeout : ℕ) :
    ∀ p ∈ connectLoop assoc timeout, p.Plain := by
  induction timeout with
  | zero => exact plain_nil
  | succ timeout ih =>
    unfold connectLoop
    refine plain_append (fun _ => plain_guiDrawText) ?_
    split
    · exact plain_nil
    · exact ih

lemma plain_getIpLoop (hasIp : ℕ → Bool) (timeout : ℕ) :
    ∀ p ∈ getIpLoop hasIp timeout, p.Plain := by
  induction timeout with
  | zero => exact plain_nil
  | succ timeout ih =>
    unfold getIpLoop
    refine plain_append (fun _ => plain_guiDrawText) ?_
    split
    · exact fun _ => plain_guiDrawText
    · exact ih

lemma plain_actionWrites (hasMemory : Bool) (now : Tm) (report : Report) (a : Action) :
    ∀ p ∈ actionWrites hasMemory now report a, p.Plain := by
  cases a with
  | draw screen => exact plain_picture hasMemory
  | drawText x y text => exact fun _ => plain_guiDrawText
  | showReport => exact plain_showReport true hasMemory now report
  | _ => exact plain_nil

/-- Every write of a call has the index of the pixel that is meant. -/
lemma plain_writes (m : Machine) (c : Call) : ∀ p ∈ writes m c, p.Plain := by
  cases c with
  | showRecord isShow hasMemory report =>
    show ∀ p ∈ showRecord isShow hasMemory report, p.Plain
    unfold showRecord
    split_ifs
    · exact fun _ => plain_guiImageDraw
    · exact plain_nil
    · exact plain_append (plain_append (plain_picture _) fun _ => plain_guiDrawText)
        fun _ => plain_guiDrawText
  | showReport isShow hasMemory now report => exact plain_showReport isShow hasMemory now report
  | showCamera hasMemory =>
    cases hasMemory with
    | true => exact fun _ => plain_guiImageDraw
    | false => exact plain_nil
  | showAirkissQRcode isShow hasMemory =>
    show ∀ p ∈ showAirkissQRcode isShow hasMemory, p.Plain
    unfold showAirkissQRcode
    split_ifs
    · exact fun _ => plain_guiImageDraw
    · exact fun _ => plain_guiImageDraw
    · exact plain_nil
  | showWelcom isShow hasMemory =>
    cases isShow with
    | true => exact plain_picture hasMemory
    | false => exact fun _ => plain_guiImageDraw
  | showWarning hasMemory => exact plain_picture hasMemory
  | showSysInfo ip => exact plain_append (fun _ => plain_guiDrawText) fun _ => plain_guiDrawText
  | showSysTime now => exact fun _ => plain_guiDrawText
  | showSysNet runState =>
    show ∀ p ∈ showSysNet runState, p.Plain
    unfold showSysNet
    split
    · exact fun _ => plain_guiImageDraw
    · exact plain_append (fun _ => plain_guiImageDraw) (fun _ => plain_guiImageDraw)
  | execTask => exact plain_nil
  | execTaskStateMachine link hasMemory now report =>
    intro p hp
    obtain ⟨a, -, hp⟩ := List.mem_flatMap.mp hp
    exact plain_actionWrites hasMemory now report a p hp
  | airkissThr stops isGetSSID assoc hasIp =>
    show ∀ p ∈ airkissThr stops isGetSSID assoc hasIp, p.Plain
    unfold airkissThr
    split_ifs
    · exact plain_nil
    · exact plain_append (plain_connectLoop assoc 30) (plain_getIpLoop hasIp 30)
    · exact plain_nil

/-! ## Runs -/

lemma allOnScreen_iff {m : Machine} (hcount : Counting m) (c : Call) :
    AllOnScreen m c ↔ Fits m c := by
  rw [← onScreen_iff hcount c]
  constructor
  · intro hall p hp
    exact (hall p hp).1
  · intro hall p hp
    exact ⟨hall p hp, (plain_writes m c p hp).index_lt (hall p hp)⟩

/-- The counters run from 50 and from 30 down to 1 while they are shown. -/
lemma counting_branch {link isValid : Bool} {m : Machine} {r : Machine × List Action}
    (hcount : Counting m) (h : Branch link isValid m r) : Counting r.1 := by
  obtain ⟨hheat, hretry⟩ := hcount
  cases h with
  | finishes h =>
    have hstate : (finish isValid m).1.state = 6 := rfl
    exact ⟨by omega, by omega⟩
  | _ =>
    refine ⟨?_, ?_⟩
    all_goals
      simp only
      omega

lemma counting_after {m : Machine} (hcount : Counting m) (c : Call) : Counting (after m c) := by
  cases c with
  | execTask =>
    have hstate : (after m .execTask).state = 0 := rfl
    exact ⟨by omega, by omega⟩
  | execTaskStateMachine link _ _ report =>
    exact counting_branch hcount (execTaskStateMachine_branch link report.isValid m)
  | _ => exact hcount

lemma counting_start : Counting start :=
  ⟨fun h => absurd h (by decide), fun h => absurd h (by decide)⟩

/-- **When the application draws on the screen only.** In every run of the drawing calls all
pixels are on the screen, and inside the frame buffer, exactly if every call fits. -/
theorem drawing_onScreen_iff (calls : List Call) :
    EveryStep step AllOnScreen start calls ↔ EveryStep step Fits start calls := by
  refine everyStep_iff_of_invariant (I := Counting) (fun m c hm => allOnScreen_iff hm c)
    (fun m c m' hm _ hstep => ?_) calls counting_start
  exact Option.some.inj hstep ▸ counting_after hm c

/-- The record with the default date: its picture ends in row 240. -/
theorem showRecord_not_onScreen :
    ¬ EveryStep step AllOnScreen start [.showRecord true true ⟨defaultDate, 0, 0, false, 0⟩] := by
  rintro ⟨hall, -⟩
  have hlast : (⟨0, 240, 57600⟩ : Write) ∈ guiImageDraw 0 25 240 216 :=
    mem_guiImageDraw.mpr ⟨215, by decide, 0, by decide, rfl⟩
  have hon : OnScreen ⟨0, 240, 57600⟩ :=
    (hall _ (List.mem_append_left _ (List.mem_append_left _ hlast))).1
  exact absurd hon (by decide)

end IpncRdk.Display
