import IpncRdk.Lib.CSemantics
import Mathlib.Logic.Function.Basic

/-!
# `lcd.c`: the refresh of the panel

`show_fb` sends the frame buffer to the controller of the panel: for every page its address,
the column address in two halves, and the bytes of the page. A byte is a command where the pin
`rs` is low, and data where it is high.

* `Panel` — the display RAM of the controller, its two address registers and the pin;
* `Filled` — the first bytes of the frame buffer are on the display;
* `showFb_filled` — what a refresh leaves in the display RAM;
* `showFb_refines` — the refresh of the whole display.
-/

namespace IpncRdk.SpiLcd

open Lib

/-! ## The controller -/

/-- The controller: its RAM by page and column, the two registers, and the pin `rs`. -/
structure Panel where
  ram : ℕ → ℕ → UInt8
  page : ℕ
  column : ℕ
  rs : Bool

/-- A command: `0xB0` and a page, `0x10` and the high half of a column, or `0x00` and the low
half. The others do not change what is modelled. -/
def Panel.command (p : Panel) (cmd : UInt8) : Panel :=
  if cmd.toNat / 16 = 0xb then { p with page := cmd.toNat % 16 }
  else if cmd.toNat / 16 = 1 then { p with column := cmd.toNat % 16 * 16 + p.column % 16 }
  else if cmd.toNat / 16 = 0 then { p with column := p.column / 16 * 16 + cmd.toNat % 16 }
  else p

/-- A byte of data, after which the column is the next one. -/
def Panel.data (p : Panel) (b : UInt8) : Panel :=
  { p with
    ram := Function.update p.ram p.page (Function.update (p.ram p.page) p.column b)
    column := (p.column + 1) % 256 }

/-- `gpio_set_value(pdata->rs_gpio, high)` -/
def Panel.setRs (p : Panel) (high : Bool) : Panel := { p with rs := high }

/-- `spi_write` of one byte. -/
def Panel.spiWrite (p : Panel) (b : UInt8) : Panel := if p.rs then p.data b else p.command b

/-! ## The driver -/

/-- `LCD_WriteCommand` -/
def lcdWriteCommand (p : Panel) (cmd : UInt8) : Panel :=
  ((p.setRs false).spiWrite cmd).setRs true

/-- `LCD_WriteData` -/
def lcdWriteData (p : Panel) (data : UInt8) : Panel := p.spiWrite data

/-- `JLX12864G_SetPageAdd` -/
def setPageAdd (p : Panel) (pageAdd : UInt8) : Panel := lcdWriteCommand p (0xb0 + pageAdd)

/-- `JLX12864G_SetLineAdd` -/
def setLineAdd (p : Panel) (lineAdd : UInt8) : Panel :=
  lcdWriteCommand (lcdWriteCommand p ((0x10 : UInt8) + (lineAdd >>> 4)))
    ((0x00 : UInt8) + (lineAdd &&& 0x0f))

/-- What `show_fb` reads of `fb_info`. -/
structure FbInfo where
  xres : UInt32
  yres : UInt32
  screenBase : List UInt8

/-- `p[k]` -/
def FbInfo.read (fbi : FbInfo) (k : ℕ) : Except Fault UInt8 :=
  match fbi.screenBase[k]? with
  | some b => .ok b
  | none => .error .outOfBounds

/-- `LCD_X_SIZE` -/
abbrev lcdXSize : UInt8 := 128

lemma toNat_succ_of_lt {i n : UInt8} (h : i < n) : (i + 1).toNat = i.toNat + 1 := by
  have hlt : i.toNat < n.toNat := UInt8.lt_iff_toNat_lt.mp h
  have hn : n.toNat < 256 := n.toNat_lt
  rw [UInt8.toNat_add, UInt8.toNat_one, Nat.mod_eq_of_lt (by omega)]

/-- The inner loop, from `j` on. -/
def showColumns (fbi : FbInfo) (w x y i j : UInt8) (p : Panel) : Except Fault Panel :=
  if h : j < w then do
    let b ← fbi.read ((i.toNat + y.toNat) * w.toNat + x.toNat + j.toNat)
    showColumns fbi w x y i (j + 1) (lcdWriteData p b)
  else .ok p
termination_by w.toNat - j.toNat
decreasing_by
  have hlt : j.toNat < w.toNat := UInt8.lt_iff_toNat_lt.mp h
  rw [toNat_succ_of_lt h]
  omega

/-- The outer loop, from `i` on. -/
def showPages (fbi : FbInfo) (w h x y i : UInt8) (p : Panel) : Except Fault Panel :=
  if hi : i < h then do
    let p ← showColumns fbi w x y i 0 (setLineAdd (setPageAdd p (y + i)) x)
    showPages fbi w h x y (i + 1) p
  else .ok p
termination_by h.toNat - i.toNat
decreasing_by
  have hlt : i.toNat < h.toNat := UInt8.lt_iff_toNat_lt.mp hi
  rw [toNat_succ_of_lt hi]
  omega

/-- The width that `show_fb` works with. -/
def FbInfo.width (fbi : FbInfo) : UInt8 :=
  if lcdXSize < fbi.xres.toUInt8 then lcdXSize else fbi.xres.toUInt8

/-- The number of pages that `show_fb` works with. -/
def FbInfo.pages (fbi : FbInfo) : UInt8 := fbi.yres.toUInt8 / 8

/-- `show_fb` -/
def showFb (fbi : FbInfo) (p : Panel) : Except Fault Panel :=
  showPages fbi fbi.width fbi.pages 0 (0 / 8) 0 p

/-! ## The addresses -/

section Addresses
variable (p : Panel)

lemma lcdWriteCommand_eq (cmd : UInt8) :
    lcdWriteCommand p cmd = { (p.command cmd) with rs := true } := by
  unfold lcdWriteCommand Panel.spiWrite Panel.setRs Panel.command
  simp only [Bool.false_eq_true, if_false]
  split_ifs <;> rfl

/-- The page register after its command. -/
lemma setPageAdd_eq {pageAdd : UInt8} (h : pageAdd.toNat < 16) :
    setPageAdd p pageAdd = { p with page := pageAdd.toNat, rs := true } := by
  have hcmd : (0xb0 + pageAdd).toNat = 176 + pageAdd.toNat := by
    rw [UInt8.toNat_add]
    show (176 + pageAdd.toNat) % 256 = _
    omega
  unfold setPageAdd
  rw [lcdWriteCommand_eq]
  unfold Panel.command
  rw [hcmd, if_pos (by omega)]
  have hpage : (176 + pageAdd.toNat) % 16 = pageAdd.toNat := by omega
  rw [hpage]

/-- Both halves of the column register are set, whatever it held before. -/
lemma setLineAdd_zero : setLineAdd p 0 = { p with column := 0, rs := true } := by
  have hhigh : p.command 0x10 = { p with column := p.column % 16 } := by
    simp [Panel.command]
  have hlow (q : Panel) : q.command 0x00 = { q with column := q.column / 16 * 16 } := by
    simp [Panel.command]
  unfold setLineAdd
  rw [lcdWriteCommand_eq, lcdWriteCommand_eq]
  show { (Panel.command { (p.command 0x10) with rs := true } 0x00) with rs := true } = _
  rw [hhigh, hlow]
  simp only [Panel.mk.injEq, true_and, and_true]
  omega

end Addresses

/-! ## The loops -/

/-- The first `n` bytes of the frame buffer are on the display, in rows of `w`; the other bytes
of the RAM are as they were. -/
def Filled (fbi : FbInfo) (w n : ℕ) (old ram : ℕ → ℕ → UInt8) : Prop :=
  ∀ page column, ram page column =
    if column < w ∧ page * w + column < n then fbi.screenBase.getD (page * w + column) 0
    else old page column

section Loops
variable {fbi : FbInfo} {p : Panel} {old : ℕ → ℕ → UInt8}

lemma filled_zero (w : ℕ) (ram : ℕ → ℕ → UInt8) : Filled fbi w 0 ram ram := by
  intro page column
  rw [if_neg (by omega)]

lemma read_of_lt {k : ℕ} (h : k < fbi.screenBase.length) :
    fbi.read k = .ok (fbi.screenBase.getD k 0) := by
  unfold FbInfo.read
  rw [List.getD_eq_getElem?_getD, List.getElem?_eq_getElem h]
  rfl

/-- The place of a byte in its row is its index. -/
lemma place_eq_iff {w page column i j : ℕ} (hc : column < w) (hj : j < w) :
    page * w + column = i * w + j ↔ page = i ∧ column = j := by
  constructor
  · intro h
    have hpage : page = i := by
      have hl : (page * w + column) / w = page := by
        rw [Nat.mul_comm, Nat.mul_add_div (by omega), Nat.div_eq_of_lt hc, Nat.add_zero]
      have hr : (i * w + j) / w = i := by
        rw [Nat.mul_comm, Nat.mul_add_div (by omega), Nat.div_eq_of_lt hj, Nat.add_zero]
      rw [← hl, h, hr]
    subst hpage
    exact ⟨rfl, by omega⟩
  · rintro ⟨rfl, rfl⟩
    rfl

/-- One byte of data puts the next byte of the frame buffer on the display. -/
lemma filled_data {w i j : ℕ} (hj : j < w) (hfilled : Filled fbi w (i * w + j) old p.ram)
    (hpage : p.page = i) (hcolumn : p.column = j) :
    Filled fbi w (i * w + (j + 1)) old (p.data (fbi.screenBase.getD (i * w + j) 0)).ram := by
  intro page column
  show Function.update p.ram p.page (Function.update (p.ram p.page) p.column _) page column = _
  rw [hpage, hcolumn]
  by_cases hhere : page = i ∧ column = j
  · obtain ⟨rfl, rfl⟩ := hhere
    rw [Function.update_self, Function.update_self, if_pos ⟨hj, by omega⟩]
  · have hold : Function.update p.ram i
        (Function.update (p.ram i) j (fbi.screenBase.getD (i * w + j) 0)) page column
          = p.ram page column := by
      by_cases hpage : page = i
      · subst hpage
        rw [Function.update_self, Function.update_of_ne fun hc => hhere ⟨rfl, hc⟩]
      · rw [Function.update_of_ne hpage]
    rw [hold, hfilled page column]
    by_cases hc : column < w
    · have hne : page * w + column ≠ i * w + j := fun h => hhere ((place_eq_iff hc hj).mp h)
      have hlt : page * w + column < i * w + (j + 1) ↔ page * w + column < i * w + j := by omega
      simp only [hlt]
    · rw [if_neg fun h => hc h.1, if_neg fun h => hc h.1]

/-- The inner loop sends the rest of a row. -/
lemma showColumns_filled {w i j : UInt8} (hw : w.toNat ≤ 128) (hj : j.toNat ≤ w.toNat)
    (hlen : (i.toNat + 1) * w.toNat ≤ fbi.screenBase.length)
    (hfilled : Filled fbi w.toNat (i.toNat * w.toNat + j.toNat) old p.ram)
    (hpage : p.page = i.toNat) (hcolumn : p.column = j.toNat) (hrs : p.rs = true) :
    ∃ p', showColumns fbi w 0 0 i j p = .ok p' ∧
      Filled fbi w.toNat ((i.toNat + 1) * w.toNat) old p'.ram := by
  induction hn : w.toNat - j.toNat generalizing j p with
  | zero =>
    have hend : j.toNat = w.toNat := by omega
    have hnot : ¬ j < w := fun h => by
      have := UInt8.lt_iff_toNat_lt.mp h
      omega
    refine ⟨p, ?_, ?_⟩
    · rw [showColumns, dif_neg hnot]
    · rw [Nat.add_mul, Nat.one_mul, ← hend]
      rwa [← hend] at hfilled
  | succ n ih =>
    have hlt : j.toNat < w.toNat := by omega
    have hj' : (j + 1).toNat = j.toNat + 1 := toNat_succ_of_lt (UInt8.lt_iff_toNat_lt.mpr hlt)
    have hindex : i.toNat * w.toNat + j.toNat < fbi.screenBase.length := by
      rw [Nat.add_mul, Nat.one_mul] at hlen
      omega
    have hread : fbi.read ((i.toNat + (0 : UInt8).toNat) * w.toNat + (0 : UInt8).toNat + j.toNat)
        = .ok (fbi.screenBase.getD (i.toNat * w.toNat + j.toNat) 0) := by
      rw [UInt8.toNat_zero, Nat.add_zero, Nat.add_zero]
      exact read_of_lt hindex
    have hwrite (b : UInt8) : lcdWriteData p b = p.data b := if_pos hrs
    obtain ⟨p', hshow, hfilled'⟩ :=
      ih (j := j + 1) (p := p.data (fbi.screenBase.getD (i.toNat * w.toNat + j.toNat) 0))
        (by omega) (by rw [hj']; exact filled_data hlt hfilled hpage hcolumn) hpage
        (by show (p.column + 1) % 256 = _; rw [hj', hcolumn]; omega) hrs (by omega)
    refine ⟨p', ?_, hfilled'⟩
    rw [showColumns, dif_pos (UInt8.lt_iff_toNat_lt.mpr hlt), hread]
    show showColumns fbi w 0 0 i (j + 1) (lcdWriteData p _) = _
    rw [hwrite, hshow]

/-- The outer loop sends the pages that are left. -/
lemma showPages_filled {w h i : UInt8} (hw : w.toNat ≤ 128) (hh : h.toNat ≤ 16)
    (hi : i.toNat ≤ h.toNat) (hlen : h.toNat * w.toNat ≤ fbi.screenBase.length)
    (hfilled : Filled fbi w.toNat (i.toNat * w.toNat) old p.ram) :
    ∃ p', showPages fbi w h 0 0 i p = .ok p' ∧
      Filled fbi w.toNat (h.toNat * w.toNat) old p'.ram := by
  induction hn : h.toNat - i.toNat generalizing i p with
  | zero =>
    have hend : i.toNat = h.toNat := by omega
    have hnot : ¬ i < h := fun hlt => by
      have := UInt8.lt_iff_toNat_lt.mp hlt
      omega
    refine ⟨p, ?_, hend ▸ hfilled⟩
    rw [showPages, dif_neg hnot]
  | succ n ih =>
    have hlt : i.toNat < h.toNat := by omega
    have hi' : (i + 1).toNat = i.toNat + 1 := toNat_succ_of_lt (UInt8.lt_iff_toNat_lt.mpr hlt)
    have hrow : (i.toNat + 1) * w.toNat ≤ fbi.screenBase.length :=
      (Nat.mul_le_mul_right w.toNat hlt).trans hlen
    have hpageAdd : (0 + i : UInt8) = i := UInt8.zero_add i
    -- the two addresses of the page
    have haddress : setLineAdd (setPageAdd p (0 + i)) 0
        = { p with page := i.toNat, column := 0, rs := true } := by
      rw [hpageAdd, setPageAdd_eq p (by omega), setLineAdd_zero]
    obtain ⟨p₁, hcolumns, hfilled₁⟩ := showColumns_filled (p := setLineAdd (setPageAdd p (0 + i)) 0)
      (j := 0) hw (by rw [UInt8.toNat_zero]; omega) hrow
      (by rw [haddress, UInt8.toNat_zero]; exact hfilled) (by rw [haddress])
      (by rw [haddress, UInt8.toNat_zero]) (by rw [haddress])
    obtain ⟨p', hpages, hfilled'⟩ := ih (i := i + 1) (p := p₁) (by omega)
      (by rw [hi']; exact hfilled₁) (by omega)
    refine ⟨p', ?_, hfilled'⟩
    rw [showPages, dif_pos (UInt8.lt_iff_toNat_lt.mpr hlt), hcolumns]
    exact hpages

end Loops

/-! ## A refresh -/

lemma width_le (fbi : FbInfo) : fbi.width.toNat ≤ 128 := by
  unfold FbInfo.width
  split
  · exact le_refl 128
  next h =>
    have := UInt8.lt_iff_toNat_lt.not.mp h
    have hsize : lcdXSize.toNat = 128 := rfl
    omega

/-- What a refresh leaves in the display RAM, for every resolution of at most 16 pages and every
frame buffer that has as many bytes. -/
theorem showFb_filled {fbi : FbInfo} (hpages : fbi.pages.toNat ≤ 16)
    (hlen : fbi.pages.toNat * fbi.width.toNat ≤ fbi.screenBase.length) (p : Panel) :
    ∃ p', showFb fbi p = .ok p' ∧
      Filled fbi fbi.width.toNat (fbi.pages.toNat * fbi.width.toNat) p.ram p'.ram := by
  have hstart : Filled fbi fbi.width.toNat ((0 : UInt8).toNat * fbi.width.toNat) p.ram p.ram := by
    rw [UInt8.toNat_zero, Nat.zero_mul]
    exact filled_zero _ _
  exact showPages_filled (width_le fbi) hpages (by rw [UInt8.toNat_zero]; omega) hlen hstart

/-- The frame buffer that `tft_lcd_fb_register` allocates. -/
def screenInfo (screenBase : Vector UInt8 1024) : FbInfo := ⟨128, 64, screenBase.toList⟩

/-- **A refresh shows the frame buffer.** Whatever the controller held before, the first 128
bytes of the first eight pages are those of the frame buffer, and no other byte is written. -/
theorem showFb_refines (screenBase : Vector UInt8 1024) (p : Panel) :
    ∃ p', showFb (screenInfo screenBase) p = .ok p' ∧
      ∀ page column, p'.ram page column =
        if h : page < 8 ∧ column < 128 then screenBase[page * 128 + column]
        else p.ram page column := by
  have hwidth : (screenInfo screenBase).width.toNat = 128 := rfl
  have hpages : (screenInfo screenBase).pages.toNat = 8 :=
    show ((64 : UInt32).toUInt8 / 8).toNat = 8 by decide
  have hsize : (screenInfo screenBase).screenBase.length = 1024 := by
    show screenBase.toList.length = 1024
    rw [Vector.length_toList]
  have hpages' : (screenInfo screenBase).pages.toNat ≤ 16 := by omega
  obtain ⟨p', hshow, hfilled⟩ := showFb_filled hpages' (by rw [hwidth, hpages, hsize]) p
  refine ⟨p', hshow, fun page column => ?_⟩
  rw [hwidth, hpages] at hfilled
  rw [hfilled page column]
  by_cases h : page < 8 ∧ column < 128
  · have hlt : page * 128 + column < 1024 := by omega
    rw [dif_pos h, if_pos ⟨h.2, by omega⟩]
    show screenBase.toList.getD (page * 128 + column) 0 = _
    rw [List.getD_eq_getElem?_getD, List.getElem?_eq_getElem (by rw [Vector.length_toList]; omega)]
    simp
  · rw [dif_neg h, if_neg (by omega)]

end IpncRdk.SpiLcd
