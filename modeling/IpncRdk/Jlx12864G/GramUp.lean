import IpncRdk.Lcd12864.Picture
import IpncRdk.SpiLcd.Panel

/-!
# `JLX12864G.c`: the update of the panel

`JLX12864G_GRAM_Up` sends a part of the frame buffer to the controller, page by page, as the driver
does with the whole of it. A width of 128 it takes for one of 127.

* `gramUp` — the controller after an update;
* `Updated` — the part is on the display, and nothing else has changed;
* `updated_iff` — the widths below 128, and the displays that show the last column already;
* `updated_forall_iff` — the sizes that are right whatever is on the display.
-/

namespace IpncRdk.Jlx12864G

open Lib Lcd12864 SpiLcd

/-- `JLX12864G_X_OFFSET` -/
abbrev xOffset : ℕ := 0

/-- `JLX12864G_WriteCommand` -/
def writeCommand (p : Panel) (cmd : UInt8) : Panel :=
  ((p.setRs false).spiWrite cmd).setRs true

/-- `JLX12864G_SetPageAdd` -/
def setPageAdd (p : Panel) (pageAdd : U8) : Panel :=
  writeCommand p (UInt8.ofNat (0xb0 + pageAdd.val))

/-- `JLX12864G_SetLineAdd` -/
def setLineAdd (p : Panel) (lineAdd : U8) : Panel :=
  let lineAdd := (lineAdd.val + xOffset) % 2 ^ 8
  writeCommand (writeCommand p (UInt8.ofNat (0x10 + lineAdd >>> 4)))
    (UInt8.ofNat (0x00 + (lineAdd &&& 0x0f)))

/-- The inner loop: `w` bytes of a page. -/
def sendRow (p : Panel) (byte : ℕ → UInt8) (w : ℕ) : Panel :=
  (List.range w).foldl (fun p j => p.spiWrite (byte j)) p

/-- `JLX12864G_GRAM_Up`; `buff` is `LCD_BUFF`. -/
def gramUp (p : Panel) (buff : ℕ → ℕ → UInt8) (x y w h : U8) : Panel :=
  let w := if w.val > 127 then 127 else w.val
  let y := y.val / 8
  let h := h.val / 8
  (List.range h).foldl (fun p (i : ℕ) =>
    sendRow (setLineAdd (setPageAdd p (u8 (y + i : ℕ))) x) (fun j => buff (y + i) (x.val + j)) w) p

/-! ## The property -/

/-- The frame buffer of the driver with the same bytes. -/
def screenBase (buff : ℕ → ℕ → UInt8) : Vector UInt8 1024 :=
  Vector.ofFn fun k => buff (k.val / 128) (k.val % 128)

/-- The page and the column of a byte of the place. -/
def cell (r : Placement) (i j : ℕ) : ℕ × ℕ := (r.y.val / 8 + i, r.x.val + j)

/-- The place shows the bytes of the buffer, and all others are as they were. What `GRAM_UpAll`
leaves is what the driver leaves. -/
structure Updated (r : Placement) (buff : ℕ → ℕ → UInt8) (p p' : Panel) : Prop where
  place : ∀ i < r.h.val / 8, ∀ j < r.w.val,
    p'.ram (cell r i j).1 (cell r i j).2 = buff (cell r i j).1 (cell r i j).2
  others : ∀ page column, (∀ i < r.h.val / 8, ∀ j < r.w.val, cell r i j ≠ (page, column)) →
    p'.ram page column = p.ram page column
  upAll : r.x.val = 0 → r.y.val = 0 → r.w.val = 128 → r.h.val = 64 →
    ∃ q, showFb (screenInfo (screenBase buff)) p = .ok q ∧ p'.ram = q.ram

/-- The display shows the last column of the place already. -/
def LastShown (r : Placement) (buff : ℕ → ℕ → UInt8) (p : Panel) : Prop :=
  ∀ i < r.h.val / 8, p.ram (r.y.val / 8 + i) 127 = buff (r.y.val / 8 + i) 127

/-! ## The commands -/

section Commands
variable (p : Panel)

lemma writeCommand_eq (cmd : UInt8) : writeCommand p cmd = { (p.command cmd) with rs := true } :=
  lcdWriteCommand_eq p cmd

lemma setPageAdd_eq {pageAdd : U8} (h : pageAdd.val < 16) :
    setPageAdd p pageAdd = { p with page := pageAdd.val, rs := true } := by
  have hcmd : (UInt8.ofNat (0xb0 + pageAdd.val)).toNat = 176 + pageAdd.val := by
    rw [UInt8.toNat_ofNat']
    omega
  unfold setPageAdd
  rw [writeCommand_eq]
  unfold Panel.command
  rw [hcmd, if_pos (by omega), show (176 + pageAdd.val) % 16 = pageAdd.val by omega]

/-- Both halves of the column register are set. -/
lemma setLineAdd_eq (lineAdd : U8) :
    setLineAdd p lineAdd = { p with column := lineAdd.val, rs := true } := by
  have hlt := lineAdd.isLt
  unfold setLineAdd
  dsimp only
  generalize lineAdd.val = n at hlt ⊢
  have hmod : (n + xOffset) % 2 ^ 8 = n := Nat.mod_eq_of_lt hlt
  have hshift : n >>> 4 = n / 16 := Nat.shiftRight_eq_div_pow n 4
  have hmask : n &&& 0x0f = n % 16 := Nat.and_two_pow_sub_one_eq_mod n 4
  have hhigh : p.command (UInt8.ofNat (0x10 + n / 16)) =
      { p with column := n / 16 * 16 + p.column % 16 } := by
    have hcmd : (UInt8.ofNat (0x10 + n / 16)).toNat = 16 + n / 16 := by
      rw [UInt8.toNat_ofNat']
      omega
    unfold Panel.command
    rw [hcmd, if_neg (by omega), if_pos (by omega), show (16 + n / 16) % 16 = n / 16 by omega]
  have hlow (q : Panel) : q.command (UInt8.ofNat (0x00 + n % 16)) =
      { q with column := q.column / 16 * 16 + n % 16 } := by
    have hcmd : (UInt8.ofNat (0x00 + n % 16)).toNat = n % 16 := by
      rw [UInt8.toNat_ofNat']
      omega
    unfold Panel.command
    rw [hcmd, if_neg (by omega), if_neg (by omega), if_pos (by omega), Nat.mod_mod]
  rw [hmod, hshift, hmask, writeCommand_eq, writeCommand_eq, hhigh, hlow, Panel.mk.injEq]
  refine ⟨rfl, rfl, ?_, rfl⟩
  dsimp only
  omega

end Commands

/-! ## The loops -/

section Loops
variable {r : Placement} {buff : ℕ → ℕ → UInt8} {p : Panel}

/-- The RAM by page and column. -/
def cells (p : Panel) : ℕ × ℕ → UInt8 := fun c => p.ram c.1 c.2

lemma cells_data (p : Panel) (b : UInt8) :
    cells (p.data b) = Function.update (cells p) (p.page, p.column) b := by
  funext ⟨page, column⟩
  show Function.update p.ram p.page (Function.update (p.ram p.page) p.column b) page column = _
  by_cases hpage : page = p.page
  · subst hpage
    rw [Function.update_self]
    by_cases hcolumn : column = p.column
    · subst hcolumn
      rw [Function.update_self, Function.update_self]
    · have hne : (p.page, column) ≠ (p.page, p.column) := fun h => hcolumn (congrArg Prod.snd h)
      rw [Function.update_of_ne hcolumn, Function.update_of_ne hne]
      rfl
  · rw [Function.update_of_ne hpage, Function.update_of_ne fun h => hpage (congrArg Prod.fst h)]
    rfl

/-- A row of data goes to the columns from the address on. -/
lemma cells_sendRow (byte : ℕ → UInt8) {w : ℕ} (hw : p.column + w ≤ 128) (hrs : p.rs = true) :
    cells (sendRow p byte w) = stores (cells p)
        ((List.range w).map fun j => ((p.page, p.column + j), byte j)) ∧
      (sendRow p byte w).page = p.page ∧ (sendRow p byte w).column = p.column + w ∧
      (sendRow p byte w).rs = true := by
  unfold sendRow
  induction w with
  | zero => exact ⟨rfl, rfl, rfl, hrs⟩
  | succ w ih =>
    obtain ⟨hcells, hpage, hcolumn, hrs'⟩ := ih (by omega)
    rw [List.range_succ, List.foldl_append, List.map_append, stores_append, ← hcells]
    generalize (List.range w).foldl (fun p j => p.spiWrite (byte j)) p = q at *
    have hwrite : q.spiWrite (byte w) = q.data (byte w) := if_pos hrs'
    show cells (q.spiWrite (byte w)) = Function.update (cells q) _ _ ∧
      (q.spiWrite (byte w)).page = _ ∧ (q.spiWrite (byte w)).column = _ ∧
      (q.spiWrite (byte w)).rs = _
    rw [hwrite]
    refine ⟨?_, hpage, ?_, hrs'⟩
    · rw [cells_data, hpage, hcolumn]
    · show (q.column + 1) % 256 = _
      omega

/-- All rows of an update. -/
lemma gramUp_eq (r : Placement) (buff : ℕ → ℕ → UInt8) (p : Panel) :
    cells (gramUp p buff r.x r.y r.w r.h) = stores (cells p) (block (cell r)
      (fun i j => buff (cell r i j).1 (cell r i j).2) (r.h.val / 8) r.width) := by
  have hfits := r.x_le
  have hwidth := r.width_le
  have hpages : r.y.val / 8 + r.h.val / 8 ≤ 8 := by
    have hrows := r.y_le
    omega
  unfold gramUp
  dsimp only
  show cells ((List.range (r.h.val / 8)).foldl (fun p (i : ℕ) => sendRow _ _ r.width) p) = _
  generalize r.h.val / 8 = pages at hpages ⊢
  induction pages with
  | zero => rfl
  | succ n ih =>
    rw [List.range_succ, List.foldl_append, block_succ, stores_append, ← ih (by omega)]
    generalize (List.range n).foldl _ p = q
    show cells (sendRow (setLineAdd (setPageAdd q _) r.x) _ r.width) = _
    have hpage : (u8 (r.y.val / 8 + n : ℕ)).val = r.y.val / 8 + n := by
      show (((r.y.val / 8 + n : ℕ) : ℤ) % 2 ^ 8).toNat = _
      omega
    rw [setPageAdd_eq q (by omega), setLineAdd_eq, hpage]
    exact (cells_sendRow _ (show r.x.val + r.width ≤ 128 by omega) rfl).1

/-- Each byte has one page and one column. -/
lemma cell_inj {i i' j j' : ℕ} (h : cell r i j = cell r i' j') : i = i' ∧ j = j' := by
  obtain ⟨hpage, hcolumn⟩ := Prod.mk.inj h
  omega

/-- What the update sends. -/
lemma gramUp_cell {i j : ℕ} (hi : i < r.h.val / 8) (hj : j < r.width) :
    (gramUp p buff r.x r.y r.w r.h).ram (cell r i j).1 (cell r i j).2 =
      buff (cell r i j).1 (cell r i j).2 := by
  show cells (gramUp p buff r.x r.y r.w r.h) (cell r i j) = _
  rw [gramUp_eq]
  exact stores_block (fun i _ j _ i' _ j' _ => cell_inj) hi hj

lemma gramUp_of_ne {c : ℕ × ℕ} (h : ∀ i < r.h.val / 8, ∀ j < r.width, cell r i j ≠ c) :
    (gramUp p buff r.x r.y r.w r.h).ram c.1 c.2 = p.ram c.1 c.2 := by
  show cells (gramUp p buff r.x r.y r.w r.h) c = cells p c
  rw [gramUp_eq]
  exact stores_block_of_ne h

/-- The last of 128 columns is not sent. -/
lemma gramUp_last (hwidth : r.width = 127) (i : ℕ) :
    (gramUp p buff r.x r.y r.w r.h).ram (cell r i 127).1 (cell r i 127).2 =
      p.ram (cell r i 127).1 (cell r i 127).2 := by
  refine gramUp_of_ne fun i' _ j hj heq => ?_
  obtain ⟨-, hlast⟩ := cell_inj heq
  omega

/-- A display that shows the buffer, and is unchanged behind its columns and pages, is what the
driver leaves. -/
lemma showFb_same {p' : Panel}
    (hplace : ∀ page < 8, ∀ column < 128, p'.ram page column = buff page column)
    (hothers : ∀ page column, ¬ (page < 8 ∧ column < 128) →
      p'.ram page column = p.ram page column) :
    ∃ q, showFb (screenInfo (screenBase buff)) p = .ok q ∧ p'.ram = q.ram := by
  obtain ⟨q, hshow, hram⟩ := showFb_refines (screenBase buff) p
  refine ⟨q, hshow, ?_⟩
  funext page column
  rw [hram]
  by_cases hin : page < 8 ∧ column < 128
  · have hpage : (page * 128 + column) / 128 = page := by omega
    have hcolumn : (page * 128 + column) % 128 = column := by omega
    rw [dif_pos hin, hplace page hin.1 column hin.2]
    unfold screenBase
    rw [Vector.getElem_ofFn, hpage, hcolumn]
  · rw [dif_neg hin, hothers page column hin]

/-- What `GRAM_UpAll` has to leave. -/
lemma upAll_of_place {p' : Panel} (hx : r.x.val = 0) (hy : r.y.val = 0) (hw : r.w.val = 128)
    (hh : r.h.val = 64)
    (hplace : ∀ i < r.h.val / 8, ∀ j < r.w.val,
      p'.ram (cell r i j).1 (cell r i j).2 = buff (cell r i j).1 (cell r i j).2)
    (hothers : ∀ page column, (∀ i < r.h.val / 8, ∀ j < r.w.val, cell r i j ≠ (page, column)) →
      p'.ram page column = p.ram page column) :
    ∃ q, showFb (screenInfo (screenBase buff)) p = .ok q ∧ p'.ram = q.ram := by
  have hcell (i j : ℕ) : cell r i j = (i, j) := by
    unfold cell
    rw [hx, hy, Nat.zero_div, Nat.zero_add, Nat.zero_add]
  refine showFb_same (fun page hpage column hcolumn => ?_) fun page column hout => ?_
  · have hbyte := hplace page (by omega) column (by omega)
    rwa [hcell] at hbyte
  · refine hothers page column fun i hi j hj heq => hout ?_
    obtain ⟨rfl, rfl⟩ := Prod.mk.inj ((hcell i j).symm.trans heq)
    omega

/-- It is enough that the place shows the bytes. -/
lemma updated_of_place {r : Placement} {buff : ℕ → ℕ → UInt8} {p : Panel}
    (h : ∀ i < r.h.val / 8, ∀ j < r.w.val,
      (gramUp p buff r.x r.y r.w r.h).ram (cell r i j).1 (cell r i j).2 =
        buff (cell r i j).1 (cell r i j).2) : Updated r buff p (gramUp p buff r.x r.y r.w r.h) := by
  have hle := r.width_le
  have hothers : ∀ page column, (∀ i < r.h.val / 8, ∀ j < r.w.val, cell r i j ≠ (page, column)) →
      (gramUp p buff r.x r.y r.w r.h).ram page column = p.ram page column :=
    fun page column hne => gramUp_of_ne (c := (page, column)) fun i hi j hj =>
      hne i hi j (lt_of_lt_of_le hj hle)
  exact ⟨h, hothers, fun hx hy hw hh => upAll_of_place hx hy hw hh h hothers⟩

/-- An update less than 128 wide is right. -/
lemma updated_of_narrow {r : Placement} {buff : ℕ → ℕ → UInt8} {p : Panel} (h : r.w.val ≤ 127) :
    Updated r buff p (gramUp p buff r.x r.y r.w r.h) := by
  have hwidth : r.width = r.w.val := if_neg (not_lt.mpr h)
  exact updated_of_place fun i hi j hj => gramUp_cell hi (by omega)

/-- One that is 128 wide is right where the last column is on the display already. -/
lemma updated_wide_iff {r : Placement} {buff : ℕ → ℕ → UInt8} {p : Panel} (h : 127 < r.w.val) :
    Updated r buff p (gramUp p buff r.x r.y r.w r.h) ↔ LastShown r buff p := by
  have hfits := r.x_le
  have hw : r.w.val = 128 := by omega
  have hx : r.x.val = 0 := by omega
  have hwidth : r.width = 127 := if_pos h
  have hcell (i : ℕ) : cell r i 127 = (r.y.val / 8 + i, 127) := by
    unfold cell
    rw [hx, Nat.zero_add]
  constructor
  · intro hupdated i hi
    have hlast := hupdated.place i hi 127 (by omega)
    rw [gramUp_last hwidth, hcell] at hlast
    exact hlast
  · intro hlast
    refine updated_of_place fun i hi j hj => ?_
    rcases Nat.lt_or_ge j 127 with hin | hout
    · exact gramUp_cell hi (by omega)
    · obtain rfl : j = 127 := by omega
      rw [gramUp_last hwidth, hcell]
      exact hlast i hi

/-- **Exactly which updates are right.** For every buffer, every state of the controller and every
place. -/
theorem updated_iff (r : Placement) (buff : ℕ → ℕ → UInt8) (p : Panel) :
    Updated r buff p (gramUp p buff r.x r.y r.w r.h) ↔ r.w.val ≤ 127 ∨ LastShown r buff p := by
  rcases Nat.lt_or_ge 127 r.w.val with hwide | hnarrow
  · rw [updated_wide_iff hwide, or_iff_right (not_le.mpr hwide)]
  · exact iff_of_true (updated_of_narrow hnarrow) (.inl hnarrow)

/-- `GRAM_UpAll` of a buffer full of set pixels, on an empty display: the last column stays
empty. -/
theorem upAll_not_updated : ¬ Updated ⟨0, 0, 128, 64, by decide, by decide, by decide, by decide⟩
    (fun _ _ => 0xff) ⟨fun _ _ => 0, 0, 0, true⟩
    (gramUp ⟨fun _ _ => 0, 0, 0, true⟩ (fun _ _ => 0xff) 0 0 128 64) := by
  intro h
  have hlast := (updated_wide_iff
    (r := ⟨0, 0, 128, 64, by decide, by decide, by decide, by decide⟩) (by decide)).mp h
  exact absurd (hlast 0 (by decide)) (by decide)

/-- **The sizes that are right whatever is on the display.** -/
theorem updated_forall_iff (r : Placement) :
    (∀ buff p, Updated r buff p (gramUp p buff r.x r.y r.w r.h)) ↔
      r.w.val ≤ 127 ∨ r.h.val = 0 := by
  rcases Nat.lt_or_ge 127 r.w.val with hwide | hnarrow
  · simp only [updated_wide_iff hwide]
    rw [or_iff_right (not_le.mpr hwide)]
    have hdvd := r.h_dvd
    constructor
    · intro h
      by_contra hpages
      have hbyte := h (fun _ _ => 0) ⟨fun _ _ => 1, 0, 0, true⟩ 0 (by omega)
      dsimp only at hbyte
      exact absurd hbyte (by decide)
    · intro hnone buff p i hi
      omega
  · exact iff_of_true (fun buff p => updated_of_narrow hnarrow) (.inl hnarrow)

end Loops

end IpncRdk.Jlx12864G
