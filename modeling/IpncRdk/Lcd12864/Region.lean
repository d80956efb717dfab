import IpncRdk.Lcd12864.Gram

/-!
# Filling and clearing a region

`LCD12864_GRAM_Fill` and `LCD12864_GRAM_Clear` count with a `u16` and pass each position to a
function that takes a `u8`. Columns and rows from 256 on come back at the left and at the top.

* `Exact` — a region is filled, and nothing else has changed;
* `Reaches` — the pixels that the loop falls on;
* `exact_iff` — a region is exact where those outside of it have their colour already;
* `exact_forall_iff` — the regions that are exact whatever the screen shows.
-/

namespace IpncRdk.Lcd12864

/-- The columns from `xStart` to before `xEnd`, and the rows alike. -/
structure Region where
  xStart : U16
  yStart : U16
  xEnd : U16
  yEnd : U16
  deriving DecidableEq, Repr

/-- The double loop over a region. -/
def paint (on : Bool) (g : Gram) (r : Region) : Gram :=
  (List.range' r.xStart.val (r.xEnd.val - r.xStart.val)).foldl (fun g (i : ℕ) =>
    (List.range' r.yStart.val (r.yEnd.val - r.yStart.val)).foldl (fun g (j : ℕ) =>
      setPoint on g (u8 i) (u8 j)) g) g

/-- `LCD12864_GRAM_Fill` -/
def fill (g : Gram) (r : Region) : Gram := paint true g r

/-- `LCD12864_GRAM_Clear` -/
def clear (g : Gram) (r : Region) : Gram := paint false g r

/-! ## The property -/

/-- The position is in the region. -/
def Region.Has (r : Region) (x y : ℕ) : Prop :=
  (r.xStart.val ≤ x ∧ x < r.xEnd.val) ∧ r.yStart.val ≤ y ∧ y < r.yEnd.val

instance (r : Region) (x y : ℕ) : Decidable (r.Has x y) :=
  inferInstanceAs (Decidable ((_ ∧ _) ∧ _ ∧ _))

/-- The pixels of the region are `on`, and nothing else has changed, be it on the screen or behind
the buffer. -/
structure Exact (on : Bool) (g g' : Gram) (r : Region) : Prop where
  inside : ∀ x < 128, ∀ y < 64, r.Has x y → g'.pixel x y = on
  outside : ∀ x < 128, ∀ y < 64, ¬ r.Has x y → g'.pixel x y = g.pixel x y
  bytes : ∀ i ≥ 1024, g' i = g i

/-- A position of the region becomes this one where its column and its row become a `u8`. -/
def Region.Reaches (r : Region) (x y : ℕ) : Prop :=
  ∃ i j, r.Has i j ∧ i % 2 ^ 8 = x ∧ j % 2 ^ 8 = y

/-- The pixels that the loop falls on are in the region, or they are `on` before. -/
def Spared (on : Bool) (g : Gram) (r : Region) : Prop :=
  ∀ x < 128, ∀ y < 64, r.Reaches x y → r.Has x y ∨ g.pixel x y = on

/-! ## The loop -/

section Loop
variable {on : Bool} {g : Gram} {r : Region} {x y : ℕ}

lemma val_u8 (n : ℕ) : (u8 n).val = n % 2 ^ 8 := by
  show ((n : ℤ) % 2 ^ 8).toNat = n % 2 ^ 8
  omega

/-- The dots of a region, column by column. -/
def Region.dots (r : Region) (on : Bool) : List Dot :=
  (List.range' r.xStart.val (r.xEnd.val - r.xStart.val)).flatMap fun (i : ℕ) =>
    (List.range' r.yStart.val (r.yEnd.val - r.yStart.val)).map fun (j : ℕ) => ⟨u8 i, u8 j, on⟩

lemma paint_eq (on : Bool) (g : Gram) (r : Region) : paint on g r = setPoints g (r.dots on) := by
  unfold paint setPoints Region.dots
  rw [List.foldl_flatMap]
  simp only [List.foldl_map]

lemma mem_dots {d : Dot} :
    d ∈ r.dots on ↔ ∃ i j, r.Has i j ∧ d = ⟨u8 i, u8 j, on⟩ := by
  unfold Region.dots Region.Has
  simp only [List.mem_flatMap, List.mem_map, List.mem_range'_1]
  constructor
  · rintro ⟨i, hi, j, hj, rfl⟩
    exact ⟨i, j, by omega, rfl⟩
  · rintro ⟨i, j, hij, rfl⟩
    exact ⟨i, by omega, j, by omega, rfl⟩

lemma reaches_iff : r.Reaches x y ↔ ∃ d ∈ r.dots on, d.At x y := by
  unfold Region.Reaches Dot.At
  constructor
  · rintro ⟨i, j, hij, hi, hj⟩
    exact ⟨_, mem_dots.mpr ⟨i, j, hij, rfl⟩, (val_u8 i).trans hi, (val_u8 j).trans hj⟩
  · rintro ⟨d, hd, hx, hy⟩
    obtain ⟨i, j, hij, rfl⟩ := mem_dots.mp hd
    exact ⟨i, j, hij, (val_u8 i).symm.trans hx, (val_u8 j).symm.trans hy⟩

/-- A pixel of the screen has the colour exactly if the loop falls on it, or it is as it was. -/
lemma pixel_paint (hx : x < 128) (hy : y < 64) :
    (r.Reaches x y → (paint on g r).pixel x y = on) ∧
      (¬ r.Reaches x y → (paint on g r).pixel x y = g.pixel x y) := by
  rw [paint_eq]
  constructor
  · intro hreach
    refine pixel_setPoints_of_at hx hy (reaches_iff.mp hreach) fun d hd _ => ?_
    obtain ⟨i, j, -, rfl⟩ := mem_dots.mp hd
    rfl
  · intro hreach
    refine pixel_setPoints_of_not_at hx hy fun d hd hat => ?_
    exact hreach (reaches_iff.mpr ⟨d, hd, hat⟩)

/-- A pixel of the screen that is in the region is reached. -/
lemma reaches_of_has (hx : x < 128) (hy : y < 64) (h : r.Has x y) : r.Reaches x y :=
  ⟨x, y, h, Nat.mod_eq_of_lt (by omega), Nat.mod_eq_of_lt (by omega)⟩

lemma paint_exact_iff (on : Bool) (g : Gram) (r : Region) :
    Exact on g (paint on g r) r ↔ Spared on g r := by
  constructor
  · intro h x hx y hy hreach
    by_cases hhas : r.Has x y
    · exact .inl hhas
    · refine .inr ?_
      rw [← h.outside x hx y hy hhas, (pixel_paint hx hy).1 hreach]
  · intro h
    refine ⟨fun x hx y hy hhas => ?_, fun x hx y hy hhas => ?_, fun i hi => ?_⟩
    · exact (pixel_paint hx hy).1 (reaches_of_has hx hy hhas)
    · by_cases hreach : r.Reaches x y
      · rw [(pixel_paint hx hy).1 hreach]
        exact ((h x hx y hy hreach).resolve_left hhas).symm
      · exact (pixel_paint hx hy).2 hreach
    · rw [paint_eq]
      exact setPoints_outside g _ hi

/-- **Exactly which regions are filled and cleared as they should be.** For every screen and every
region. -/
theorem exact_iff (g : Gram) (r : Region) :
    (Exact true g (fill g r) r ↔ Spared true g r) ∧
      (Exact false g (clear g r) r ↔ Spared false g r) :=
  ⟨paint_exact_iff true g r, paint_exact_iff false g r⟩

/-- A region of one pixel to the right of the screen, at column 256: it sets the first pixel. -/
theorem fill_wraps : ¬ Exact true (fun _ => 0) (fill (fun _ => 0) ⟨256, 0, 257, 1⟩)
    ⟨256, 0, 257, 1⟩ := by
  intro h
  have hspared := (exact_iff _ _).1.mp h 0 (by decide) 0 (by decide)
    ⟨256, 0, by decide, rfl, rfl⟩
  rcases hspared with hhas | hset
  · exact absurd hhas (by decide)
  · exact absurd hset (by decide)

/-! ## The regions that are exact on every screen -/

/-- Some number from `first` to before `last` is below `limit` as a `u8`. -/
def Falls (first last limit : ℕ) : Prop := ∃ i, (first ≤ i ∧ i < last) ∧ i % 2 ^ 8 < limit

/-- A region that falls on no column or on no row of the screen, or that begins at 0 or ends by 256
both ways. -/
def Region.NoWrap (r : Region) : Prop :=
  ¬ Falls r.xStart.val r.xEnd.val 128 ∨ ¬ Falls r.yStart.val r.yEnd.val 64 ∨
    (r.xStart.val = 0 ∨ r.xEnd.val ≤ 2 ^ 8) ∧ (r.yStart.val = 0 ∨ r.yEnd.val ≤ 2 ^ 8)

/-- Numbers that begin at 0 or end by 256 stay among themselves as a `u8`, and no others do. -/
lemma falls_within_iff {first last limit : ℕ} (hlimit : limit ≤ 2 ^ 8)
    (hfalls : Falls first last limit) :
    (∀ i, first ≤ i ∧ i < last → i % 2 ^ 8 < limit → first ≤ i % 2 ^ 8 ∧ i % 2 ^ 8 < last) ↔
      first = 0 ∨ last ≤ 2 ^ 8 := by
  constructor
  · intro h
    by_contra! hnot
    obtain ⟨i, hi, hlow⟩ := hfalls
    rcases lt_or_ge first (2 ^ 8) with hfirst | hfirst
    · have hwrap := h (2 ^ 8) (by omega) (by omega)
      omega
    · have hwrap := h i hi hlow
      omega
  · rintro (hfirst | hlast) i hi hlow
    · have hle := Nat.mod_le i (2 ^ 8)
      omega
    · rw [Nat.mod_eq_of_lt (by omega)]
      exact hi

/-- The screen that shows all that is done to it is the one in the other colour. -/
lemma spared_forall_iff : (∀ g, Spared on g r) ↔
    ∀ x < 128, ∀ y < 64, r.Reaches x y → r.Has x y := by
  constructor
  · intro h x hx y hy hreach
    refine (h (blank !on) x hx y hy hreach).resolve_right fun hpixel => ?_
    rw [pixel_blank] at hpixel
    exact Bool.not_ne_self on hpixel
  · intro h g x hx y hy hreach
    exact .inl (h x hx y hy hreach)

/-- **The regions that are exact whatever the screen shows.** -/
theorem exact_forall_iff (on : Bool) (r : Region) :
    (∀ g, Exact on g (paint on g r) r) ↔ r.NoWrap := by
  simp only [paint_exact_iff]
  rw [spared_forall_iff]
  unfold Region.NoWrap
  by_cases hcols : Falls r.xStart.val r.xEnd.val 128
  swap
  · refine iff_of_true (fun x hx y hy hreach => ?_) (.inl hcols)
    obtain ⟨i, j, hij, rfl, rfl⟩ := hreach
    exact absurd ⟨i, hij.1, hx⟩ hcols
  by_cases hrows : Falls r.yStart.val r.yEnd.val 64
  swap
  · refine iff_of_true (fun x hx y hy hreach => ?_) (.inr (.inl hrows))
    obtain ⟨i, j, hij, rfl, rfl⟩ := hreach
    exact absurd ⟨j, hij.2, hy⟩ hrows
  rw [← falls_within_iff (by decide) hcols, ← falls_within_iff (by decide) hrows]
  simp only [hcols, hrows, not_true_eq_false, false_or]
  constructor
  · intro h
    obtain ⟨i₀, hi₀, hlow₀⟩ := hcols
    obtain ⟨j₀, hj₀, hlow₁⟩ := hrows
    constructor
    · intro i hi hlow
      exact (h _ hlow _ hlow₁ ⟨i, j₀, ⟨hi, hj₀⟩, rfl, rfl⟩).1
    · intro j hj hlow
      exact (h _ hlow₀ _ hlow ⟨i₀, j, ⟨hi₀, hj⟩, rfl, rfl⟩).2
  · rintro ⟨hx', hy'⟩ x hx y hy ⟨i, j, hij, rfl, rfl⟩
    exact ⟨hx' i hij.1 hx, hy' j hij.2 hy⟩

end Loop

end IpncRdk.Lcd12864
