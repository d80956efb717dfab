import IpncRdk.Lib.Accumulator
import IpncRdk.Lcd12864.Gram

/-!
# Drawing a line

`LCD12864_GRAM_DrawLine` adds the length of the line in each direction to an error of its own, and
moves by one where the error is beyond the longer of the two lengths. It counts the points in a
`u16`, one more than the line has, since the first comes twice.

* `lineLoop` — the points in their order;
* `stateAt`, `next_stateAt` — the variables of the loop after some rounds;
* `lineLoop_eq` — the points of a line of less than 65534;
* `line_terminates_iff` — no other line comes to an end.
-/

namespace IpncRdk.Lcd12864

open Lib

/-! ## One direction -/

/-- The coordinates of a direction at both ends of a line. -/
structure Axis where
  first : ℤ
  last : ℤ
  deriving DecidableEq, Repr

namespace Axis

/-- `incx` and `incy` -/
def inc (a : Axis) : ℤ :=
  if a.last - a.first > 0 then 1 else if a.last - a.first = 0 then 0 else -1

/-- `delta_x` and `delta_y`, in the end. -/
def delta (a : Axis) : ℤ :=
  if a.last - a.first > 0 then a.last - a.first
  else if a.last - a.first = 0 then a.last - a.first
  else -(a.last - a.first)

/-- The error and the coordinate after one round. -/
def advance (a : Axis) (distance err pos : ℤ) : ℤ × ℤ :=
  let err := err + a.delta
  if err > distance then (err - distance, pos + a.inc) else (err, pos)

/-- The length of the line in this direction. -/
def len (a : Axis) : ℕ := (a.last - a.first).natAbs

/-- The coordinate after `k` rounds, over a distance of `d`. -/
def pos (a : Axis) (d k : ℕ) : ℤ := a.first + a.inc * (accumulate a.len d k).2

variable {a : Axis} {d k : ℕ}

lemma delta_eq (a : Axis) : a.delta = a.len := by
  unfold delta len
  split_ifs <;> omega

lemma inc_mul_len (a : Axis) : a.inc * a.len = a.last - a.first := by
  unfold inc len
  split_ifs <;> omega

lemma advance_eq (a : Axis) (d k : ℕ) :
    a.advance d (accumulate a.len d k).1 (a.pos d k) =
      (((accumulate a.len d (k + 1)).1 : ℤ), a.pos d (k + 1)) := by
  unfold advance pos
  rw [delta_eq]
  rcases lt_or_ge d ((accumulate a.len d k).1 + a.len) with hover | hbelow
  · rw [accumulate_of_lt hover, if_pos (by omega)]
    dsimp only
    push_cast [hover.le]
    rw [mul_add, mul_one, add_assoc]
  · rw [accumulate_of_le hbelow, if_neg (by omega)]
    push_cast
    rfl

end Axis

/-! ## The loop -/

/-- The end points of a line. -/
structure Line where
  x1 : U16
  y1 : U16
  x2 : U16
  y2 : U16
  deriving DecidableEq, Repr

/-- The variables of the loop; `t` is a `u16`. -/
structure LineState where
  t : ℕ
  xerr : ℤ
  yerr : ℤ
  uRow : ℤ
  uCol : ℤ
  deriving DecidableEq, Repr

namespace Line

def xAxis (l : Line) : Axis := ⟨l.x1.val, l.x2.val⟩

def yAxis (l : Line) : Axis := ⟨l.y1.val, l.y2.val⟩

/-- `distance` -/
def distance (l : Line) : ℤ :=
  if l.xAxis.delta > l.yAxis.delta then l.xAxis.delta else l.yAxis.delta

def start (l : Line) : LineState := ⟨0, 0, 0, l.x1.val, l.y1.val⟩

/-- One round of the loop, after its point is drawn. -/
def next (l : Line) (s : LineState) : LineState where
  t := (s.t + 1) % 2 ^ 16
  xerr := (l.xAxis.advance l.distance s.xerr s.uRow).1
  yerr := (l.yAxis.advance l.distance s.yerr s.uCol).1
  uRow := (l.xAxis.advance l.distance s.xerr s.uRow).2
  uCol := (l.yAxis.advance l.distance s.yerr s.uCol).2

end Line

/-- The points that the loop draws from a state on, `none` where `fuel` rounds do not see its
end. -/
def lineLoop (l : Line) : ℕ → LineState → Option (List (ℤ × ℤ))
  | 0, _ => none
  | fuel + 1, s =>
    if s.t ≤ l.distance + 1 then
      (lineLoop l fuel (l.next s)).map fun points => (s.uRow, s.uCol) :: points
    else some []

/-- `LCD12864_GRAM_DrawLine` -/
def drawLine (fuel : ℕ) (g : Gram) (l : Line) : Option Gram :=
  (lineLoop l fuel l.start).map fun points =>
    setPoints g (points.map fun p => ⟨u8 p.1, u8 p.2, true⟩)

/-- `LCD12864_GRAM_DrawRectangle` -/
def drawRectangle (fuel : ℕ) (g : Gram) (x1 y1 x2 y2 : U16) : Option Gram := do
  let g ← drawLine fuel g ⟨x1, y1, x2, y1⟩
  let g ← drawLine fuel g ⟨x1, y1, x1, y2⟩
  let g ← drawLine fuel g ⟨x1, y2, x2, y2⟩
  drawLine fuel g ⟨x2, y1, x2, y2⟩

/-! ## The points -/

section Points
variable {l : Line} {fuel k : ℕ}

/-- The longer of the two lengths. -/
def Line.dist (l : Line) : ℕ := max l.xAxis.len l.yAxis.len

/-- The point after `k` rounds. -/
def Line.point (l : Line) (k : ℕ) : ℤ × ℤ := (l.xAxis.pos l.dist k, l.yAxis.pos l.dist k)

/-- The variables after `k` rounds. -/
def Line.stateAt (l : Line) (k : ℕ) : LineState where
  t := k % 2 ^ 16
  xerr := (accumulate l.xAxis.len l.dist k).1
  yerr := (accumulate l.yAxis.len l.dist k).1
  uRow := (l.point k).1
  uCol := (l.point k).2

lemma distance_eq (l : Line) : l.distance = l.dist := by
  unfold Line.distance Line.dist
  rw [Axis.delta_eq, Axis.delta_eq]
  split_ifs <;> omega

lemma start_eq (l : Line) : l.start = l.stateAt 0 := by
  simp [Line.start, Line.stateAt, Line.point, Axis.pos, accumulate, Line.xAxis, Line.yAxis]

/-- One round leads from one state to the next. -/
lemma next_stateAt (l : Line) (k : ℕ) : l.next (l.stateAt k) = l.stateAt (k + 1) := by
  have hx := l.xAxis.advance_eq l.dist k
  have hy := l.yAxis.advance_eq l.dist k
  simp only [Line.next, Line.stateAt, Line.point, distance_eq, hx, hy, Nat.mod_add_mod]

/-- The test of the loop. -/
lemma stateAt_t_le_iff (l : Line) (k : ℕ) :
    ((l.stateAt k).t : ℤ) ≤ l.distance + 1 ↔ k % 2 ^ 16 ≤ l.dist + 1 := by
  rw [distance_eq]
  show ((k % 2 ^ 16 : ℕ) : ℤ) ≤ l.dist + 1 ↔ _
  omega

/-- The points that are left after `k` rounds. -/
lemma lineLoop_stateAt (hlen : l.dist < 65534) {rest : ℕ} (hk : k + rest = l.dist + 2)
    (hfuel : rest < fuel) :
    lineLoop l fuel (l.stateAt k) = some ((List.range' k rest).map l.point) := by
  induction rest generalizing k fuel with
  | zero =>
    obtain ⟨fuel, rfl⟩ := Nat.exists_eq_succ_of_ne_zero hfuel.ne'
    rw [lineLoop, if_neg]
    · rfl
    · rw [stateAt_t_le_iff]
      omega
  | succ rest ih =>
    obtain ⟨fuel, rfl⟩ := Nat.exists_eq_succ_of_ne_zero (show fuel ≠ 0 by omega)
    rw [lineLoop, if_pos, next_stateAt, ih (by omega) (by omega)]
    · rfl
    · rw [stateAt_t_le_iff]
      omega

/-- The points of a line, the first one twice. -/
lemma lineLoop_eq (hlen : l.dist < 65534) (hfuel : l.dist + 2 < fuel) :
    lineLoop l fuel l.start = some ((List.range (l.dist + 2)).map l.point) := by
  rw [start_eq, lineLoop_stateAt hlen (Nat.zero_add _) hfuel, List.range_eq_range']

/-- The counter never gets beyond a longer line. -/
lemma lineLoop_of_long (hlen : 65534 ≤ l.dist) (fuel k : ℕ) :
    lineLoop l fuel (l.stateAt k) = none := by
  induction fuel generalizing k with
  | zero => rfl
  | succ fuel ih =>
    rw [lineLoop, if_pos, next_stateAt, ih, Option.map_none]
    rw [stateAt_t_le_iff]
    omega

/-! ## The end of the loop -/

/-- The loop is left, after as many rounds as the line is long and two more. -/
def Line.Leaves (l : Line) : Prop :=
  ∃ fuel points, lineLoop l fuel l.start = some points ∧ points.length = l.dist + 2

lemma leaves_iff (l : Line) : l.Leaves ↔ l.dist < 65534 := by
  constructor
  · rintro ⟨fuel, points, hloop, -⟩
    by_contra hlong
    rw [start_eq, lineLoop_of_long (not_lt.mp hlong)] at hloop
    cases hloop
  · intro hlen
    exact ⟨l.dist + 3, _, lineLoop_eq hlen (by omega), by simp⟩

lemma drawLine_of_short (hlen : l.dist < 65534) (g : Gram) :
    ∃ g', drawLine (2 ^ 16) g l = some g' := by
  unfold drawLine
  rw [lineLoop_eq hlen (by omega)]
  exact ⟨_, rfl⟩

lemma drawLine_of_long (hlen : 65534 ≤ l.dist) (g : Gram) : drawLine fuel g l = none := by
  unfold drawLine
  rw [start_eq, lineLoop_of_long hlen, Option.map_none]

/-- A rectangle has two lines in each direction. -/
lemma rectangle_iff (g : Gram) (x1 y1 x2 y2 : U16) :
    (∃ fuel g', drawRectangle fuel g x1 y1 x2 y2 = some g') ↔
      (⟨x1, y1, x2, y2⟩ : Line).dist < 65534 := by
  have hrow (y : U16) : (⟨x1, y, x2, y⟩ : Line).dist = (⟨x1, y1, x2, y2⟩ : Line).xAxis.len := by
    simp [Line.dist, Line.xAxis, Line.yAxis, Axis.len]
  have hcol (x : U16) : (⟨x, y1, x, y2⟩ : Line).dist = (⟨x1, y1, x2, y2⟩ : Line).yAxis.len := by
    simp [Line.dist, Line.xAxis, Line.yAxis, Axis.len]
  unfold drawRectangle
  constructor
  · rintro ⟨fuel, g', hdraw⟩
    simp only [Option.bind_eq_bind, Option.bind_eq_some_iff] at hdraw
    obtain ⟨g1, hline1, g2, hline2, -⟩ := hdraw
    by_contra hlong
    unfold Line.dist at hlong
    rcases le_total (⟨x1, y1, x2, y2⟩ : Line).xAxis.len (⟨x1, y1, x2, y2⟩ : Line).yAxis.len
      with hle | hle
    · rw [drawLine_of_long (by rw [hcol]; omega)] at hline2
      cases hline2
    · rw [drawLine_of_long (by rw [hrow]; omega)] at hline1
      cases hline1
  · intro hlen
    unfold Line.dist at hlen
    have hrow' (y : U16) := drawLine_of_short (show (⟨x1, y, x2, y⟩ : Line).dist < 65534 by
      rw [hrow]; omega)
    have hcol' (x : U16) := drawLine_of_short (show (⟨x, y1, x, y2⟩ : Line).dist < 65534 by
      rw [hcol]; omega)
    obtain ⟨g1, h1⟩ := hrow' y1 g
    obtain ⟨g2, h2⟩ := hcol' x1 g1
    obtain ⟨g3, h3⟩ := hrow' y2 g2
    obtain ⟨g4, h4⟩ := hcol' x2 g3
    refine ⟨2 ^ 16, g4, ?_⟩
    simp only [Option.bind_eq_bind, h1, h2, h3, Option.bind_some]
    exact h4

/-- A line leaves its loop, and the rectangle with the same corners is drawn, on every screen. -/
structure Terminates (x1 y1 x2 y2 : U16) : Prop where
  line : (⟨x1, y1, x2, y2⟩ : Line).Leaves
  rectangle : ∀ g, ∃ fuel g', drawRectangle fuel g x1 y1 x2 y2 = some g'

/-- **Exactly which lines come to an end.** For all corners. -/
theorem line_terminates_iff (x1 y1 x2 y2 : U16) :
    Terminates x1 y1 x2 y2 ↔ (⟨x1, y1, x2, y2⟩ : Line).dist < 65534 := by
  constructor
  · intro h
    exact (leaves_iff _).mp h.line
  · intro hlen
    exact ⟨(leaves_iff _).mpr hlen, fun g => (rectangle_iff g x1 y1 x2 y2).mpr hlen⟩

/-- A horizontal line of 65534 does not. -/
theorem longLine_not_terminates : ¬ Terminates 0 0 65534 0 := by
  rw [line_terminates_iff]
  decide

end Points

end IpncRdk.Lcd12864
