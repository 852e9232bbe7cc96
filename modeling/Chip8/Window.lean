import Chip8.Display

/-! # Windows

A `Window` is a picture of real pixels on which every pixel of a display is painted as a square of
`ratio` by `ratio` real pixels.  A square that reaches beyond an edge is clipped there.

* **Numbers.** A length or a coordinate is given as a number of 64 bits, of which the lower 32
  count, with their sign (`Window.units?`).  The point of a pixel that is read must fit into 32 bits
  itself.
* **Sizes.** `Window.create` refuses a size that no window can have.  A window asked for without
  width and height takes the size of the desktop, and a single side of zero becomes one.
* **Pictures.** `Window.draw` blanks the window and paints the pixels that are on, row by row.  It
  stops at the first square that the window refuses. -/

namespace Chip8

/-- Why a window refuses what it is asked for. -/
inductive WindowError where
  | sizeOutOfRange
  /-- A length or a coordinate is no number of 64 bits. -/
  | notRepresentable
  /-- A coordinate of a point is no number of 32 bits. -/
  | pointTooFar
  | pointOutside
deriving DecidableEq, Repr

/-- The text shown to the user. -/
def WindowError.message : WindowError → String
  | sizeOutOfRange => "a window of this size cannot be opened"
  | notRepresentable => "a length on the window does not fit in 64 bits"
  | pointTooFar => "a point of the window does not fit in 32 bits"
  | pointOutside => "a point lies outside the window"

/-- A picture of real pixels for squares of a given size. -/
structure Window where
  /-- The side of the square that stands for one pixel. -/
  ratio : Int
  width : Nat
  height : Nat
  grid : Grid width height

namespace Window

/-- A length or a coordinate in real pixels, as a window takes it. -/
def units? (n : Int) : Except WindowError Int :=
  if Signed.Fits 64 n then .ok (Signed.wrap 32 n) else .error .notRepresentable

/-- The largest side of a window. -/
def maxSide : Int := 16384

/-- The size of the desktop. -/
def desktop : Nat × Nat := (1024, 768)

/-- The blank window of the given size. -/
def blank (ratio : Int) (width height : Nat) : Window := ⟨ratio, width, height, Grid.fill _ _ false⟩

/-- Opens a blank window for `columns` by `rows` pixels. -/
def create (ratio columns rows : Int) : Except WindowError Window := do
  let width ← units? (columns * ratio)
  let height ← units? (rows * ratio)
  if width < 0 ∨ height < 0 ∨ width > maxSide ∨ height > maxSide then .error .sizeOutOfRange
  else if width = 0 ∧ height = 0 then .ok (blank ratio desktop.1 desktop.2)
  else .ok (blank ratio (max 1 width.toNat) (max 1 height.toNat))

/-- Turns all real pixels off. -/
def clear (w : Window) : Window := { w with grid := Grid.fill _ _ false }

/-- A square of real pixels, given by its top left corner and its side. -/
structure Square where
  left : Int
  top : Int
  side : Int
deriving DecidableEq, Repr

/-- The square that stands for a pixel. -/
def square? (w : Window) (x y : Int) : Except WindowError Square := do
  let left ← units? (x * w.ratio)
  let top ← units? (y * w.ratio)
  let side ← units? w.ratio
  return ⟨left, top, side⟩

/-- Paints a square as far as it lies inside the window.  A side of zero or below paints nothing. -/
def paintSquare (w : Window) (s : Square) (on : Bool) : Window :=
  { w with grid := w.grid.paint s.left s.top s.side s.side on }

/-- Paints the square that stands for a pixel. -/
def paint (w : Window) (x y : Int) (on : Bool) : Except WindowError Window := do
  return w.paintSquare (← w.square? x y) on

/-- Whether the top left corner of the square that stands for a pixel is on. -/
def get (w : Window) (x y : Int) : Except WindowError Bool :=
  let i := x * w.ratio
  let j := y * w.ratio
  if ¬ (Signed.Fits 32 i ∧ Signed.Fits 32 j) then .error .pointTooFar
  else if 0 ≤ i ∧ i < w.width ∧ 0 ≤ j ∧ j < w.height then .ok (w.grid.lit i.toNat j.toNat)
  else .error .pointOutside

/-- The points of a display that are on, row by row. -/
def litPoints (d : Display) : List (Nat × Nat) :=
  (List.range d.height.toNat).flatMap fun y =>
    ((List.range d.width.toNat).filter fun x => d.lit x y).map fun x => (x, y)

/-- Paints the squares that stand for points, in order, up to the first that is refused.  The window
keeps what was painted. -/
def paintAll : List (Nat × Nat) → Window → Except WindowError Unit × Window
  | [], w => (.ok (), w)
  | (x, y) :: points, w =>
      match w.square? x y with
      | .error e => (.error e, w)
      | .ok square => paintAll points (w.paintSquare square true)

/-- Shows a display and nothing else. -/
def draw (w : Window) (d : Display) : Except WindowError Unit × Window :=
  paintAll (litPoints d) w.clear

/-- The window seen through the top left corners of the equal squares that cover it, `columns` of
them side by side. -/
def sample (w : Window) (columns : Nat) : List (List Bool) :=
  let side := max 1 (w.width / columns)
  (corners side w.height).map fun y => (corners side w.width).map fun x => w.grid.lit x y
where
  /-- The multiples of `side` below `size`. -/
  corners (side size : Nat) : List Nat :=
    (List.range ((size + side - 1) / side)).map fun k => k * side

end Window

end Chip8
