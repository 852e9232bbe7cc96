import Chip8.Fault
import Chip8.Grid
import Chip8.Signed

/-! # The display

A `Display` is a picture with a declared size.  The size may be any pair of integers; a size of
zero or below has no columns, or no rows.  `(0, 0)` is the top left pixel.  `Display.create` refuses
a width that a stored row cannot have, unless there are no rows.

`get` and `flip` accept any integer coordinates and refuse a point outside the declared size, so
that a negative coordinate never selects a pixel from the far side.  Wrapping around the edges is
the business of the draw instruction.  `plot` flips a list of points in order and tells whether
one of them was on before; it stops at the first point outside. -/

namespace Chip8

/-- A picture with a declared size. -/
structure Display where
  width : Int
  height : Int
  grid : Grid width.toNat height.toNat

namespace Display

/-- The width of the standard display. -/
def standardWidth : Nat := 64

/-- The height of the standard display. -/
def standardHeight : Nat := 32

/-- The display of the given size with all pixels off. -/
def blank (width height : Int) : Display := ⟨width, height, Grid.fill _ _ false⟩

/-- The display of 64 columns and 32 rows with all pixels off. -/
def standard : Display := blank standardWidth standardHeight

/-- Why a display of some size cannot be stored. -/
inductive SizeError where
  /-- The width of the rows does not fit into 64 bits. -/
  | notRepresentable
  | tooLong
deriving DecidableEq, Repr

/-- The length of the longest row.  Rows have no such bound of their own, it is the memory at hand
that ends them; `2 ^ 32` stands for it. -/
def maxWidth : Int := 0x100000000

/-- The display of the given size with all pixels off, if its rows can be stored. -/
def create (width height : Int) : Except SizeError Display :=
  if height ≤ 0 then .ok (blank width height)
  else if ¬ Signed.Fits 64 width then .error .notRepresentable
  else if width > maxWidth then .error .tooLong
  else .ok (blank width height)

/-- Whether the point lies on the display. -/
def Contains (d : Display) (x y : Int) : Prop := (0 ≤ x ∧ x < d.width) ∧ (0 ≤ y ∧ y < d.height)

instance (d : Display) (x y : Int) : Decidable (d.Contains x y) :=
  inferInstanceAs (Decidable ((0 ≤ x ∧ x < d.width) ∧ (0 ≤ y ∧ y < d.height)))

/-- Whether the pixel at natural coordinates is on; off outside the display. -/
def lit (d : Display) (x y : Nat) : Bool := d.grid.lit x y

/-- Gives every pixel the same state. -/
def clear (d : Display) (on : Bool) : Display := { d with grid := Grid.fill _ _ on }

/-- Whether the pixel is on. -/
def get (d : Display) (x y : Int) : Except Fault Bool :=
  if d.Contains x y then .ok (d.grid.lit x.toNat y.toNat)
  else .error (.pixelOutside x y d.width d.height)

/-- Switches the pixel. -/
def flip (d : Display) (x y : Int) : Except Fault Display :=
  if d.Contains x y then .ok { d with grid := d.grid.toggle x.toNat y.toNat }
  else .error (.pixelOutside x y d.width d.height)

/-- Switches the points one after the other, and tells whether one of them was on when its turn
came. -/
def plot : List (Int × Int) → Display → Except Fault (Display × Bool)
  | [], d => .ok (d, false)
  | (x, y) :: points, d => do
      let on ← d.get x y
      let d ← d.flip x y
      let (d, hit) ← plot points d
      return (d, on || hit)

/-- The states of the pixels, row by row. -/
def toLists (d : Display) : List (List Bool) := d.grid.rows.toList.map (·.toList)

/-- The picture as text, one line per row. -/
def text (d : Display) : String := "\n".intercalate d.grid.lines

theorem get_eq_ok_iff {d : Display} {x y : Int} {on : Bool} :
    d.get x y = .ok on ↔ d.Contains x y ∧ d.lit x.toNat y.toNat = on := by
  unfold get lit
  split <;> simp_all

theorem get_eq_error_iff {d : Display} {x y : Int} {f : Fault} :
    d.get x y = .error f ↔ ¬ d.Contains x y ∧ f = .pixelOutside x y d.width d.height := by
  unfold get
  split <;> simp_all [eq_comm]

theorem flip_eq_error_iff {d : Display} {x y : Int} {f : Fault} :
    d.flip x y = .error f ↔ ¬ d.Contains x y ∧ f = .pixelOutside x y d.width d.height := by
  unfold flip
  split <;> simp_all [eq_comm]

end Display

end Chip8
