/-! # Sprites

A sprite is a column of rows, one byte each, eight pixels wide.  The highest bit of a byte is the
leftmost pixel.  `Sprite.points` lists the set pixels row by row, from left to right, as pairs of
column and row.  `Sprite.placed` moves them to a place on a picture of a given size, where each
pixel wraps around the edges on its own. -/

namespace Chip8.Sprite

/-- The width of a sprite. -/
def width : Nat := 8

/-- Whether the pixel in the given column of a row is set. -/
def isSet (row : UInt8) (column : Nat) : Bool := row.toNat.testBit (width - 1 - column)

/-- The set pixels of a sprite, as pairs of column and row. -/
def points (rows : List UInt8) : List (Nat × Nat) :=
  rows.zipIdx.flatMap fun (row, j) =>
    ((List.range width).filter (isSet row)).map fun i => (i, j)

/-- The set pixels of a sprite whose top left corner stands at `(x, y)`, reduced to a picture of
`w` columns and `h` rows.  The rest has the sign of the size, so nothing of it lies on a picture of
negative size. -/
def placed (rows : List UInt8) (x y w h : Int) : List (Int × Int) :=
  (points rows).map fun (i, j) => ((x.fmod w + i).fmod w, (y.fmod h + j).fmod h)

end Chip8.Sprite
