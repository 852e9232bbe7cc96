import Chip8.Machine.Basic

/-! # Options of a session

What the user can choose on the command line, with the choices that stand when nothing is said.  A
quantity of the user is an integer, or `none` if the user left it without a number. -/

namespace Chip8

/-- The choices of the user. -/
structure Options where
  rom : String
  /-- The real pixels on each side of the square that stands for a pixel. -/
  scale : Option Int := some 10
  /-- The milliseconds between two batches of instructions. -/
  opDelay : Option Int := some 1
  /-- The instructions of a batch. -/
  ticks : Option Int := some 10
  dialect : Dialect := {}
  verbose : Bool := false
deriving DecidableEq, Repr

end Chip8
