import Chip8.Text.Hex

/-! # Faults

Everything that can go wrong in the machine and its parts, one constructor per cause, with the
values that belong to it.  `Fault.message` holds all wording.

The first four causes are what a running program can do wrong, or a program image that is too
large; `Fault.IsProgramFault` names them.  A host reports such a fault and stops in good order.
The others are broken promises of a caller. -/

namespace Chip8

/-- Why an operation was refused. -/
inductive Fault where
  | unknownOpcode (word : Int)
  /-- The call stack is full; `address` was to be saved. -/
  | stackOverflow (address : Int)
  /-- A return, or a look at the top, on an empty call stack. -/
  | stackUnderflow
  | imageTooLarge (size : Nat) (offset : Int)
  | memoryRange (address : Int) (length : Nat)
  /-- A return address that is no 16-bit number. -/
  | returnAddress (address : Int)
  | unknownKey (key : Int)
  | pixelOutside (x y width height : Int)
  /-- A sprite cannot wrap around a display without columns or without rows. -/
  | emptyDisplay
deriving DecidableEq, Repr

namespace Fault

/-- Whether the running program, or the size of its image, is to blame. -/
def IsProgramFault : Fault → Prop
  | unknownOpcode _ | stackOverflow _ | stackUnderflow | imageTooLarge _ _ => True
  | _ => False

instance : DecidablePred IsProgramFault := fun f => by
  cases f <;> unfold IsProgramFault <;> infer_instance

open Text

/-- The text shown to the user. -/
def message : Fault → String
  | unknownOpcode word => "Unknown op-code: " ++ Hex.paddedInt 4 word
  | stackOverflow address =>
      "Stack overflow while pushing return address " ++ Hex.paddedInt 3 address
  | stackUnderflow => "Stack underflow: return without a matching call"
  | imageTooLarge size offset =>
      "ROM of " ++ toString size ++ " bytes does not fit in memory at " ++ Hex.paddedInt 3 offset
  | memoryRange address length =>
      "Memory access " ++ Hex.paddedInt 0 address ++ "+" ++ toString length
        ++ " is outside of 4096 bytes of memory"
  | returnAddress address =>
      "return address " ++ Hex.literal address ++ " does not fit in 16 bits"
  | unknownKey key => "Unknown key: " ++ toString key
  | pixelOutside x y width height =>
      "Pixel (" ++ toString x ++ ", " ++ toString y ++ ") is outside the "
        ++ toString width ++ " x " ++ toString height ++ " display"
  | emptyDisplay => "display without columns or without rows"

end Fault

end Chip8
