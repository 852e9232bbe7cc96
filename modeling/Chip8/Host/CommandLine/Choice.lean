import Chip8.Host.Help
import Chip8.Text.Quoted

/-! # Choices on the command line

What a user can choose, how each choice is named, and why a command line is refused.  A `Flag` needs
no value and a `Quantity` takes an integer.  `Switch` is either of them, as a single letter names
it.  `UsageError.message` holds all wording. -/

namespace Chip8

/-- A choice without a value. -/
inductive Flag where
  | help | legacyShift | fixedOffset | verbose
deriving DecidableEq, Repr

/-- A choice with a number. -/
inductive Quantity where
  | scale | opDelay | ticks
deriving DecidableEq, Repr

/-- A choice that is named by one letter. -/
inductive Switch where
  | flag (f : Flag)
  | quantity (q : Quantity)
deriving DecidableEq, Repr

/-- The name of a flag in messages. -/
def Flag.name : Flag → String
  | help => "-h/--help"
  | legacyShift => "--legacy-shift"
  | fixedOffset => "--no-chip48-jump"
  | verbose => "-v"

/-- The name of a quantity in messages. -/
def Quantity.name : Quantity → String
  | scale => "-s"
  | opDelay => "-d"
  | ticks => "-t"

/-- The choice that a letter names. -/
def Switch.ofLetter? : Char → Option Switch
  | 'h' => some (flag .help)
  | 'v' => some (flag .verbose)
  | 's' => some (quantity .scale)
  | 'd' => some (quantity .opDelay)
  | 't' => some (quantity .ticks)
  | _ => none

/-- The long names, in the order in which an ambiguity lists them. -/
def Flag.longNames : List (List Char × Flag) := [
  ("help".toList, help),
  ("legacy-shift".toList, legacyShift),
  ("no-chip48-jump".toList, fixedOffset)]

/-- Why a command line was refused. -/
inductive UsageError where
  /-- A shortened name fits more than one long name. -/
  | ambiguous (text : String) (names : List String)
  | missingValue (q : Quantity)
  | invalidValue (q : Quantity) (text : String)
  /-- A flag with a value. -/
  | ignoredValue (f : Flag) (text : String)
  | missingRom
  | unrecognized (texts : List String)
deriving DecidableEq, Repr

/-- The text shown to the user. -/
def UsageError.message : UsageError → String
  | ambiguous text names =>
      "ambiguous option: " ++ text ++ " could match " ++ ", ".intercalate names
  | missingValue q => "argument " ++ q.name ++ ": expected one argument"
  | invalidValue q text =>
      "argument " ++ q.name ++ ": invalid int value: " ++ Text.Quoted.encode text.toList
  | ignoredValue f text =>
      "argument " ++ f.name ++ ": ignored explicit argument " ++ Text.Quoted.encode text.toList
  | missingRom => "the following arguments are required: rom"
  | unrecognized texts => "unrecognized arguments: " ++ " ".intercalate texts

/-- The line shown to the user. -/
def UsageError.line (e : UsageError) : String := Help.program ++ ": error: " ++ e.message

end Chip8
