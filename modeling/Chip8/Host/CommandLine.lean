import Chip8.Host.CommandLine.Argument
import Chip8.Host.Options
import Chip8.Text.Integer

/-! # The command line

`Settings.read` goes through the classified arguments from left to right and collects the choices;
`Options.ofArguments` makes the options of a session of them.

* A quantity takes the value joined to it, or else the next argument, provided that this is a
  value.  If the value joined to it is the text of the separator, the quantity is left without a
  number.
* The first value that no quantity takes is the program file.  Everything that is left over is
  reported in one message at the end.
* An ambiguous name is reported before anything else, the other errors when they are met, a missing
  program file after all arguments are read. -/

namespace Chip8

/-- Why no session is started. -/
inductive Exit where
  | help
  | usage (e : UsageError)
deriving DecidableEq, Repr

/-- What has been read so far. -/
structure Settings where
  rom : Option String := none
  scale : Option Int := some 10
  opDelay : Option Int := some 1
  ticks : Option Int := some 10
  dialect : Dialect := {}
  verbose : Bool := false
  unrecognized : Array String := #[]
deriving DecidableEq, Repr

namespace Settings

/-- Sets a flag.  Help ends the reading. -/
def setFlag (s : Settings) : Flag → Except Exit Settings
  | .help => .error .help
  | .legacyShift => .ok { s with dialect.shiftInPlace := true }
  | .fixedOffset => .ok { s with dialect.offsetFromVx := false }
  | .verbose => .ok { s with verbose := true }

/-- Sets flags in order. -/
def setFlags (s : Settings) (flags : List Flag) : Except Exit Settings :=
  flags.foldlM setFlag s

/-- Sets a quantity. -/
def setQuantity (s : Settings) (n : Option Int) : Quantity → Settings
  | .scale => { s with scale := n }
  | .opDelay => { s with opDelay := n }
  | .ticks => { s with ticks := n }

/-- Sets a quantity to what a text says. -/
def readQuantity (s : Settings) (q : Quantity) (text : String) : Except Exit Settings :=
  if text = Argument.separatorText then .ok (s.setQuantity none q)
  else
    match Text.Integer.read? text with
    | none => .error (.usage (.invalidValue q text))
    | some n => .ok (s.setQuantity n q)

/-- Sets an argument without a meaning aside. -/
def setAside (s : Settings) (text : String) : Settings :=
  { s with unrecognized := s.unrecognized.push text }

/-- Takes a value that belongs to no option: the first is the program file. -/
def takeValue (s : Settings) (text : String) : Settings :=
  match s.rom with
  | none => { s with rom := some text }
  | some _ => s.setAside text

/-- Goes through the arguments from left to right.  The separator disappears in front of the
program file and right behind it; elsewhere it has no meaning. -/
def read : List Argument → Settings → Except Exit Settings
  | [], s => .ok s
  | .value text :: .separator :: rest, s =>
      if s.rom = none then read rest { s with rom := some text }
      else read rest ((s.setAside text).setAside Argument.separatorText)
  | .value text :: rest, s => read rest (s.takeValue text)
  | .separator :: rest, s =>
      if s.rom = none then read rest s else read rest (s.setAside Argument.separatorText)
  | .unknown text :: rest, s => read rest (s.setAside text)
  | .name f none :: rest, s => do read rest (← s.setFlag f)
  | .name f (some text) :: _, _ => .error (.usage (.ignoredValue f text))
  | .letter switch joined :: rest, s =>
      match Joined.read switch joined with
      | .error e => .error (.usage e)
      | .ok ⟨flags, .done⟩ => do read rest (← s.setFlags flags)
      | .ok ⟨flags, .closed q text⟩ => do read rest (← (← s.setFlags flags).readQuantity q text)
      | .ok ⟨flags, .pending q⟩ =>
          match rest with
          | .value text :: rest => do read rest (← (← s.setFlags flags).readQuantity q text)
          | _ => .error (.usage (.missingValue q))

/-- The options of a session, if everything needed is there and nothing is left over. -/
def finish (s : Settings) : Except Exit Options :=
  match s.rom with
  | none => .error (.usage .missingRom)
  | some rom =>
      if s.unrecognized.isEmpty then
        .ok { rom, scale := s.scale, opDelay := s.opDelay, ticks := s.ticks, dialect := s.dialect,
              verbose := s.verbose }
      else .error (.usage (.unrecognized s.unrecognized.toList))

end Settings

/-- The options that a command line chooses. -/
def Options.ofArguments (arguments : List String) : Except Exit Options :=
  match Argument.ofTexts? arguments with
  | .error e => .error (.usage e)
  | .ok classified => do (← Settings.read classified {}).finish

end Chip8
