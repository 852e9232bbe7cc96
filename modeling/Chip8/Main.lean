import Chip8.Host.CommandLine
import Chip8.Host.Help
import Chip8.Host.Script
import Chip8.Host.Session

/-! # The program

`main` reads the command line and the program file, takes the events of the session from standard
input, one line for each turn, and prints what the session reports: messages to standard output,
pictures of the window to standard error.  Which session it is, and what it reports, is decided by
`Options.ofArguments` and `Session.run`. -/

namespace Chip8

/-- The contents of a file, or why it cannot be read.  A directory is opened without complaint and
refuses to be read. -/
def readProgram (path : String) : IO (Except FileError (List UInt8)) := do
  if path.toList.contains '\x00' then return .error .badCharacter
  try
    return .ok (← IO.FS.readBinFile path).toList
  catch
    | .inappropriateType none .. => return .error .isDirectory
    | .inappropriateType (some _) .. => return .error .notDirectory
    | .invalidArgument .. => return .error .tooLong
    | _ => return .error .missing

/-- The size of the window, and how many of its real pixels are on. -/
def Window.caption (w : Window) : String :=
  toString w.width ++ " x " ++ toString w.height ++ ", " ++ toString w.grid.litCount ++ " on"

/-- The window as text, one character for each pixel of the display below the caption. -/
def Window.text (w : Window) : String :=
  "\n".intercalate (w.caption :: (w.sample Display.standardWidth).map Grid.line)

/-- Prints a report and answers with the exit status. -/
def Report.print (r : Report) : IO UInt32 := do
  for message in r.log do
    for line in message.lines do
      IO.println line
  for frame in r.frames do
    IO.eprintln frame.text
  match r.status with
  | .ok status => return UInt32.ofNat status
  | .error failure =>
      IO.eprintln (Help.program ++ ": error: " ++ failure.message)
      return 1

end Chip8

open Chip8 in
/-- Runs a session as the command line says. -/
def main (arguments : List String) : IO UInt32 := do
  match Options.ofArguments arguments with
  | .error .help =>
      IO.print Help.text
      return 0
  | .error (.usage e) =>
      IO.eprint Help.usage
      IO.eprintln e.line
      return 2
  | .ok options =>
      let program ← readProgram options.rom
      let seed ← IO.rand 0 0xFFFFFFFF
      let script ← (← IO.getStdin).lines
      let batches := script.toList.map Event.ofLine
      (Session.run options program (.seeded (UInt64.ofNat seed)) batches).print
