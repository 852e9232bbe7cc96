/-! # Log messages

A message has a level and a text.  It is printed as `[LEVEL]:  text`; a text of several lines goes
on without a new mark, and a line break at its end leaves an empty line. -/

namespace Chip8

/-- How much a message matters. -/
inductive Level where
  | debug | info | error
deriving DecidableEq, Repr

/-- The name of a level in print. -/
def Level.name : Level → String
  | debug => "DEBUG"
  | info => "INFO"
  | error => "ERROR"

/-- A message with its level. -/
structure LogMessage where
  level : Level
  text : String
deriving DecidableEq, Repr

/-- The message in print. -/
def LogMessage.lines (m : LogMessage) : List String :=
  ("[" ++ m.level.name ++ "]:  " ++ m.text).splitOn "\n"

end Chip8
