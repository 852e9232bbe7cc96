/-! # Program files

Why the file that holds a program cannot be read. -/

namespace Chip8

/-- Why a file cannot be read. -/
inductive FileError where
  | missing
  | isDirectory
  /-- A file stands where the path needs a directory. -/
  | notDirectory
  | badCharacter
  | tooLong
deriving DecidableEq, Repr

/-- The text shown to the user. -/
def FileError.message : FileError → String
  | missing => "there is no such file"
  | isDirectory => "the path leads to a directory"
  | notDirectory => "a part of the path is no directory"
  | badCharacter => "the path holds a character that no path can hold"
  | tooLong => "the path is too long"

end Chip8
