import Chip8.Text.Hex
import Chip8.Text.Printable

/-! # Quoted text

A text in quotation marks, for messages that cite what the user wrote.  The marks are single,
unless the text holds a single mark and no double one.  A mark of the kind used outside, and the
backslash, are written behind a backslash; line feed, carriage return and tab are written `\n`,
`\r` and `\t`; every other character that is not printable is written as a code of two, four or
eight small hexadecimal digits behind `\x`, `\u` or `\U`. -/

namespace Chip8.Text.Quoted

/-- A code point as small hexadecimal digits, filled with zeros. -/
def code (width n : Nat) : List Char :=
  (((Hex.digits n).leftpad width '0').map Char.toLower)

/-- One character inside the given marks. -/
def escape (mark c : Char) : List Char :=
  if c = mark ∨ c = '\\' then ['\\', c]
  else if c = '\n' then ['\\', 'n']
  else if c = '\r' then ['\\', 'r']
  else if c = '\t' then ['\\', 't']
  else if isPrintable c then [c]
  else if c.toNat < 0x100 then '\\' :: 'x' :: code 2 c.toNat
  else if c.toNat < 0x10000 then '\\' :: 'u' :: code 4 c.toNat
  else '\\' :: 'U' :: code 8 c.toNat

/-- The quotation mark that is put around a text. -/
def mark (text : List Char) : Char := if '\'' ∈ text ∧ '"' ∉ text then '"' else '\''

/-- The text in quotation marks. -/
def encode (text : List Char) : String :=
  let q := mark text
  String.ofList ([q] ++ text.flatMap (escape q) ++ [q])

end Chip8.Text.Quoted
