import Chip8.Text.DecimalDigit

/-! # Reading decimal integers

The text of an integer is an optional sign, then digits.  Blanks around it are ignored, a single
underscore may stand between two digits, leading zeros are allowed, and the digits may be those of
any script.  More than 4300 digits are refused, leading zeros counted and underscores not. -/

namespace Chip8.Text.Integer

/-- The blanks that may surround a number: the ASCII blanks from tab to carriage return, the
space, and the blanks of Unicode beyond ASCII. -/
def isBlank (c : Char) : Bool :=
  let n := c.toNat
  (9 ≤ n && n ≤ 13) || n == 0x20 || n == 0x85 || n == 0xA0 || n == 0x1680
    || (0x2000 ≤ n && n ≤ 0x200A) || n == 0x2028 || n == 0x2029 || n == 0x202F || n == 0x205F
    || n == 0x3000

/-- The text without the blanks around it. -/
def trim (text : List Char) : List Char :=
  ((text.dropWhile isBlank).reverse.dropWhile isBlank).reverse

/-- The values of the digits, with at most one underscore between two of them. -/
def digits? : List Char → Option (List Nat)
  | [] => none
  | [c] => (DecimalDigit.value? c).map ([·])
  | c :: '_' :: rest => do return (← DecimalDigit.value? c) :: (← digits? rest)
  | c :: rest => do return (← DecimalDigit.value? c) :: (← digits? rest)

/-- The most digits a number may have. -/
def maxDigits : Nat := 4300

/-- The number with the given decimal digits. -/
def ofDigits (digits : List Nat) : Nat := digits.foldl (fun n d => 10 * n + d) 0

/-- The number written by digits without a sign. -/
def magnitude? (text : List Char) : Option Nat := do
  let digits ← digits? text
  if digits.length ≤ maxDigits then some (ofDigits digits) else none

/-- The integer written by a text. -/
def read? (text : String) : Option Int :=
  match trim text.toList with
  | '-' :: rest => (magnitude? rest).map fun n => -(n : Int)
  | '+' :: rest => (magnitude? rest).map fun n => (n : Int)
  | rest => (magnitude? rest).map fun n => (n : Int)

end Chip8.Text.Integer
