import Chip8.Fault
import Chip8.Instruction.Basic

/-! # Decoding words

A word is sixteen bits.  Its top digit selects a group, and the other three digits hold the
operands:

    group      x      y      n
    group      x     value
    group     address

Groups `8`, `E` and `F` select the instruction by their last digits as well.  Groups `5` and `9`
ignore the last digit.  `Instruction.ofWord?` answers `none` for a word without an instruction and
for every number of more than sixteen bits; `Instruction.decode` takes any integer and reports the
refused word. -/

namespace Chip8.Instruction

/-- The word with the given high and low byte. -/
def word (high low : UInt8) : Nat := high.toNat * 0x100 + low.toNat

/-- Group `8`: arithmetic and logic on two registers, selected by the last digit. -/
def arithmetic? (selector x y : Nat) : Option Instruction :=
  match selector with
  | 0x0 => some (move x y)
  | 0x1 => some (bitOr x y)
  | 0x2 => some (bitAnd x y)
  | 0x3 => some (bitXor x y)
  | 0x4 => some (add x y)
  | 0x5 => some (sub x y)
  | 0x6 => some (shiftRight x y)
  | 0x7 => some (subFrom x y)
  | 0xE => some (shiftLeft x y)
  | _ => none

/-- Group `E`: tests of a key, selected by the last two digits. -/
def keyTest? (selector x : Nat) : Option Instruction :=
  match selector with
  | 0x9E => some (skipKeyDown x)
  | 0xA1 => some (skipKeyUp x)
  | _ => none

/-- Group `F`: timers, index register and memory, selected by the last two digits. -/
def transfer? (selector x : Nat) : Option Instruction :=
  match selector with
  | 0x07 => some (readDelay x)
  | 0x0A => some (waitKey x)
  | 0x15 => some (setDelay x)
  | 0x18 => some (setSound x)
  | 0x1E => some (addIndex x)
  | 0x29 => some (loadGlyph x)
  | 0x33 => some (storeDecimal x)
  | 0x55 => some (storeRegisters x)
  | 0x65 => some (loadRegisters x)
  | _ => none

/-- The instruction of a word, if there is one. -/
def ofWord? (w : Nat) : Option Instruction :=
  let x := w / 0x100 % 0x10
  let y := w / 0x10 % 0x10
  let n := w % 0x10
  let value := w % 0x100
  let address := w % 0x1000
  match w / 0x1000 with
  | 0x0 => if w = 0x00E0 then some clearDisplay else if w = 0x00EE then some ret else none
  | 0x1 => some (jump address)
  | 0x2 => some (call address)
  | 0x3 => some (skipEqValue x value)
  | 0x4 => some (skipNeValue x value)
  | 0x5 => some (skipEq x y)
  | 0x6 => some (loadValue x value)
  | 0x7 => some (addValue x value)
  | 0x8 => arithmetic? n x y
  | 0x9 => some (skipNe x y)
  | 0xA => some (loadIndex address)
  | 0xB => some (jumpOffset x address)
  | 0xC => some (random x value)
  | 0xD => some (draw x y n)
  | 0xE => keyTest? value x
  | 0xF => transfer? value x
  | _ => none

/-- The instruction of an integer, or the fault that carries the integer unchanged. -/
def decode (w : Int) : Except Fault Instruction :=
  match if 0 ≤ w then ofWord? w.toNat else none with
  | some i => .ok i
  | none => .error (.unknownOpcode w)

end Chip8.Instruction
