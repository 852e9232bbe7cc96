import Chip8.Instruction.Basic
import Chip8.Text.Hex

/-! # Mnemonics

The assembler text of an instruction.  Registers are `V` and one hexadecimal digit, addresses have
at least three digits, constants at least two.  Heads of three letters are followed by two blanks,
so that the operands of a listing line up. -/

namespace Chip8.Instruction

open Text

/-- The name of a register. -/
def registerName (x : Nat) : String := "V" ++ Hex.padded 1 x

/-- Two registers, separated by a comma. -/
def registerPair (x y : Nat) : String := registerName x ++ ", " ++ registerName y

/-- A register and a constant, separated by a comma. -/
def registerValue (x value : Nat) : String := registerName x ++ ", " ++ Hex.padded 2 value

/-- The assembler text of an instruction. -/
def mnemonic : Instruction → String
  | clearDisplay => "CLS"
  | ret => "RTS"
  | jump a => "JUMP " ++ Hex.padded 3 a
  | call a => "CALL " ++ Hex.padded 3 a
  | skipEqValue x n => "SKE  " ++ registerValue x n
  | skipNeValue x n => "SKNE " ++ registerValue x n
  | skipEq x y => "SKE  " ++ registerPair x y
  | loadValue x n => "LOAD " ++ registerValue x n
  | addValue x n => "ADD  " ++ registerValue x n
  | move x y => "LOAD " ++ registerPair x y
  | bitOr x y => "OR   " ++ registerPair x y
  | bitAnd x y => "AND  " ++ registerPair x y
  | bitXor x y => "XOR  " ++ registerPair x y
  | add x y => "ADD  " ++ registerPair x y
  | sub x y => "SUB  " ++ registerPair x y
  | shiftRight x y => "SHR  " ++ registerPair x y
  | subFrom x y => "SUBN " ++ registerPair x y
  | shiftLeft x y => "SHL  " ++ registerPair x y
  | skipNe x y => "SKNE " ++ registerPair x y
  | loadIndex a => "LOAD I, " ++ Hex.padded 3 a
  | jumpOffset x a => "JUMP [" ++ registerName x ++ "] + " ++ Hex.padded 3 a
  | random x n => "RAND " ++ registerValue x n
  | draw x y h => "DRAW " ++ registerPair x y ++ ", " ++ Hex.padded 1 h
  | skipKeyDown x => "SKPR " ++ registerName x
  | skipKeyUp x => "SKUP " ++ registerName x
  | readDelay x => "LOAD " ++ registerName x ++ ", DELAY"
  | waitKey x => "KEYD " ++ registerName x
  | setDelay x => "LOAD DELAY, " ++ registerName x
  | setSound x => "LOAD SOUND, " ++ registerName x
  | addIndex x => "ADD  I, " ++ registerName x
  | loadGlyph x => "LOAD I, SPRITE " ++ registerName x
  | storeDecimal x => "BCD  " ++ registerName x
  | storeRegisters x => "STOR [I], " ++ registerName x
  | loadRegisters x => "LOAD " ++ registerName x ++ ", [I]"

end Chip8.Instruction
