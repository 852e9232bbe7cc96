/-! # Instructions

The thirty-four instructions of the machine.  An instruction carries its operands as natural
numbers: register numbers `x` and `y`, an eight-bit constant `value`, a twelve-bit `address`, the
`height` of a sprite.  `Instruction.operands` lists them in the order in which they are declared,
each with its role, and `Instruction.InRange` says that every operand fits its place in a 16-bit
word.  The offset jump holds its register number twice, once as `x` and once as the top digit of
`address`, and is in range only if the two agree.

The words and what they do, with `nn` and `nnn` for constants of two and three hexadecimal digits,
`I` for the index register and `VF` for the flag register:

* **Control.** `1nnn` jumps, `2nnn` calls a subroutine and `00EE` returns.  `Bxnn` (`jumpOffset`)
  jumps to the address plus a register.
* **Skips.** `3xnn` and `4xnn` skip if `Vx` is `nn`, or is not; `5xy0` and `9xy0` if `Vx` is `Vy`,
  or is not; `Ex9E` and `ExA1` if the key `Vx` is down, or is up.
* **Registers.** `6xnn` loads `nn`, `7xnn` adds it and leaves the flag.  `8xy0` moves `Vy` to `Vx`,
  and `8xy1`, `8xy2`, `8xy3` combine them bit by bit (`bitOr`, `bitAnd`, `bitXor`).  `8xy4` adds,
  and the flag tells a carry.  `8xy5` (`Vx - Vy`) and `8xy7` (`subFrom`, `Vy - Vx`) subtract, and
  the flag tells that the first number is the greater one.  `8xy6` and `8xyE` shift by one bit to
  the right and to the left.  `Cxnn` loads a random byte, of which it keeps the bits of `nn`.
* **Index register.** `Annn` loads `nnn`.  `Fx1E` adds `Vx`, and the flag tells a sum beyond twelve
  bits.  `Fx29` points `I` at the glyph of the digit `Vx`.
* **Memory at `I`.** `Fx33` stores the three decimal digits of `Vx`.  `Fx55` stores `V0` to `Vx`,
  and `Fx65` loads them.
* **Display.** `00E0` turns all pixels off.  `Dxyn` draws the sprite of `n` rows at `I` to the point
  `(Vx, Vy)`.
* **Timers and keys.** `Fx07` reads the delay timer, `Fx15` and `Fx18` set the delay and the sound
  timer to `Vx`.  `Fx0A` stays where it is until the key `Vx` is down. -/

namespace Chip8

/-- An instruction with its operands. -/
inductive Instruction where
  | clearDisplay
  | ret
  | jump (address : Nat)
  | call (address : Nat)
  | skipEqValue (x value : Nat)
  | skipNeValue (x value : Nat)
  | skipEq (x y : Nat)
  | loadValue (x value : Nat)
  | addValue (x value : Nat)
  | move (x y : Nat)
  | bitOr (x y : Nat)
  | bitAnd (x y : Nat)
  | bitXor (x y : Nat)
  | add (x y : Nat)
  | sub (x y : Nat)
  | shiftRight (x y : Nat)
  | subFrom (x y : Nat)
  | shiftLeft (x y : Nat)
  | skipNe (x y : Nat)
  | loadIndex (address : Nat)
  | jumpOffset (x address : Nat)
  | random (x value : Nat)
  | draw (x y height : Nat)
  | skipKeyDown (x : Nat)
  | skipKeyUp (x : Nat)
  | readDelay (x : Nat)
  | waitKey (x : Nat)
  | setDelay (x : Nat)
  | setSound (x : Nat)
  | addIndex (x : Nat)
  | loadGlyph (x : Nat)
  | storeDecimal (x : Nat)
  | storeRegisters (x : Nat)
  | loadRegisters (x : Nat)
deriving DecidableEq, Repr

/-- The role of an operand. -/
inductive Operand where
  | x | y | value | address | height
deriving DecidableEq, Repr

/-- The least number that no longer fits the operand's place in a word. -/
def Operand.limit : Operand → Nat
  | x | y | height => 0x10
  | value => 0x100
  | address => 0x1000

namespace Instruction

/-- The operands in the order of their declaration. -/
def operands : Instruction → List (Operand × Nat)
  | clearDisplay | ret => []
  | jump a | call a | loadIndex a => [(.address, a)]
  | skipEqValue x n | skipNeValue x n | loadValue x n | addValue x n | random x n =>
      [(.x, x), (.value, n)]
  | skipEq x y | skipNe x y | move x y | bitOr x y | bitAnd x y | bitXor x y | add x y | sub x y
  | shiftRight x y | subFrom x y | shiftLeft x y => [(.x, x), (.y, y)]
  | jumpOffset x a => [(.x, x), (.address, a)]
  | draw x y h => [(.x, x), (.y, y), (.height, h)]
  | skipKeyDown x | skipKeyUp x | readDelay x | waitKey x | setDelay x | setSound x | addIndex x
  | loadGlyph x | storeDecimal x | storeRegisters x | loadRegisters x => [(.x, x)]

/-- Every operand fits its place, and an offset jump names one register. -/
def InRange (i : Instruction) : Prop :=
  (∀ p ∈ i.operands, p.2 < p.1.limit) ∧ ∀ x a, i = jumpOffset x a → x = a / 0x100

end Instruction

end Chip8
