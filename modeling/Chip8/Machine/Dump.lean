import Chip8.Machine.Basic
import Chip8.Text.Hex

/-! # Register dumps

A table of the registers for a person to read: program counter, index register and depth of the
call stack on the first line, one line for each byte register, the timers on the last line.
Numbers are hexadecimal in columns filled with blanks, the depth alone is decimal.  Every line
ends in a line break. -/

namespace Chip8.Machine

open Text

/-- The registers as text. -/
def dump (m : Machine) : String :=
  "PC: " ++ Hex.spaced 4 m.pc ++ "  I: " ++ Hex.spaced 4 m.index
    ++ "  SP: " ++ String.ofList ((toString m.stack.size).toList.leftpad 2 ' ') ++ "\n"
    ++ String.join ((List.range Registers.count).map fun x =>
      "V" ++ Hex.padded 1 x ++ ": " ++ Hex.spaced 2 (m.v.read x).toNat ++ "\n")
    ++ "DT: " ++ Hex.spaced 2 m.delay.toNat ++ "  ST: " ++ Hex.spaced 2 m.sound.toNat ++ "\n"

end Chip8.Machine
