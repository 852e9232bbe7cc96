import Chip8.Instruction.Mnemonic
import Chip8.Machine.Execute

/-! # Running a machine

* `Machine.fetch` decodes the word at the program counter and changes nothing.
* `Machine.tick` fetches an instruction and carries it out.
* `Machine.run n` ticks `n` times and stops at the first fault.
* `Machine.trace n` does the same and keeps a record of every completed tick: where it started,
  what it carried out, and where it went. -/

namespace Chip8

/-- The record of a completed tick. -/
structure TraceEntry where
  pc : Int
  instruction : Instruction
  newPc : Int
deriving DecidableEq, Repr

/-- The record as a line of text, the mnemonic filled with blanks up to twenty characters. -/
def TraceEntry.text (t : TraceEntry) : String :=
  Text.Hex.paddedInt 3 t.pc ++ ": "
    ++ String.ofList (t.instruction.mnemonic.toList.rightpad 20 ' ')
    ++ " -> PC " ++ Text.Hex.paddedInt 3 t.newPc

namespace Machine

/-- The instruction at the program counter. -/
def fetch (m : Machine) : Except Fault Instruction := do
  Memory.check m.pc 2
  Instruction.decode (m.memory.word m.pc.toNat)

/-- Carries out the instruction at the program counter and answers with it. -/
def tick (m : Machine) : Outcome Instruction :=
  match m.fetch with
  | .error f => (.error f, m)
  | .ok i =>
      match m.execute i with
      | (.ok (), m') => (.ok i, m')
      | (.error f, m') => (.error f, m')

/-- Carries out the instruction of a word at the current program counter. -/
def executeWord (m : Machine) (word : Int) : Outcome Unit :=
  match Instruction.decode word with
  | .error f => (.error f, m)
  | .ok i => m.execute i

/-- Ticks `n` times, up to the first fault. -/
def run : Nat → Machine → Outcome Unit
  | 0, m => (.ok (), m)
  | n + 1, m =>
      match m.tick with
      | (.ok _, m') => run n m'
      | (.error f, m') => (.error f, m')

/-- Ticks `n` times, up to the first fault, with the records of the completed ticks in order. -/
def trace : Nat → Machine → List TraceEntry × Outcome Unit
  | 0, m => ([], .ok (), m)
  | n + 1, m =>
      match m.tick with
      | (.ok i, m') =>
          let (entries, outcome) := trace n m'
          (⟨m.pc, i, m'.pc⟩ :: entries, outcome)
      | (.error f, m') => ([], .error f, m')

theorem trace_snd (n : Nat) (m : Machine) : (trace n m).2 = run n m := by
  induction n generalizing m with
  | zero => rfl
  | succ n ih =>
    unfold trace run
    split <;> simp_all

end Machine

end Chip8
