import Chip8.CallStack
import Chip8.Display
import Chip8.Font
import Chip8.Keypad
import Chip8.Memory
import Chip8.RandomSource
import Chip8.Registers

/-! # The machine

The whole state of a machine, and what a host does to it between instructions.

* **State.** Memory, the byte registers, an index register and a program counter, two timers, a
  call stack of sixteen entries, the display, the keypad and a source of random bytes.  Index
  register and program counter are integers: an instruction keeps the first within sixteen bits,
  and nothing wraps the second.
* **Dialects.** Interpreters of the past disagree on two points, which `Dialect` settles for each
  machine: which register the shifts take, and which register an offset jump adds.
* **Host calls.** Moving a key, counting the timers down, loading an image, resetting.  A call
  that can be refused answers with an `Outcome`: what came of it, and the machine it left
  behind. -/

namespace Chip8

/-- The two points on which interpreters disagree. -/
structure Dialect where
  /-- The shifts work on `Vx` in place, and do not read `Vy`. -/
  shiftInPlace : Bool := false
  /-- An offset jump adds `Vx`, where `x` is the top digit of the address, and not `V0`. -/
  offsetFromVx : Bool := true
deriving DecidableEq, Repr

/-- The number of return addresses the call stack of a machine holds. -/
def Machine.stackCapacity : Nat := 16

/-- The state of a machine. -/
structure Machine where
  dialect : Dialect
  memory : Memory
  /-- The byte registers. -/
  v : Registers
  index : Int
  pc : Int
  delay : UInt8
  sound : UInt8
  stack : CallStack Machine.stackCapacity
  display : Display
  keypad : Keypad
  random : RandomSource

/-- What came of an operation, and the machine it left behind. -/
abbrev Outcome (α : Type) := Except Fault α × Machine

namespace Machine

/-- Where programs are loaded and where they start. -/
def programStart : Nat := 0x200

/-- The highest address of twelve bits. -/
def addressLimit : Nat := 0xFFF

/-- Blanks registers, timers, call stack, display and keypad and goes to the start of the program.
Memory and random source stay as they are. -/
def reset (m : Machine) : Machine :=
  { m with
    v := .zero
    index := 0
    pc := programStart
    delay := 0
    sound := 0
    stack := ∅
    display := m.display.clear false
    keypad := .released }

/-- A machine with empty memory that shares the given display and keypad, after a reset. -/
def new (dialect : Dialect) (random : RandomSource) (display : Display := .standard)
    (keypad : Keypad := .released) : Machine :=
  reset {
    dialect, random, display, keypad
    memory := .zero
    v := .zero
    index := 0
    pc := 0
    delay := 0
    sound := 0
    stack := ∅ }

/-- Moves a key. -/
def setKey (m : Machine) (key : Int) (down : Bool) : Outcome Unit :=
  match m.keypad.set? key down with
  | .ok keypad => (.ok (), { m with keypad })
  | .error f => (.error f, m)

/-- One less, but never below zero. -/
def countDown (t : UInt8) : UInt8 := if t = 0 then 0 else t - 1

/-- Counts both timers down by one. -/
def decrementTimers (m : Machine) : Machine :=
  { m with delay := countDown m.delay, sound := countDown m.sound }

/-- Lays an image over memory.  An image that does not fit is refused as a whole. -/
def load (m : Machine) (data : List UInt8) (offset : Int := programStart) : Outcome Unit :=
  if Memory.Holds offset data.length then
    (.ok (), { m with memory := m.memory.write offset.toNat data })
  else (.error (.imageTooLarge data.length offset), m)

/-- Lays the built-in glyphs over memory. -/
def loadFont (m : Machine) (offset : Int := Font.address) : Outcome Unit :=
  m.load Font.glyphs offset

theorem exists_keypad_setKey (m : Machine) (key : Int) (down : Bool) :
    ∃ keypad, (m.setKey key down).2 = { m with keypad } := by
  unfold setKey
  split
  · exact ⟨_, rfl⟩
  · exact ⟨m.keypad, rfl⟩

theorem exists_memory_load (m : Machine) (data : List UInt8) (offset : Int) :
    ∃ memory, (m.load data offset).2 = { m with memory } := by
  unfold load
  split
  · exact ⟨_, rfl⟩
  · exact ⟨m.memory, rfl⟩

theorem toNat_countDown (t : UInt8) : (countDown t).toNat = t.toNat - 1 := by
  unfold countDown
  split
  · subst_vars; rfl
  · next nonzero =>
    have pos : 1 ≤ t.toNat := by
      have : t.toNat ≠ 0 := fun e => nonzero (UInt8.toNat_inj.mp (by simpa using e))
      omega
    have le : (1 : UInt8) ≤ t := by simpa [UInt8.le_iff_toNat_le] using pos
    simp [UInt8.toNat_sub_of_le _ _ le]

end Machine

end Chip8
