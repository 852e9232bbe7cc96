import Chip8.Machine.Basic
import Chip8.Sprite

/-! # Executing an instruction

`Machine.execute` carries out one decoded instruction as if it had been fetched from the program
counter, and moves the program counter on.

* The flag register is written before the register of the result, so that an instruction with
  `x = F` ends with the result in `VF`.  All operands are read before the flag is written.
* Both shifts put the lowest bit of `Vx` into the flag, whichever register they shift and to
  whichever side.
* What may be refused is checked before anything is written: a full or empty call stack, a range
  of memory, a display without pixels. -/

namespace Chip8.Machine

/-- Moves the program counter on by `n` bytes. -/
def advance (m : Machine) (n : Int) : Machine := { m with pc := m.pc + n }

/-- Moves on to the next instruction, or to the one after it. -/
def skipIf (m : Machine) (skip : Bool) : Machine := m.advance (if skip then 4 else 2)

/-- Puts a byte into a register and moves on. -/
def setRegister (m : Machine) (x : Nat) (b : UInt8) : Machine :=
  { m with v := m.v.write x b }.advance 2

/-- Sets the flag, then puts the result into a register, and moves on. -/
def setResult (m : Machine) (x : Nat) (flag : Bool) (b : UInt8) : Machine :=
  { m with v := (m.v.setFlag flag).write x b }.advance 2

/-- The key named by the lowest four bits of a register. -/
def keyOf (m : Machine) (x : Nat) : Fin 16 :=
  ⟨(m.v.read x).toNat % 16, Nat.mod_lt _ (by decide)⟩

/-- The register that a shift takes: `Vx` in place, `Vy` otherwise. -/
def shiftSource (m : Machine) (x y : Nat) : UInt8 :=
  if m.dialect.shiftInPlace then m.v.read x else m.v.read y

/-- Does `action` if the `length` bytes at the index register are all in memory. -/
def withBlock (m : Machine) (length : Nat) (action : Nat → Outcome Unit) : Outcome Unit :=
  match Memory.check m.index length with
  | .ok () => action m.index.toNat
  | .error f => (.error f, m)

/-- Draws the sprite of `height` rows at the index register to the point `(Vx, Vy)`.  Each set
pixel switches the pixel under it, wrapping around the edges on its own.  The flag tells whether a
pixel went off. -/
def drawSprite (m : Machine) (x y height : Nat) : Outcome Unit :=
  m.withBlock height fun start =>
    let d := m.display
    if d.width = 0 ∨ d.height = 0 then (.error .emptyDisplay, m)
    else
      let points := Sprite.placed (m.memory.slice start height)
        (m.v.read x).toNat (m.v.read y).toNat d.width d.height
      let cleared := { m with v := m.v.setFlag false }
      match d.plot points with
      | .ok (display, hit) =>
          (.ok (), { cleared with display, v := cleared.v.setFlag hit }.advance 2)
      | .error f => (.error f, cleared)

/-- Carries out an instruction and moves the program counter on. -/
def execute (m : Machine) : Instruction → Outcome Unit
  | .clearDisplay => (.ok (), { m with display := m.display.clear false }.advance 2)
  | .ret =>
      match m.stack.pop with
      | .ok (pc, stack) => (.ok (), { m with pc, stack })
      | .error f => (.error f, m)
  | .jump address => (.ok (), { m with pc := address })
  | .call address =>
      match m.stack.push (m.pc + 2) with
      | .ok stack => (.ok (), { m with pc := address, stack })
      | .error f => (.error f, m)
  | .skipEqValue x value => (.ok (), m.skipIf ((m.v.read x).toNat = value))
  | .skipNeValue x value => (.ok (), m.skipIf ((m.v.read x).toNat ≠ value))
  | .skipEq x y => (.ok (), m.skipIf (m.v.read x = m.v.read y))
  | .loadValue x value => (.ok (), m.setRegister x (UInt8.ofNat value))
  | .addValue x value => (.ok (), m.setRegister x (m.v.read x + UInt8.ofNat value))
  | .move x y => (.ok (), m.setRegister x (m.v.read y))
  | .bitOr x y => (.ok (), m.setRegister x (m.v.read x ||| m.v.read y))
  | .bitAnd x y => (.ok (), m.setRegister x (m.v.read x &&& m.v.read y))
  | .bitXor x y => (.ok (), m.setRegister x (m.v.read x ^^^ m.v.read y))
  | .add x y =>
      let a := m.v.read x
      let b := m.v.read y
      (.ok (), m.setResult x (a.toNat + b.toNat > 0xFF) (a + b))
  | .sub x y =>
      let a := m.v.read x
      let b := m.v.read y
      (.ok (), m.setResult x (a > b) (a - b))
  | .shiftRight x y =>
      (.ok (), m.setResult x ((m.v.read x).toNat % 2 = 1) (m.shiftSource x y >>> 1))
  | .subFrom x y =>
      let a := m.v.read x
      let b := m.v.read y
      (.ok (), m.setResult x (b > a) (b - a))
  | .shiftLeft x y =>
      (.ok (), m.setResult x ((m.v.read x).toNat % 2 = 1) (m.shiftSource x y <<< 1))
  | .skipNe x y => (.ok (), m.skipIf (m.v.read x ≠ m.v.read y))
  | .loadIndex address => (.ok (), { m with index := address }.advance 2)
  | .jumpOffset x address =>
      let base := m.v.read (if m.dialect.offsetFromVx then x else 0)
      (.ok (), { m with pc := base.toNat + address })
  | .random x value =>
      let (b, random) := m.random.next
      (.ok (), { m with random }.setRegister x (b &&& UInt8.ofNat value))
  | .draw x y height => m.drawSprite x y height
  | .skipKeyDown x => (.ok (), m.skipIf (m.keypad.isDown (m.keyOf x)))
  | .skipKeyUp x => (.ok (), m.skipIf (!m.keypad.isDown (m.keyOf x)))
  | .readDelay x => (.ok (), m.setRegister x m.delay)
  | .waitKey x => (.ok (), m.advance (if m.keypad.isDown (m.keyOf x) then 2 else 0))
  | .setDelay x => (.ok (), { m with delay := m.v.read x }.advance 2)
  | .setSound x => (.ok (), { m with sound := m.v.read x }.advance 2)
  | .addIndex x =>
      let sum := m.index + (m.v.read x).toNat
      (.ok (), { m with index := sum % 0x10000, v := m.v.setFlag (sum > addressLimit) }.advance 2)
  | .loadGlyph x =>
      (.ok (), { m with
        index := Font.address + (m.v.read x).toNat % 16 * Font.glyphSize }.advance 2)
  | .storeDecimal x =>
      m.withBlock 3 fun start =>
        let n := m.v.read x
        (.ok (), { m with memory := m.memory.write start [n / 100, n / 10 % 10, n % 10] }.advance 2)
  | .storeRegisters x =>
      m.withBlock (x + 1) fun start =>
        (.ok (), { m with memory := m.memory.write start (m.v.firsts (x + 1)) }.advance 2)
  | .loadRegisters x =>
      m.withBlock (x + 1) fun start =>
        (.ok (), { m with v := m.v.writeFrom 0 (m.memory.slice start (x + 1)) }.advance 2)

end Chip8.Machine
