import Chip8.Machine.Basic
import Chip8.Text.Hex

/-! # Events of the host

What happens at the host between two batches of instructions: the timer fires, a key of the
keyboard goes down or up, or the user closes the window.  Ten keys of the number pad and the
letters `a` to `f` stand for the sixteen keys of the machine, and the letter `q` quits.

A batch of events is handled from first to last, and the events behind a quit still count. -/

namespace Chip8

/-- A key of the host's keyboard. -/
inductive HostKey where
  /-- A digit on the number pad. -/
  | pad (digit : Fin 10)
  | letter (c : Char)
  | other
deriving DecidableEq, Repr

/-- The key of the machine that a key of the keyboard stands for. -/
def HostKey.target? : HostKey → Option (Fin 16)
  | pad d => some (d.castLE (by decide))
  | letter 'a' => some 0xA
  | letter 'b' => some 0xB
  | letter 'c' => some 0xC
  | letter 'd' => some 0xD
  | letter 'e' => some 0xE
  | letter 'f' => some 0xF
  | _ => none

/-- Whether the key quits. -/
def HostKey.Quits (k : HostKey) : Prop := k = letter 'q'

instance : DecidablePred HostKey.Quits := fun k => inferInstanceAs (Decidable (k = _))

/-- Something that happens at the host. -/
inductive Event where
  /-- A tick of the host's timer. -/
  | timer
  | quit
  | key (k : HostKey) (down : Bool)
  | other
deriving DecidableEq, Repr

namespace Event

/-- Whether the user asks to quit. -/
def Quits : Event → Prop
  | quit => True
  | key k _ => k.Quits
  | timer | other => False

instance : DecidablePred Quits := fun e => by cases e <;> unfold Quits <;> infer_instance

/-- What an event does to the machine. -/
def apply (m : Machine) : Event → Machine
  | timer => m.decrementTimers
  | key k down =>
      match k.target? with
      | some target => { m with keypad := m.keypad.set target down }
      | none => m
  | quit | other => m

/-- The line about a key of the machine going down or up. -/
def report? : Event → Option String
  | key k down =>
      k.target?.map fun target =>
        "Key " ++ Text.Hex.padded 1 target ++ (if down then " down" else " up")
  | _ => none

end Event

/-- Handles a batch of events.  The first component tells whether to go on. -/
def Machine.handle (m : Machine) (events : List Event) : Bool × Machine :=
  events.foldl (fun (running, m) e => (running && !decide e.Quits, Event.apply m e)) (true, m)

end Chip8
