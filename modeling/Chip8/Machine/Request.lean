import Chip8.Machine.Run

/-! # Requests of a host

A `Request` is one thing that a host asks of a machine, and `Machine.perform` does it.  A history
of a machine is a list of requests; `Machine.performAll` goes through one and keeps what came of
each.  A refused request does not stop the ones behind it. -/

namespace Chip8

/-- What a host may ask of a machine. -/
inductive Request where
  | tick
  | fetch
  /-- Tick a number of times, not at all for a number below one. -/
  | run (ticks : Int)
  | execute (word : Int)
  | setKey (key : Int) (down : Bool)
  | decrementTimers
  | reset
  | load (data : List UInt8) (offset : Int)
  | loadFont (offset : Int)
deriving DecidableEq, Repr

namespace Machine

/-- Does what the host asks.  Only a tick and a fetch answer with an instruction. -/
def perform (m : Machine) : Request → Outcome (Option Instruction)
  | .tick => (m.tick.1.map some, m.tick.2)
  | .fetch => (m.fetch.map some, m)
  | .run ticks => silent (run ticks.toNat m)
  | .execute word => silent (m.executeWord word)
  | .setKey key down => silent (m.setKey key down)
  | .decrementTimers => (.ok none, m.decrementTimers)
  | .reset => (.ok none, m.reset)
  | .load data offset => silent (m.load data offset)
  | .loadFont offset => silent (m.loadFont offset)
where
  /-- An outcome without an instruction to answer with. -/
  silent (o : Outcome Unit) : Outcome (Option Instruction) := (o.1.map fun _ => none, o.2)

/-- Goes through a list of requests, with what came of each. -/
def performAll (m : Machine) : List Request → List (Except Fault (Option Instruction)) × Machine
  | [] => ([], m)
  | r :: requests =>
      let (answer, m') := m.perform r
      let (answers, final) := m'.performAll requests
      (answer :: answers, final)

end Machine

end Chip8
