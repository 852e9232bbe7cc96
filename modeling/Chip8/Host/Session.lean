import Chip8.Host.CommandLine.Choice
import Chip8.Host.Event
import Chip8.Host.Log
import Chip8.Host.Options
import Chip8.Host.ProgramFile
import Chip8.Machine.Dump
import Chip8.Machine.Run
import Chip8.Window

/-! # Sessions

A session shows a running program in a window.  It opens the window, builds a machine with the
glyphs and the program in memory, starts the timer and then takes turns: wait, carry out a batch
of instructions, handle the events that came in while waiting, show the display.

* The batches of events are an argument, one for each turn.  When they are used up the user quits.
* The frame of the turn in which the user quits is still shown.
* A fault of the program is logged and ends the session with status one, without another frame.
* What else goes wrong ends the session without a status, at the moment when it is met: a quantity
  without a number, a window that refuses something, a file that cannot be read, or a fault that
  the program is not to blame for.  A waiting time without a number is none of these, and is
  reported as it is.
* `Session.run` answers with everything that can be seen from outside: the messages, the waiting
  times, the setting of the timer, the frames, and how it ended. -/

namespace Chip8

/-- Why a session ended without a status. -/
inductive Failure where
  /-- A quantity was left without a number. -/
  | noNumber (q : Quantity)
  | window (e : WindowError)
  | file (e : FileError)
  | fault (f : Fault)
deriving DecidableEq, Repr

/-- The text shown to the user. -/
def Failure.message : Failure → String
  | noNumber q => q.name ++ " has no number"
  | window e => e.message
  | file e => e.message
  | fault f => f.message

/-- What can be seen of a session from outside. -/
structure Report where
  status : Except Failure Nat
  log : List LogMessage := []
  /-- The milliseconds of each wait, as far as they have a number. -/
  waits : List (Option Int) := []
  /-- The milliseconds between two ticks of the timer, if it was started. -/
  interval : Option Nat := none
  frames : List Window := []

/-- Whether the timer was started. -/
def Report.timer (r : Report) : Bool := r.interval.isSome

namespace Session

/-- The milliseconds between two ticks of the timer, about a sixtieth of a second. -/
def timerInterval : Nat := 17

/-- The message about `size` bytes of a file loaded at an address. -/
def loadedText (size : Nat) (file : String) (address : Int) : String :=
  "Loaded " ++ toString size ++ " bytes from " ++ file ++ " at " ++ Text.Hex.paddedInt 3 address

/-- A message that shows in verbose sessions only. -/
def debug (o : Options) (texts : List String) : List LogMessage :=
  if o.verbose then texts.map (⟨.debug, ·⟩) else []

/-- The messages about a fault of the program. -/
def haltMessages (o : Options) (m : Machine) (f : Fault) : List LogMessage :=
  ⟨.error, "Halting at PC " ++ Text.Hex.paddedInt 3 m.pc ++ ": " ++ f.message⟩
    :: debug o ["CPU state:\n" ++ m.dump]

/-- The outcome of one turn. -/
structure Turn where
  machine : Machine
  log : List LogMessage
  /-- What the window shows now, if the batch of instructions was carried out. -/
  frame : Option Window
  /-- How the session ends, if it ends with this turn. -/
  status : Option (Except Failure Nat)

/-- A batch of `n` instructions, the events, and a frame. -/
def turn (o : Options) (n : Nat) (w : Window) (m : Machine) (events : List Event) : Turn :=
  let (entries, outcome, m') := if o.verbose then m.trace n else ([], m.run n)
  let traced := debug o (entries.map TraceEntry.text)
  match outcome with
  | .error f =>
      if f.IsProgramFault then
        { machine := m', log := traced ++ haltMessages o m' f, frame := none,
          status := some (.ok 1) }
      else { machine := m', log := traced, frame := none, status := some (.error (.fault f)) }
  | .ok () =>
      let (running, m'') := m'.handle events
      let log := traced ++ debug o (events.filterMap Event.report?)
      match w.draw m''.display with
      | (.error e, _) =>
          { machine := m'', log, frame := none, status := some (.error (.window e)) }
      | (.ok (), w') =>
          { machine := m'', log, frame := some w',
            status := if running then none else some (.ok 0) }

/-- Takes turns of `n` instructions until the session ends.  At the end of the batches the user
quits. -/
def turns (o : Options) (n : Nat) (w : Window) (m : Machine) : List (List Event) → Report
  | [] =>
      let t := turn o n w m [.quit]
      { status := t.status.getD (.ok 0), log := t.log, waits := [o.opDelay],
        frames := t.frame.toList }
  | events :: batches =>
      let t := turn o n w m events
      match t.status with
      | some status =>
          { status, log := t.log, waits := [o.opDelay], frames := t.frame.toList }
      | none =>
          let later := turns o n (t.frame.getD w) t.machine batches
          { later with
            log := t.log ++ later.log
            waits := o.opDelay :: later.waits
            frames := t.frame.toList ++ later.frames }

/-- Waits, and takes turns.  Without a number of instructions the first turn fails. -/
def play (o : Options) (w : Window) (m : Machine) (batches : List (List Event)) : Report :=
  match o.ticks with
  | none => { status := .error (.noNumber .ticks), waits := [o.opDelay] }
  | some ticks => turns o ticks.toNat w m batches

/-- Opens the window of a session. -/
def openWindow (o : Options) : Except Failure Window :=
  match o.scale with
  | none => .error (.noNumber .scale)
  | some scale =>
      (Window.create scale Display.standardWidth Display.standardHeight).mapError .window

/-- The machine of a session before the program is loaded. -/
def machine (o : Options) (random : RandomSource) : Machine :=
  (Machine.new o.dialect random).loadFont.2

/-- A whole session.  `program` is what reading the program file gave. -/
def run (o : Options) (program : Except FileError (List UInt8)) (random : RandomSource)
    (batches : List (List Event)) : Report :=
  match openWindow o, program with
  | .error e, _ => { status := .error e }
  | .ok w, .error e => { status := .error (.file e), frames := [w] }
  | .ok w, .ok bytes =>
      match (machine o random).load bytes with
      | (.error f, _) => { status := .error (.fault f), frames := [w] }
      | (.ok (), m) =>
          let later := play o w m batches
          { later with
            interval := some timerInterval
            log := ⟨.info, loadedText bytes.length o.rom Machine.programStart⟩ :: later.log
            frames := w :: later.frames }

end Session

end Chip8
