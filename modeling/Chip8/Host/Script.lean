import Chip8.Host.Event

/-! # Event scripts

A session without a keyboard takes its events from a text: one line for each turn, and on it the
events of the turn, separated by blanks.

* `timer` is a tick of the timer, and `quit` closes the window.
* `+k` and `-k` are a key going down and up, where `k` is a digit on the number pad or a letter.
* Any other word is an event without a meaning. -/

namespace Chip8

/-- The key of the keyboard with the given character on it. -/
def HostKey.ofChar (c : Char) : HostKey :=
  let d := c.toNat - '0'.toNat
  if h : '0'.toNat ≤ c.toNat ∧ d < 10 then pad ⟨d, h.2⟩ else letter c

/-- The event that a word of a script stands for. -/
def Event.ofWord (word : String) : Event :=
  if word = "timer" then timer
  else if word = "quit" then quit
  else
    match word.toList with
    | ['+', c] => key (HostKey.ofChar c) true
    | ['-', c] => key (HostKey.ofChar c) false
    | _ => other

/-- The events on a line of a script. -/
def Event.ofLine (line : String) : List Event :=
  ((line.splitOn " ").filter (· ≠ "")).map ofWord

end Chip8
