import Chip8.Proofs.Effect
import Chip8.Proofs.History

/-! # A reset makes a new machine

Four things of a machine are chosen when it is built: the dialect, the two sides of the display and
the sequence behind the random source.  `SameBuild` says that two machines share them.  No request
changes any of the four, not even a failed one or one that executes an instruction which was never
fetched (`sameBuild_performAll`).

A reset therefore leaves nothing of a history but the memory and the position in the random
sequence: the machine behind it equals a new machine of the same build that has loaded the old
memory as an image (`load_new_eq_reset`). -/

namespace Chip8

theorem Memory.write_slice_all (m m' : Memory) : m'.write 0 (m.slice 0 Memory.size) = m := by
  apply Memory.ext
  intro a
  rw [Memory.read_write]
  by_cases ha : a < 4096
  · have hinside : 0 ≤ a ∧ a - 0 < (m.slice 0 Memory.size).length ∧ a < 4096 := by
      rw [Memory.length_slice]
      exact ⟨Nat.zero_le a, ha, ha⟩
    rw [dif_pos hinside]
    rw [Memory.getElem_slice, Nat.sub_zero, Nat.zero_add]
  · have hout : ¬ (0 ≤ a ∧ a - 0 < (m.slice 0 Memory.size).length ∧ a < 4096) :=
      fun h => ha h.2.2
    rw [dif_neg hout, Memory.read_of_ge (by omega), Memory.read_of_ge (by omega)]

theorem Display.clear_eq_clear {d d' : Display} (hw : d.width = d'.width)
    (hh : d.height = d'.height) (on : Bool) : d.clear on = d'.clear on := by
  obtain ⟨w, h, grid⟩ := d
  obtain ⟨w', h', grid'⟩ := d'
  cases hw
  cases hh
  rfl

namespace Machine

variable {m m' m'' : Machine} {i : Instruction}

/-- Two machines share what is chosen when a machine is built. -/
structure SameBuild (m m' : Machine) : Prop where
  dialect : m'.dialect = m.dialect := by rfl
  width : m'.display.width = m.display.width := by rfl
  height : m'.display.height = m.display.height := by rfl
  sequence : m'.random.sequence = m.random.sequence := by rfl

theorem SameBuild.trans (h : SameBuild m m') (h' : SameBuild m' m'') : SameBuild m m'' where
  dialect := h'.dialect.trans h.dialect
  width := h'.width.trans h.width
  height := h'.height.trans h.height
  sequence := h'.sequence.trans h.sequence

theorem nextRandom_sequence (m : Machine) (i : Instruction) :
    (m.nextRandom i).sequence = m.random.sequence := by
  unfold nextRandom
  split <;> rfl

theorem Effect.sameBuild (he : Effect m i m') : SameBuild m m' where
  dialect := he.dialect
  width := he.width
  height := he.height
  sequence := by rw [he.random, nextRandom_sequence]

theorem sameBuild_execute (m : Machine) (i : Instruction) : SameBuild m (m.execute i).2 := by
  rcases he : m.execute i with ⟨r, m'⟩
  cases r with
  | ok u => exact (effect_of_execute he).sameBuild
  | error f =>
      rcases (execute_error he).1 with rfl | rfl
      · exact {}
      · exact {}

theorem sameBuild_tick (m : Machine) : SameBuild m m.tick.2 :=
  tick_keeps (sameBuild_execute m) {}

theorem sameBuild_load (m : Machine) (data : List UInt8) (offset : Int) :
    SameBuild m (m.load data offset).2 := by
  obtain ⟨memory, he⟩ := exists_memory_load m data offset
  rw [he]
  exact {}

theorem sameBuild_perform (m : Machine) (r : Request) : SameBuild m (m.perform r).2 := by
  cases r with
  | tick => exact sameBuild_tick m
  | run ticks =>
      exact run_keeps (P := SameBuild m) (fun m' h => h.trans (sameBuild_tick m')) _ {}
  | execute word => exact executeWord_keeps (P := SameBuild m) (sameBuild_execute m) {} word
  | setKey key down =>
      obtain ⟨keypad, he⟩ := exists_keypad_setKey m key down
      show SameBuild m (m.setKey key down).2
      rw [he]
      exact {}
  | load data offset => exact sameBuild_load m data offset
  | loadFont offset => exact sameBuild_load m Font.glyphs offset
  | fetch | decrementTimers | reset => exact {}

theorem sameBuild_performAll (m : Machine) (rs : List Request) :
    SameBuild m (m.performAll rs).2 := by
  have hkeep : ∀ m' r, True → SameBuild m m' → SameBuild m (m'.perform r).2 :=
    fun m' r _ h => h.trans (sameBuild_perform m' r)
  exact performAll_keeps hkeep (fun _ _ => trivial) {}

/-- A new machine of the same build that loads the memory as an image is the machine behind a
reset. -/
theorem load_new_eq_reset (m : Machine) (keypad : Keypad) {display : Display}
    (hw : display.width = m.display.width) (hh : display.height = m.display.height) :
    (new m.dialect m.random display keypad).load (m.memory.slice 0 Memory.size) 0 =
      (.ok (), m.reset) := by
  have hfits : Memory.Holds 0 (m.memory.slice 0 Memory.size).length := by
    rw [Memory.length_slice]
    decide
  rw [load, if_pos hfits]
  have hmemory := Memory.write_slice_all m.memory (new m.dialect m.random display keypad).memory
  have hdisplay : (display.clear false).clear false = m.display.clear false :=
    Display.clear_eq_clear (d := display.clear false) hw hh false
  refine congrArg (Prod.mk (Except.ok ())) ?_
  unfold reset
  rw [← hdisplay]
  exact congrArg (fun memory => { new m.dialect m.random display keypad with memory }) hmemory

theorem reset_reset (m : Machine) : m.reset.reset = m.reset := rfl

/-- **A reset makes a new machine.**  Behind any history, a reset keeps memory and random source.
What it leaves is the new machine with the dialect and the display size of the first one, whose
random source stands at the same position and into which the old memory was loaded as an image; so
from then on every sequence of requests has the same answers and ends in the same machine on both.
A second reset changes nothing. -/
theorem reset_equivalent_to_new (m : Machine) (history : List Request) (display : Display)
    (keypad : Keypad) (hw : display.width = m.display.width)
    (hh : display.height = m.display.height) :
    let used := (m.performAll history).2
    let built := new m.dialect ⟨m.random.sequence, used.random.position⟩ display keypad
    let fresh := built.load (used.memory.slice 0 Memory.size) 0
    (used.reset.memory = used.memory ∧ used.reset.random = used.random) ∧
      fresh = (.ok (), used.reset) ∧
      (∀ requests, used.reset.performAll requests = fresh.2.performAll requests) ∧
      used.reset.reset = used.reset := by
  intro used built fresh
  have hbuild : SameBuild m used := sameBuild_performAll m history
  have hrandom : (⟨m.random.sequence, used.random.position⟩ : RandomSource) = used.random := by
    rw [← hbuild.sequence]
  have hfresh : fresh = (.ok (), used.reset) := by
    have hload := load_new_eq_reset used keypad (hw.trans hbuild.width.symm)
      (hh.trans hbuild.height.symm)
    rw [hbuild.dialect, ← hrandom] at hload
    exact hload
  refine ⟨⟨rfl, rfl⟩, hfresh, ?_, reset_reset used⟩
  intro requests
  rw [hfresh]

set_option maxRecDepth 20000 in
/-- A history that takes a random byte, sets a timer, draws, calls, holds a key and is refused
twice, and a new machine with a lit display. -/
theorem reset_equivalent_to_new_after_use :
    let m := new {} (.cycling #[7])
    let history : List Request := [.loadFont 0,
      .load [0xC0, 0xFF, 0xF0, 0x15, 0xD0, 0x05, 0x22, 0x06] 0x200, .tick, .tick, .tick, .tick,
      .setKey 3 true, .setKey 16 true, .execute 0x8008]
    let used := (m.performAll history).2
    let display := Display.standard.clear true
    let fresh := (new m.dialect ⟨m.random.sequence, used.random.position⟩ display .released).load
      (used.memory.slice 0 Memory.size) 0
    (display.width = m.display.width ∧ display.height = m.display.height) ∧
      (used.random.position = 1 ∧ used.delay = 7 ∧ used.display.lit 7 7 = true ∧
        used.stack.size = 1 ∧ used.keypad.isDown 3 = true) ∧
      used.reset.performAll [.tick, .fetch] = fresh.2.performAll [.tick, .fetch] := by
  intro m history used display fresh
  have hused : used.random.position = 1 ∧ used.delay = 7 ∧ used.display.lit 7 7 = true ∧
      used.stack.size = 1 ∧ used.keypad.isDown 3 = true := by
    decide +kernel
  obtain ⟨-, -, hsame, -⟩ := reset_equivalent_to_new m history display .released rfl rfl
  exact ⟨⟨rfl, rfl⟩, hused, hsame [.tick, .fetch]⟩

end Machine

end Chip8
