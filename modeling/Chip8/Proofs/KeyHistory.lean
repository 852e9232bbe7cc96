import Chip8.Proofs.Effect
import Chip8.Proofs.History

/-! # The keys behind a history

The host moves the keys, and a reset lets all of them go up.  No instruction writes a key, not even
one that is refused (`keypad_execute`).  So a key stands where the last request that moved it left
it, whatever the program did in between (`isDown_performAll`), and the keypad answers for it when it
is asked for its number (`keys_stand_where_left`). -/

namespace Chip8

/-- Where a request leaves a key, if it moves it. -/
def Request.move? (k : Fin 16) : Request → Option Bool
  | .setKey key down => if key = (k : Nat) then some down else none
  | .reset => some false
  | _ => none

namespace Machine

theorem keypad_execute (m : Machine) (i : Instruction) : (m.execute i).2.keypad = m.keypad := by
  rcases he : m.execute i with ⟨r, m'⟩
  cases r with
  | ok u => exact (effect_of_execute he).keypad
  | error f =>
      rcases (execute_error he).1 with rfl | rfl
      · rfl
      · rfl

theorem keypad_tick (m : Machine) : m.tick.2.keypad = m.keypad :=
  tick_keeps (P := fun now => now.keypad = m.keypad) (keypad_execute m) rfl

theorem isDown_setKey (m : Machine) (key : Int) (down : Bool) (k : Fin 16) :
    (m.setKey key down).2.keypad.isDown k =
      if key = (k : Nat) then down else m.keypad.isDown k := by
  unfold setKey Keypad.set?
  cases hkey : Keypad.key key with
  | ok j =>
      obtain rfl := Keypad.key_eq_ok_iff.mp hkey
      show (m.keypad.set j down).isDown k = _
      simp only [Keypad.isDown_set, Int.natCast_inj, Fin.ext_iff, eq_comm]
  | error f =>
      have hne : key ≠ (k : Nat) := by
        intro he
        rw [Keypad.key_eq_ok_iff.mpr he] at hkey
        cases hkey
      rw [if_neg hne]
      rfl

theorem isDown_perform (m : Machine) (r : Request) (k : Fin 16) :
    (m.perform r).2.keypad.isDown k = (r.move? k).getD (m.keypad.isDown k) := by
  cases r with
  | tick => exact congrArg (·.isDown k) (keypad_tick m)
  | run ticks =>
      have hrun : (run ticks.toNat m).2.keypad = m.keypad :=
        run_keeps (P := fun now => now.keypad = m.keypad)
          (fun now h => (keypad_tick now).trans h) _ rfl
      exact congrArg (·.isDown k) hrun
  | execute word =>
      have hword : (m.executeWord word).2.keypad = m.keypad :=
        executeWord_keeps (P := fun now => now.keypad = m.keypad) (keypad_execute m) rfl word
      exact congrArg (·.isDown k) hword
  | setKey key down =>
      refine (isDown_setKey m key down k).trans ?_
      rw [Request.move?]
      split <;> rfl
  | reset =>
      show Keypad.released.isDown k = false
      simp [Keypad.isDown, Keypad.released]
  | load data offset =>
      obtain ⟨memory, he⟩ := exists_memory_load m data offset
      exact congrArg (·.keypad.isDown k) he
  | loadFont offset =>
      obtain ⟨memory, he⟩ := exists_memory_load m Font.glyphs offset
      exact congrArg (·.keypad.isDown k) he
  | fetch | decrementTimers => rfl

theorem isDown_performAll (m : Machine) (rs : List Request) (k : Fin 16) :
    (m.performAll rs).2.keypad.isDown k =
      ((rs.filterMap (Request.move? k)).getLast?).getD (m.keypad.isDown k) := by
  induction rs generalizing m with
  | nil => rfl
  | cons r rs ih =>
      rw [performAll_cons_snd, ih, isDown_perform, getLast?_filterMap_cons]
      cases (rs.filterMap (Request.move? k)).getLast? <;> rfl

/-- **Keys stand where the host left them.**  Behind any history the keypad answers for each of its
sixteen keys with the last move of the key, be it by a reset, or else as before; every other number
is refused.  What the program did in between has no effect. -/
theorem keys_stand_where_left (m : Machine) (rs : List Request) :
    let now := (m.performAll rs).2.keypad
    (∀ k : Fin 16, now.isDown? (k : Nat) =
        .ok (((rs.filterMap (Request.move? k)).getLast?).getD (m.keypad.isDown k))) ∧
      ∀ number f, now.isDown? number = .error f ↔
        ¬ (0 ≤ number ∧ number < 16) ∧ f = .unknownKey number := by
  intro now
  refine ⟨fun k => ?_, fun number f => ?_⟩
  · rw [Keypad.isDown?, Keypad.key_eq_ok_iff.mpr rfl, ← isDown_performAll]
    rfl
  · rw [← Keypad.key_eq_error_iff, Keypad.isDown?]
    cases Keypad.key number <;> simp [Except.map]

end Machine

end Chip8
