import Chip8.Proofs.Interleaving

/-! # Waiting for a key

A machine that waits for a key does not block.  Each tick carries out the waiting instruction, and
as long as the key is up the tick leaves the machine just as it was (`tick_waitKey`).  What the host
does in between touches the panel alone, so neither the instruction nor the key that it waits for
can change (`parked_performAll`).  A run that finds the key up at each of its ticks is therefore no
more than its host calls, and the first tick that finds the key down moves on, whatever the other
keys have done. -/

namespace Chip8.Machine

variable {m : Machine} {r : Request} {rs : List Request} {x : Nat}

theorem exists_withPanel_perform (hr : r.IsLive) (hcall : r ≠ .tick) (m : Machine) :
    ∃ delay sound keypad, (m.perform r).2 = m.withPanel delay sound keypad := by
  cases r with
  | tick => exact absurd rfl hcall
  | decrementTimers => exact ⟨_, _, _, rfl⟩
  | setKey key down =>
      obtain ⟨keypad, he⟩ := exists_keypad_setKey m key down
      exact ⟨m.delay, m.sound, keypad, he⟩
  | _ => exact hr.elim

theorem exists_withPanel_performAll (hrs : ∀ r ∈ rs, r.IsLive ∧ r ≠ .tick) (m : Machine) :
    ∃ delay sound keypad, (m.performAll rs).2 = m.withPanel delay sound keypad := by
  refine performAll_keeps (P := fun m' => ∃ delay sound keypad, m' = m.withPanel delay sound keypad)
    ?_ hrs ⟨m.delay, m.sound, m.keypad, rfl⟩
  rintro _ r ⟨hr, hcall⟩ ⟨delay, sound, keypad, rfl⟩
  exact exists_withPanel_perform hr hcall _

theorem tick_waitKey (hwait : m.fetch = .ok (.waitKey x)) :
    m.tick = (.ok (.waitKey x), m.advance (if m.keypad.isDown (m.keyOf x) then 2 else 0)) :=
  tick_of_execute_ok hwait rfl

/-- The next request is no tick that finds the key down. -/
def KeyUpAtTick (key : Fin 16) (m : Machine) (r : Request) : Prop :=
  r = .tick → m.keypad.isDown key = false

instance (key : Fin 16) (m : Machine) (r : Request) : Decidable (KeyUpAtTick key m r) :=
  inferInstanceAs (Decidable (r = .tick → m.keypad.isDown key = false))

/-- Ticks that find the key up answer with the waiting instruction, and nothing else comes of
them. -/
theorem parked_performAll (hwait : m.fetch = .ok (.waitKey x)) (hlive : ∀ r ∈ rs, r.IsLive)
    (hup : Along (KeyUpAtTick (m.keyOf x)) m rs) :
    tickAnswers m rs = List.replicate (rs.count .tick) (.ok (.waitKey x)) ∧
      (m.performAll rs).2 = (m.performAll (rs.filter (· ≠ .tick))).2 := by
  induction rs generalizing m with
  | nil => exact ⟨rfl, rfl⟩
  | cons r rs ih =>
      obtain ⟨hr, hrs⟩ := List.forall_mem_cons.mp hlive
      obtain ⟨hfirst, hlater⟩ := hup
      by_cases htick : r = .tick
      · subst htick
        -- The program counter moves by nothing, so the tick gives back the machine itself.
        have hstay : m.tick = (.ok (.waitKey x), m) := by
          rw [tick_waitKey hwait, hfirst rfl]
          simp [advance]
        have hsame : (m.perform .tick).2 = m := congrArg Prod.snd hstay
        rw [hsame] at hlater
        obtain ⟨hanswers, hfinal⟩ := ih hwait hrs hlater
        constructor
        · rw [tickAnswers, hstay, hanswers, List.count_cons_self, List.replicate_succ]
        · rw [performAll_cons_snd, hsame, hfinal]
          rfl
      · obtain ⟨delay, sound, keypad, hpanel⟩ := exists_withPanel_perform hr htick m
        -- Under another panel the machine still waits for the same key.
        rw [hpanel] at hlater
        obtain ⟨hanswers, hfinal⟩ := ih (m := m.withPanel delay sound keypad) hwait hrs hlater
        constructor
        · rw [tickAnswers_of_ne_tick m htick, hpanel, hanswers, List.count_cons_of_ne htick]
        · rw [List.filter_cons_of_pos (by simpa using htick), performAll_cons_snd,
            performAll_cons_snd, hpanel, hfinal]

/-- **A wait parks the machine and releases it.**  Let the program counter stand at an instruction
that waits for the key of `Vx`, and let ticks, countdowns and moves of any keys follow in any order,
so that every tick finds that key up.  Every tick answers with the waiting instruction; the machine
ends as the host calls alone would leave it, and nothing but timers and keypad differs from the
machine before.  If now the key is down, the next tick moves on by one instruction and changes
nothing else. -/
theorem wait_parks_and_releases (hwait : m.fetch = .ok (.waitKey x))
    (hlive : ∀ r ∈ rs, r.IsLive) (hup : Along (KeyUpAtTick (m.keyOf x)) m rs) :
    let m' := (m.performAll rs).2
    tickAnswers m rs = List.replicate (rs.count .tick) (.ok (.waitKey x)) ∧
      m' = (m.performAll (rs.filter (· ≠ .tick))).2 ∧
      m' = { m with delay := m'.delay, sound := m'.sound, keypad := m'.keypad } ∧
      (m'.keypad.isDown (m.keyOf x) = true →
        m'.tick = (.ok (.waitKey x), { m' with pc := m.pc + 2 })) := by
  intro m'
  obtain ⟨hanswers, hcalls⟩ := parked_performAll hwait hlive hup
  have hrest : ∀ r ∈ rs.filter (· ≠ .tick), r.IsLive ∧ r ≠ .tick := by
    intro r hr
    obtain ⟨hmem, hcall⟩ := List.mem_filter.mp hr
    exact ⟨hlive r hmem, of_decide_eq_true hcall⟩
  obtain ⟨delay, sound, keypad, hpanel⟩ := exists_withPanel_performAll hrest m
  have hm' : m' = m.withPanel delay sound keypad := hcalls.trans hpanel
  clear_value m'
  subst hm'
  refine ⟨hanswers, hpanel.symm, rfl, fun hdown => ?_⟩
  have hthere : (m.withPanel delay sound keypad).fetch = .ok (.waitKey x) := hwait
  rw [tick_waitKey hthere]
  exact congrArg _ (congrArg _ (if_pos hdown))

set_option maxRecDepth 20000 in
/-- A wait for key `5`.  While the program ticks, key `4` is down, a key is moved that does not
exist, and key `5` goes down and up again between two ticks. -/
theorem wait_parks_and_releases_missed_press :
    let m := { ((new {} (.cycling #[])).load [0xF3, 0x0A]).2 with
      v := Registers.zero.write 3 0x25, delay := 2 }
    let rs : List Request := [.setKey 4 true, .tick, .setKey 5 true, .decrementTimers,
      .setKey 5 false, .setKey 16 true, .tick, .setKey 5 true]
    let m' := (m.performAll rs).2
    (m.fetch = .ok (.waitKey 3) ∧ (∀ r ∈ rs, r.IsLive) ∧ Along (KeyUpAtTick (m.keyOf 3)) m rs) ∧
      (m'.delay = 1 ∧ m'.keypad.pressed = [4, 5]) ∧
      tickAnswers m rs = [.ok (.waitKey 3), .ok (.waitKey 3)] ∧
      m'.tick = (.ok (.waitKey 3), { m' with pc := 0x202 }) := by
  intro m rs m'
  have hwait : m.fetch = .ok (.waitKey 3) := by decide +kernel
  have hlive : ∀ r ∈ rs, r.IsLive := by simp [rs, Request.IsLive]
  have hup : Along (KeyUpAtTick (m.keyOf 3)) m rs := by decide +kernel
  have hpanel : m'.delay = 1 ∧ m'.keypad.pressed = [4, 5] := by decide +kernel
  have hdown : m'.keypad.isDown (m.keyOf 3) = true := by decide +kernel
  obtain ⟨hanswers, -, -, hrelease⟩ := wait_parks_and_releases hwait hlive hup
  exact ⟨⟨hwait, hlive, hup⟩, hpanel, hanswers, hrelease hdown⟩

end Chip8.Machine
