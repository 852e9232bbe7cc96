import Chip8.Proofs.Effect

/-! # When a tick fails

`Refuses m i f` lists the reasons for which a machine cannot carry out an instruction, told from
the machine before it: a return without a saved address, a call without room, a block of bytes at
the index register that is not all in memory, a sprite on an empty display.  `TickFault m f` puts
the two reasons of a fetch in front: a program counter outside of memory, and a word without an
instruction.

On a machine with at most sixteen saved addresses and a display of nonnegative size these are all
the reasons there are, and the refusal comes before the first change (`execute_eq_error_iff`).  A
display of negative size is different: there a sprite fails on its first point, after the flag
register was cleared. -/

namespace Chip8.Machine

variable {m m' : Machine} {i : Instruction} {f : Fault}

/-- `m` cannot carry out `i`, and `f` says why. -/
inductive Refuses (m : Machine) : Instruction → Fault → Prop
  | ret : m.stack.size = 0 → Refuses m .ret .stackUnderflow
  | call (a : Nat) : m.stack.size = 16 → Refuses m (.call a) (.stackOverflow (m.pc + 2))
  | block {i : Instruction} {n : Nat} :
      i.block? = some n → ¬ Memory.Holds m.index n → Refuses m i (.memoryRange m.index n)
  | draw (x y n : Nat) : Memory.Holds m.index n → m.display.width = 0 ∨ m.display.height = 0 →
      Refuses m (.draw x y n) .emptyDisplay

/-- A tick of `m` fails, and `f` says why. -/
inductive TickFault (m : Machine) : Fault → Prop
  | range : m.pc < 0 ∨ 4096 < m.pc + 2 → TickFault m (.memoryRange m.pc 2)
  | word : Memory.Holds m.pc 2 → Instruction.ofWord? (m.memory.word m.pc.toNat) = none →
      TickFault m (.unknownOpcode (m.memory.word m.pc.toNat))
  | instruction {i : Instruction} {f : Fault} : Memory.Holds m.pc 2 →
      Instruction.ofWord? (m.memory.word m.pc.toNat) = some i → Refuses m i f → TickFault m f

/-! ### One instruction -/

theorem execute_ret_eq_error_iff :
    m.execute .ret = (.error f, m') ↔ m.stack.size = 0 ∧ f = .stackUnderflow ∧ m' = m := by
  unfold execute CallStack.size
  rw [List.length_eq_zero_iff]
  cases hs : m.stack.pop with
  | error g =>
      obtain ⟨he, rfl⟩ := CallStack.pop_eq_error_iff.mp hs
      simp [he, eq_comm]
  | ok r =>
      have he : m.stack.entries = r.1 :: r.2.entries := CallStack.pop_eq_ok_iff.mp hs
      simp [he]

/-- A call from an address that can be fetched never saves an address beyond sixteen bits. -/
theorem execute_call_eq_error_iff {a : Nat} (hpc : Memory.Holds m.pc 2) :
    m.execute (.call a) = (.error f, m') ↔
      16 ≤ m.stack.size ∧ f = .stackOverflow (m.pc + 2) ∧ m' = m := by
  obtain ⟨hlow, hhigh⟩ := hpc
  have hfit : 0 ≤ m.pc + 2 ∧ m.pc + 2 ≤ 0xFFFF := by omega
  unfold execute
  cases hs : m.stack.push (m.pc + 2) with
  | error g =>
      rcases CallStack.push_eq_error_iff.mp hs with ⟨hno, _⟩ | ⟨_, hfull, rfl⟩
      · exact absurd hfit hno
      · have hfull' : 16 ≤ m.stack.size := Int.ofNat_le.mp hfull
        simp [hfull', eq_comm]
  | ok stack =>
      obtain ⟨_, hroom, _⟩ := CallStack.push_eq_ok_iff.mp hs
      have hroom' : ¬ 16 ≤ m.stack.size := Nat.not_le.mpr (Int.ofNat_lt.mp hroom)
      simp [hroom']

theorem refuses_of_drawSprite {x y n : Nat} (hw : 0 ≤ m.display.width)
    (hh : 0 ≤ m.display.height) (h : m.drawSprite x y n = (.error f, m')) :
    m.Refuses (.draw x y n) f ∧ m' = m := by
  by_cases hn : Memory.Holds m.index n
  · by_cases he : m.display.width = 0 ∨ m.display.height = 0
    · rw [drawSprite_of_empty hn he] at h
      cases h
      exact ⟨.draw x y n hn he, rfl⟩
    · obtain ⟨m₁, hd⟩ := drawSprite_of_pos (x := x) (y := y) hn (by omega) (by omega)
      rw [hd] at h
      cases h
  · rw [drawSprite, withBlock_of_not_holds hn] at h
    cases h
    exact ⟨.block rfl hn, rfl⟩

theorem refuses_of_withBlock {n : Nat} {g : Nat → Machine} (hi : i.block? = some n)
    (h : m.withBlock n (fun start => (.ok (), g start)) = (.error f, m')) :
    m.Refuses i f ∧ m' = m := by
  by_cases hn : Memory.Holds m.index n
  · rw [withBlock_of_holds hn] at h
    cases h
  · rw [withBlock_of_not_holds hn] at h
    cases h
    exact ⟨.block hi hn, rfl⟩

theorem execute_eq_withBlock {n : Nat} (hi : i.block? = some n) :
    ∃ action, m.execute i = m.withBlock n action := by
  cases i <;> cases hi <;> exact ⟨_, by unfold execute; rfl⟩

theorem refuses_of_execute (hpc : Memory.Holds m.pc 2) (hdepth : m.stack.size ≤ 16)
    (hw : 0 ≤ m.display.width) (hh : 0 ≤ m.display.height)
    (h : m.execute i = (.error f, m')) : m.Refuses i f ∧ m' = m := by
  cases i with
  | ret =>
      obtain ⟨hs, rfl, rfl⟩ := execute_ret_eq_error_iff.mp h
      exact ⟨.ret hs, rfl⟩
  | call a =>
      obtain ⟨hs, rfl, rfl⟩ := (execute_call_eq_error_iff hpc).mp h
      exact ⟨.call a (by omega), rfl⟩
  | draw x y n => exact refuses_of_drawSprite hw hh h
  | storeDecimal x | storeRegisters x | loadRegisters x =>
      unfold execute at h
      exact refuses_of_withBlock rfl h
  | _ => cases h

theorem execute_of_refuses (hpc : Memory.Holds m.pc 2) (h : m.Refuses i f) :
    m.execute i = (.error f, m) := by
  cases h with
  | ret hs => exact execute_ret_eq_error_iff.mpr ⟨hs, rfl, rfl⟩
  | call a hs => exact (execute_call_eq_error_iff hpc).mpr ⟨by omega, rfl, rfl⟩
  | draw x y n hn he => exact drawSprite_of_empty hn he
  | block hi hn =>
      obtain ⟨action, he⟩ := execute_eq_withBlock (m := m) hi
      rw [he, withBlock_of_not_holds hn]

theorem execute_eq_error_iff (hpc : Memory.Holds m.pc 2) (hdepth : m.stack.size ≤ 16)
    (hw : 0 ≤ m.display.width) (hh : 0 ≤ m.display.height) :
    m.execute i = (.error f, m') ↔ m.Refuses i f ∧ m' = m := by
  constructor
  · exact refuses_of_execute hpc hdepth hw hh
  · rintro ⟨h, rfl⟩
    exact execute_of_refuses hpc h

/-! ### A tick -/

theorem not_holds_two_iff {a : Int} : ¬ Memory.Holds a 2 ↔ a < 0 ∨ 4096 < a + 2 := by
  unfold Memory.Holds
  omega

theorem tickFault_of_tick (hdepth : m.stack.size ≤ 16) (hw : 0 ≤ m.display.width)
    (hh : 0 ≤ m.display.height) (h : m.tick = (.error f, m')) : m.TickFault f ∧ m' = m := by
  rcases tick_cases m with ⟨g, hf, ht⟩ | ⟨i, g, m₁, hf, he, ht⟩ | ⟨i, m₁, _, _, ht⟩
  · rw [ht] at h
    cases h
    rcases fetch_eq_error_iff.mp hf with ⟨hpc, rfl⟩ | ⟨hpc, hno, rfl⟩
    · exact ⟨.range (not_holds_two_iff.mp hpc), rfl⟩
    · exact ⟨.word hpc hno, rfl⟩
  · rw [ht] at h
    cases h
    obtain ⟨hpc, hi⟩ := fetch_eq_ok_iff.mp hf
    obtain ⟨hr, rfl⟩ := (execute_eq_error_iff hpc hdepth hw hh).mp he
    exact ⟨.instruction hpc hi hr, rfl⟩
  · rw [ht] at h
    cases h

theorem tick_of_tickFault (hdepth : m.stack.size ≤ 16) (hw : 0 ≤ m.display.width)
    (hh : 0 ≤ m.display.height) (h : m.TickFault f) : m.tick = (.error f, m) := by
  cases h with
  | range hpc =>
      exact tick_of_fetch_error (fetch_eq_error_iff.mpr (Or.inl ⟨not_holds_two_iff.mpr hpc, rfl⟩))
  | word hpc hno => exact tick_of_fetch_error (fetch_eq_error_iff.mpr (Or.inr ⟨hpc, hno, rfl⟩))
  | instruction hpc hi hr =>
      have he := (execute_eq_error_iff hpc hdepth hw hh).mpr ⟨hr, rfl⟩
      exact tick_of_execute_error (fetch_eq_ok_iff.mpr ⟨hpc, hi⟩) he

/-- **A tick fails exactly for the listed faults**, and a failed tick leaves the whole machine as it
was. -/
theorem tick_fails_iff (m : Machine) (hdepth : m.stack.size ≤ 16) (hw : 0 ≤ m.display.width)
    (hh : 0 ≤ m.display.height) :
    (∀ f, m.tick.1 = .error f ↔ m.TickFault f) ∧ ∀ f, m.tick.1 = .error f → m.tick.2 = m := by
  refine ⟨fun f => ⟨fun h => ?_, fun h => ?_⟩, fun f h => ?_⟩
  · exact (tickFault_of_tick hdepth hw hh (Prod.ext h rfl)).1
  · rw [tick_of_tickFault hdepth hw hh h]
  · exact (tickFault_of_tick hdepth hw hh (Prod.ext h rfl)).2

/-- A sprite on a display without columns fails before the flag register is cleared. -/
theorem tick_fails_on_empty_display :
    let m := ((new {} (.cycling #[]) (.blank 0 32)).load [0xD0, 0x05]).2
    (m.stack.size ≤ 16 ∧ 0 ≤ m.display.width ∧ 0 ≤ m.display.height) ∧
      m.tick.1 = .error .emptyDisplay ∧ m.tick.2 = m := by
  intro m
  have hdepth : m.stack.size ≤ 16 := by decide
  have hw : 0 ≤ m.display.width := by decide
  have hh : 0 ≤ m.display.height := by decide
  have hword : Instruction.ofWord? (m.memory.word m.pc.toNat) = some (.draw 0 0 5) := by
    have hm : m.memory = Memory.zero.write 0x200 [0xD0, 0x05] := rfl
    have hpc : m.pc.toNat = 0x200 + 0 := rfl
    rw [hm, hpc, Memory.word_write_add (by decide) (by decide)]
    decide
  have hfault : m.TickFault .emptyDisplay :=
    .instruction (by decide) hword (.draw 0 0 5 (by decide) (Or.inl rfl))
  obtain ⟨hiff, hsame⟩ := tick_fails_iff m hdepth hw hh
  have ht : m.tick.1 = .error .emptyDisplay := (hiff _).mpr hfault
  exact ⟨⟨hdepth, hw, hh⟩, ht, hsame _ ht⟩

end Chip8.Machine
