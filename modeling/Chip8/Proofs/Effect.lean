import Chip8.Machine.Run
import Chip8.Proofs.Decoding
import Chip8.Proofs.Drawing

/-! # What an instruction does, component by component

`Machine.execute` is one match over thirty-four instructions.  Here each component of the machine
behind a completed instruction has a closed form of its own, in which only the instructions that
touch the component appear:

* `nextPc` (jumps, calls and returns, and `increment` for all others), `nextStack`, `nextIndex`,
  `nextDelay`, `nextSound`, `nextRandom`;
* `stored`, the numbers laid over memory from the index register on.

`Effect m i m'` collects these equations and the conditions under which the instruction is
accepted, and `effect_of_execute` derives all of them once.  `execute_error` is the counterpart
for a refused instruction, which can change the flag register at most.  `tick_cases` lifts the two
to a tick. -/

namespace Chip8

/-- The number of bytes at the index register that an instruction asks for. -/
def Instruction.block? : Instruction → Option Nat
  | .draw _ _ height => some height
  | .storeDecimal _ => some 3
  | .storeRegisters x | .loadRegisters x => some (x + 1)
  | _ => none

namespace Machine

variable {m m' : Machine} {i : Instruction} {f : Fault}

/-- The numbers that an instruction lays over memory from the index register on. -/
def stored (m : Machine) : Instruction → List Nat
  | .storeDecimal x =>
      let n := (m.v.read x).toNat
      [n / 100, n / 10 % 10, n % 10]
  | .storeRegisters x => (m.v.firsts (x + 1)).map UInt8.toNat
  | _ => []

/-- Whether the next instruction is skipped. -/
def skips (m : Machine) : Instruction → Bool
  | .skipEqValue x value => (m.v.read x).toNat = value
  | .skipNeValue x value => (m.v.read x).toNat ≠ value
  | .skipEq x y => m.v.read x = m.v.read y
  | .skipNe x y => m.v.read x ≠ m.v.read y
  | .skipKeyDown x => m.keypad.isDown (m.keyOf x)
  | .skipKeyUp x => !m.keypad.isDown (m.keyOf x)
  | _ => false

/-- How far an instruction that is no jump moves the program counter. -/
def increment (m : Machine) : Instruction → Int
  | .waitKey x => if m.keypad.isDown (m.keyOf x) then 2 else 0
  | i => if m.skips i then 4 else 2

/-- The program counter behind an instruction. -/
def nextPc (m : Machine) : Instruction → Int
  | .ret => m.stack.entries.headD 0
  | .jump address | .call address => address
  | .jumpOffset x address =>
      (m.v.read (if m.dialect.offsetFromVx then x else 0)).toNat + address
  | i => m.pc + m.increment i

/-- The call stack behind an instruction. -/
def nextStack (m : Machine) : Instruction → CallStack stackCapacity
  | .ret => ⟨m.stack.entries.tail⟩
  | .call _ => ⟨(m.pc + 2) :: m.stack.entries⟩
  | _ => m.stack

/-- The index register behind an instruction. -/
def nextIndex (m : Machine) : Instruction → Int
  | .loadIndex address => address
  | .addIndex x => (m.index + (m.v.read x).toNat) % 0x10000
  | .loadGlyph x => Font.address + (m.v.read x).toNat % 16 * Font.glyphSize
  | _ => m.index

/-- The delay timer behind an instruction. -/
def nextDelay (m : Machine) : Instruction → UInt8
  | .setDelay x => m.v.read x
  | _ => m.delay

/-- The sound timer behind an instruction. -/
def nextSound (m : Machine) : Instruction → UInt8
  | .setSound x => m.v.read x
  | _ => m.sound

/-- The random source behind an instruction. -/
def nextRandom (m : Machine) : Instruction → RandomSource
  | .random _ _ => m.random.next.2
  | _ => m.random

/-- `m'` is the machine behind the completed instruction `i` of `m`.  Most instructions touch few
components, so an equation that is left out says that both sides are the same by definition. -/
structure Effect (m : Machine) (i : Instruction) (m' : Machine) : Prop where
  /-- The bytes at the index register that the instruction asks for were in memory. -/
  block : ∀ n, i.block? = some n → Memory.Holds m.index n := by nofun
  depth_pos : i = .ret → m.stack.entries ≠ [] := by nofun
  room : ∀ a, i = .call a → m.stack.size < 16 := by nofun
  dialect : m'.dialect = m.dialect := by rfl
  memory : m'.memory = m.memory.write m.index.toNat ((m.stored i).map UInt8.ofNat) := by rfl
  index : m'.index = m.nextIndex i := by rfl
  pc : m'.pc = m.nextPc i := by rfl
  delay : m'.delay = m.nextDelay i := by rfl
  sound : m'.sound = m.nextSound i := by rfl
  stack : m'.stack = m.nextStack i := by rfl
  width : m'.display.width = m.display.width := by rfl
  height : m'.display.height = m.display.height := by rfl
  keypad : m'.keypad = m.keypad := by rfl
  random : m'.random = m.nextRandom i := by rfl

theorem increment_cases (m : Machine) (i : Instruction) :
    m.increment i = 0 ∨ m.increment i = 2 ∨ m.increment i = 4 := by
  unfold increment
  split <;> split <;> simp

theorem stored_le {n : Nat} (h : n ∈ m.stored i) : n ≤ 0xFF := by
  cases i with
  | storeDecimal x =>
      have hx : (m.v.read x).toNat < 256 := (m.v.read x).toNat_lt
      simp only [stored, List.mem_cons, List.not_mem_nil, or_false] at h
      omega
  | storeRegisters x =>
      obtain ⟨b, _, rfl⟩ := List.mem_map.mp h
      have hb : b.toNat < 256 := b.toNat_lt
      omega
  | _ => cases h

@[simp] theorem length_stored_storeRegisters (m : Machine) (x : Nat) :
    (m.stored (.storeRegisters x)).length = x + 1 := by
  simp [stored]

theorem length_stored (m : Machine) (i : Instruction) (h : m.stored i ≠ []) :
    i.block? = some (m.stored i).length := by
  cases i with
  | storeDecimal x => rfl
  | storeRegisters x => rw [length_stored_storeRegisters, Instruction.block?]
  | _ => exact absurd rfl h

theorem withBlock_eq_ok {n : Nat} {action : Nat → Outcome Unit}
    (h : m.withBlock n action = (.ok (), m')) :
    Memory.Holds m.index n ∧ action m.index.toNat = (.ok (), m') := by
  by_cases hn : Memory.Holds m.index n
  · rw [withBlock_of_holds hn] at h
    exact ⟨hn, h⟩
  · rw [withBlock_of_not_holds hn] at h
    cases h

theorem withBlock_eq_error {n : Nat} {action : Nat → Outcome Unit}
    (h : m.withBlock n action = (.error f, m')) :
    (¬ Memory.Holds m.index n ∧ f = .memoryRange m.index n ∧ m' = m) ∨
      action m.index.toNat = (.error f, m') := by
  by_cases hn : Memory.Holds m.index n
  · rw [withBlock_of_holds hn] at h
    exact Or.inr h
  · rw [withBlock_of_not_holds hn] at h
    cases h
    exact Or.inl ⟨hn, rfl, rfl⟩

theorem map_ofNat_digits (b : UInt8) :
    [b.toNat / 100, b.toNat / 10 % 10, b.toNat % 10].map UInt8.ofNat =
      [b / 100, b / 10 % 10, b % 10] := by
  have h₁ : b.toNat / 100 = (b / 100).toNat := by rw [UInt8.toNat_div]; rfl
  have h₂ : b.toNat / 10 % 10 = (b / 10 % 10).toNat := by
    rw [UInt8.toNat_mod, UInt8.toNat_div]; rfl
  have h₃ : b.toNat % 10 = (b % 10).toNat := by rw [UInt8.toNat_mod]; rfl
  rw [h₁, h₂, h₃]
  simp only [List.map_cons, List.map_nil, UInt8.ofNat_toNat]

theorem drawSprite_eq_ok {x y n : Nat} (h : m.drawSprite x y n = (.ok (), m')) :
    Memory.Holds m.index n ∧ ∃ grid hit,
      m' = { m with
        display := { m.display with grid }
        v := (m.v.setFlag false).setFlag hit }.advance 2 := by
  obtain ⟨hn, h⟩ := withBlock_eq_ok h
  refine ⟨hn, ?_⟩
  by_cases he : m.display.width = 0 ∨ m.display.height = 0
  · rw [if_pos he] at h
    cases h
  · rw [if_neg he] at h
    dsimp only at h
    rcases Display.plot_cases _ m.display with ⟨grid, hit, hp⟩ | ⟨p, _, _, hp⟩
    · rw [hp] at h
      cases h
      exact ⟨grid, hit, rfl⟩
    · rw [hp] at h
      cases h

theorem Effect.read_eq (he : Effect m i m') {a : Nat}
    (h : ¬ (m.index ≤ a ∧ a < m.index + (m.stored i).length)) :
    m'.memory.read a = m.memory.read a := by
  rw [he.memory, Memory.read_write, dif_neg]
  rw [List.length_map]
  rintro ⟨hlow, hhigh, -⟩
  have hne : m.stored i ≠ [] := by
    intro hnil
    rw [hnil] at hhigh
    exact absurd hhigh (Nat.not_lt_zero _)
  have hindex : 0 ≤ m.index := (he.block _ (length_stored m i hne)).1
  omega

/-- A completed instruction has the effect that is listed. -/
theorem effect_of_execute (h : m.execute i = (.ok (), m')) : Effect m i m' := by
  cases i with
  | ret =>
      unfold execute at h
      cases hs : m.stack.pop with
      | error f =>
          rw [hs] at h
          cases h
      | ok r =>
          rw [hs] at h
          cases h
          have he : m.stack.entries = r.1 :: r.2.entries := CallStack.pop_eq_ok_iff.mp hs
          exact {
            depth_pos := fun _ => by simp [he]
            pc := by simp [nextPc, he]
            stack := by simp [nextStack, he] }
  | call a =>
      unfold execute at h
      cases hs : m.stack.push (m.pc + 2) with
      | error f =>
          rw [hs] at h
          cases h
      | ok stack =>
          rw [hs] at h
          cases h
          obtain ⟨_, hroom, rfl⟩ := CallStack.push_eq_ok_iff.mp hs
          exact { room := fun _ _ => Int.ofNat_lt.mp hroom }
  | draw x y n =>
      obtain ⟨hn, grid, hit, rfl⟩ := drawSprite_eq_ok h
      exact { block := by rintro _ ⟨⟩; exact hn }
  | storeDecimal x =>
      unfold execute at h
      obtain ⟨hn, h⟩ := withBlock_eq_ok h
      cases h
      exact {
        block := by rintro _ ⟨⟩; exact hn
        memory := by rw [stored, map_ofNat_digits]; rfl }
  | storeRegisters x =>
      unfold execute at h
      obtain ⟨hn, h⟩ := withBlock_eq_ok h
      cases h
      exact {
        block := by rintro _ ⟨⟩; exact hn
        memory := by simp [stored, advance, Function.comp_def] }
  | loadRegisters x =>
      unfold execute at h
      obtain ⟨hn, h⟩ := withBlock_eq_ok h
      cases h
      exact { block := by rintro _ ⟨⟩; exact hn }
  | _ =>
      cases h
      exact {}

/-- A refused instruction clears the flag register at most, and not even that on a display of
nonnegative size.  It blames no word. -/
theorem execute_error (h : m.execute i = (.error f, m')) :
    (m' = m ∨ m' = { m with v := m.v.setFlag false }) ∧
      (0 ≤ m.display.width → 0 ≤ m.display.height → m' = m) ∧ ∀ w, f ≠ .unknownOpcode w := by
  cases i with
  | ret =>
      unfold execute at h
      cases hs : m.stack.pop <;> rw [hs] at h <;> cases h
      obtain ⟨_, rfl⟩ := CallStack.pop_eq_error_iff.mp hs
      exact ⟨Or.inl rfl, fun _ _ => rfl, nofun⟩
  | call a =>
      unfold execute at h
      cases hs : m.stack.push (m.pc + 2) <;> rw [hs] at h <;> cases h
      refine ⟨Or.inl rfl, fun _ _ => rfl, ?_⟩
      rcases CallStack.push_eq_error_iff.mp hs with ⟨_, rfl⟩ | ⟨_, _, rfl⟩ <;> nofun
  | draw x y n =>
      unfold execute drawSprite at h
      rcases withBlock_eq_error h with ⟨_, rfl, rfl⟩ | h
      · exact ⟨Or.inl rfl, fun _ _ => rfl, nofun⟩
      · by_cases he : m.display.width = 0 ∨ m.display.height = 0
        · rw [if_pos he] at h
          cases h
          exact ⟨Or.inl rfl, fun _ _ => rfl, nofun⟩
        · rw [if_neg he] at h
          dsimp only at h
          rcases Display.plot_cases _ m.display with ⟨grid, hit, hp⟩ | ⟨p, hmem, hout, hp⟩
          · rw [hp] at h
            cases h
          · rw [hp] at h
            cases h
            refine ⟨Or.inr rfl, fun hw hh => ?_, nofun⟩
            exact absurd (Sprite.placed_inside (by omega) (by omega) hmem) hout
  | storeDecimal x | storeRegisters x | loadRegisters x =>
      unfold execute at h
      rcases withBlock_eq_error h with ⟨_, rfl, rfl⟩ | h
      · exact ⟨Or.inl rfl, fun _ _ => rfl, nofun⟩
      · cases h
  | _ => cases h

theorem fetch_eq_ok_iff :
    m.fetch = .ok i ↔
      Memory.Holds m.pc 2 ∧ Instruction.ofWord? (m.memory.word m.pc.toNat) = some i := by
  unfold fetch Memory.check
  by_cases hpc : Memory.Holds m.pc 2
  · rw [if_pos hpc]
    simp only [hpc, true_and]
    exact Instruction.decode_natCast_eq_ok_iff
  · rw [if_neg hpc]
    simp only [hpc, false_and, iff_false]
    nofun

theorem fetch_eq_error_iff :
    m.fetch = .error f ↔
      (¬ Memory.Holds m.pc 2 ∧ f = .memoryRange m.pc 2) ∨
        (Memory.Holds m.pc 2 ∧ Instruction.ofWord? (m.memory.word m.pc.toNat) = none ∧
          f = .unknownOpcode (m.memory.word m.pc.toNat)) := by
  unfold fetch Memory.check
  by_cases hpc : Memory.Holds m.pc 2
  · rw [if_pos hpc]
    simp only [hpc, true_and, not_true_eq_false, false_and, false_or]
    exact Instruction.decode_natCast_eq_error_iff
  · rw [if_neg hpc]
    simp only [hpc, not_false_eq_true, true_and, false_and, or_false]
    exact ⟨fun h => (Except.error.inj h).symm, fun h => h ▸ rfl⟩

theorem inRange_of_fetch (h : m.fetch = .ok i) : i.InRange :=
  Instruction.inRange_of_ofWord? (fetch_eq_ok_iff.mp h).2

theorem tick_of_fetch_error (h : m.fetch = .error f) : m.tick = (.error f, m) := by
  rw [tick, h]

theorem tick_of_execute_error (h : m.fetch = .ok i) (he : m.execute i = (.error f, m')) :
    m.tick = (.error f, m') := by
  rw [tick, h]
  simp only [he]

theorem tick_of_execute_ok (h : m.fetch = .ok i) (he : m.execute i = (.ok (), m')) :
    m.tick = (.ok i, m') := by
  rw [tick, h]
  simp only [he]

theorem tick_eq_execute (hf : m.fetch = .ok i) :
    m.tick = ((m.execute i).1.map fun _ => i, (m.execute i).2) := by
  rcases he : m.execute i with ⟨r, m'⟩
  cases r with
  | error f => exact tick_of_execute_error hf he
  | ok u => exact tick_of_execute_ok hf he

/-- What every instruction keeps, a tick keeps. -/
theorem tick_keeps {P : Machine → Prop} (hkeep : ∀ i, P (m.execute i).2) (h : P m) :
    P m.tick.2 := by
  cases hf : m.fetch with
  | error f =>
      rw [tick_of_fetch_error hf]
      exact h
  | ok i =>
      rw [tick_eq_execute hf]
      exact hkeep i

theorem executeWord_keeps {P : Machine → Prop} (hkeep : ∀ i, P (m.execute i).2) (h : P m)
    (word : Int) : P (m.executeWord word).2 := by
  unfold executeWord
  cases Instruction.decode word with
  | error f => exact h
  | ok i => exact hkeep i

/-- A tick fails to fetch and changes nothing, or fetches an instruction that is refused, or
fetches an instruction that is completed. -/
theorem tick_cases (m : Machine) :
    (∃ f, m.fetch = .error f ∧ m.tick = (.error f, m)) ∨
      (∃ i f m', m.fetch = .ok i ∧ m.execute i = (.error f, m') ∧ m.tick = (.error f, m')) ∨
        ∃ i m', m.fetch = .ok i ∧ m.execute i = (.ok (), m') ∧ m.tick = (.ok i, m') := by
  cases hf : m.fetch with
  | error f => exact Or.inl ⟨f, rfl, tick_of_fetch_error hf⟩
  | ok i =>
      rcases he : m.execute i with ⟨r, m'⟩
      cases r with
      | error f => exact Or.inr (Or.inl ⟨i, f, m', rfl, he, tick_of_execute_error hf he⟩)
      | ok u => exact Or.inr (Or.inr ⟨i, m', rfl, he, tick_of_execute_ok hf he⟩)

theorem tick_eq_ok_iff :
    m.tick = (.ok i, m') ↔ m.fetch = .ok i ∧ m.execute i = (.ok (), m') := by
  constructor
  · intro h
    rcases tick_cases m with ⟨f, _, ht⟩ | ⟨j, f, n, _, _, ht⟩ | ⟨j, n, hf, he, ht⟩
    · rw [ht] at h
      cases h
    · rw [ht] at h
      cases h
    · rw [ht] at h
      cases h
      exact ⟨hf, he⟩
  · rintro ⟨hf, he⟩
    exact tick_of_execute_ok hf he

theorem tick_eq_of_fst {r : Except Fault Instruction} (h : m.tick.1 = r) :
    m.tick = (r, m.tick.2) :=
  Prod.ext h rfl

theorem exists_tick_error_iff (hf : m.fetch = .ok i) :
    (∃ f, m.tick.1 = .error f) ↔ ∃ f m', m.execute i = (.error f, m') := by
  rcases he : m.execute i with ⟨r, m'⟩
  cases r with
  | error f =>
      rw [tick_of_execute_error hf he]
      exact ⟨fun _ => ⟨f, m', rfl⟩, fun _ => ⟨f, rfl⟩⟩
  | ok u =>
      rw [tick_of_execute_ok hf he]
      constructor
      · rintro ⟨f, hf⟩
        cases hf
      · rintro ⟨f, m'', hf⟩
        cases hf

theorem effect_of_tick (h : m.tick.1 = .ok i) : m.fetch = .ok i ∧ Effect m i m.tick.2 := by
  rcases tick_cases m with ⟨f, _, ht⟩ | ⟨j, f, m', _, _, ht⟩ | ⟨j, m', hf, he, ht⟩
  · rw [ht] at h
    cases h
  · rw [ht] at h
    cases h
  · rw [ht] at h ⊢
    cases h
    exact ⟨hf, effect_of_execute he⟩

theorem tick_error (h : m.tick.1 = .error f) :
    m.tick.2 = m ∨ m.tick.2 = { m with v := m.v.setFlag false } := by
  rcases tick_cases m with ⟨f, _, ht⟩ | ⟨j, f, m', _, he, ht⟩ | ⟨j, m', _, _, ht⟩
  · rw [ht]
    exact Or.inl rfl
  · rw [ht]
    exact (execute_error he).1
  · rw [ht] at h
    cases h

theorem tick_eq_of_error (hw : 0 ≤ m.display.width) (hh : 0 ≤ m.display.height)
    (ht : m.tick.1 = .error f) : m.tick.2 = m := by
  rcases tick_cases m with ⟨g, _, he⟩ | ⟨i, g, m', _, hx, he⟩ | ⟨i, m', _, _, he⟩
  · rw [he]
  · rw [he]
    exact (execute_error hx).2.1 hw hh
  · rw [he] at ht
    cases ht

/-- A tick blames a word exactly if it cannot fetch an instruction from it. -/
theorem tick_eq_unknownOpcode_iff {w : Int} :
    m.tick.1 = .error (.unknownOpcode w) ↔ m.fetch = .error (.unknownOpcode w) := by
  constructor
  · intro h
    rcases tick_cases m with ⟨f, hf, ht⟩ | ⟨j, f, m', _, he, ht⟩ | ⟨j, m', _, _, ht⟩
    · rw [ht] at h
      cases h
      exact hf
    · rw [ht] at h
      cases h
      exact absurd rfl ((execute_error he).2.2 w)
    · rw [ht] at h
      cases h
  · intro h
    rw [tick_of_fetch_error h]

end Machine

end Chip8
