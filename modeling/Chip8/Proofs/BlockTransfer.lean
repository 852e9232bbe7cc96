import Chip8.Proofs.Effect

/-! # Blocks of registers in memory

Storing copies the registers `V0` to `Vx` over the bytes from the index register on, and loading
copies such bytes into the registers.  Either way one list of bytes is read on one side and laid
over the other.

* `read_stored` says what memory holds behind a store, byte by byte: the block holds the registers
  in order, and the bytes around it are as before.
* `read_loaded` says what the registers hold behind a load: the first ones hold the block in order,
  and the others are as before.

Put one behind the other, the two give back what was stored.  In the other order memory does not
change at all, since the bytes are laid over the place where they were read
(`Memory.write_slice`). -/

namespace Chip8.Machine

variable {m : Machine} {x k : Nat}

theorem execute_storeRegisters (hblock : Memory.Holds m.index (x + 1)) :
    m.execute (.storeRegisters x) = (.ok (), { m with
      memory := m.memory.write m.index.toNat (m.v.firsts (x + 1))
      pc := m.pc + 2 }) := by
  rw [execute, withBlock_of_holds hblock]
  rfl

theorem execute_loadRegisters (hblock : Memory.Holds m.index (x + 1)) :
    m.execute (.loadRegisters x) = (.ok (), { m with
      v := m.v.writeFrom 0 (m.memory.slice m.index.toNat (x + 1))
      pc := m.pc + 2 }) := by
  rw [execute, withBlock_of_holds hblock]
  rfl

theorem read_stored (hblock : Memory.Holds m.index (x + 1)) (a : Nat) :
    (m.memory.write m.index.toNat (m.v.firsts (x + 1))).read a =
      if m.index ≤ a ∧ a ≤ m.index + x then m.v.read (a - m.index.toNat)
      else m.memory.read a := by
  obtain ⟨hlow, hhigh⟩ := hblock
  have hlength : (m.v.firsts (x + 1)).length = x + 1 := Registers.length_firsts _ _
  rw [Memory.read_write]
  by_cases ha : m.index ≤ a ∧ a ≤ m.index + x
  · rw [if_pos ha, dif_pos (by omega), Registers.getElem_firsts]
  · rw [if_neg ha, dif_neg (by omega)]

theorem read_loaded (v : Registers) (memory : Memory) (start : Nat) (hx : x < 16) (hk : k < 16) :
    (v.writeFrom 0 (memory.slice start (x + 1))).read k =
      if k ≤ x then memory.read (start + k) else v.read k := by
  have hlength : (memory.slice start (x + 1)).length = x + 1 := Memory.length_slice _ _ _
  rw [Registers.read_writeFrom (by omega) hk]
  by_cases hkx : k ≤ x
  · rw [if_pos hkx, dif_pos (by omega), Memory.getElem_slice]
  · rw [if_neg hkx, dif_neg (by omega)]

/-- Loaded registers are stored again as the bytes that they came from. -/
theorem firsts_loaded (v : Registers) (memory : Memory) (start : Nat) (hx : x < 16) :
    (v.writeFrom 0 (memory.slice start (x + 1))).firsts (x + 1) =
      memory.slice start (x + 1) := by
  have hlength : (memory.slice start (x + 1)).length = x + 1 := Memory.length_slice _ _ _
  have hback := Registers.firsts_writeFrom (v := v) (Nat.le_trans (Nat.le_of_eq hlength) hx)
  rwa [hlength] at hback

/-- **Storing registers and loading them are inverse.**  Let the block of `V0` to `Vx` at the index
register be in memory.  A store puts the registers there in order, and no other byte changes.
Whatever the sixteen registers are replaced by, a load of `V0` to `Vz` with `z ≤ x` then brings
these back and leaves the others as they were put.  The other way round, a load with a store behind
it leaves all of memory as it was.  Apart from the registers, the block and the program counter
nothing changes, and least of all the index register. -/
theorem transfers_are_inverse (m : Machine) (x : Fin 16) (hblock : Memory.Holds m.index (x + 1)) :
    (∃ memory, m.execute (.storeRegisters x) = (.ok (), { m with memory, pc := m.pc + 2 }) ∧
      (∀ k : Fin 16, k ≤ x → memory.read (m.index.toNat + k) = m.v.read k) ∧
      (∀ a : Nat, ¬ (m.index ≤ a ∧ a ≤ m.index + x) → memory.read a = m.memory.read a) ∧
      ∀ (replaced : Registers) (z : Fin 16), z ≤ x →
        ∃ v, { m with memory, v := replaced, pc := m.pc + 2 }.execute (.loadRegisters z) =
            (.ok (), { m with memory, v, pc := m.pc + 2 + 2 }) ∧
          (∀ k : Fin 16, k ≤ z → v.read k = m.v.read k) ∧
          ∀ k : Fin 16, z < k → v.read k = replaced.read k) ∧
    ∃ v, m.execute (.loadRegisters x) = (.ok (), { m with v, pc := m.pc + 2 }) ∧
      { m with v, pc := m.pc + 2 }.execute (.storeRegisters x) =
        (.ok (), { m with v, pc := m.pc + 2 + 2 }) := by
  have hlow : 0 ≤ m.index := hblock.1
  have hstored : ∀ k : Fin 16, k ≤ x →
      (m.memory.write m.index.toNat (m.v.firsts (x + 1))).read (m.index.toNat + k) =
        m.v.read k := by
    intro k hk
    have hkx : (k : Nat) ≤ x := hk
    rw [read_stored hblock, if_pos (by omega), Nat.add_sub_cancel_left]
  constructor
  · refine ⟨_, execute_storeRegisters hblock, hstored, fun a ha => ?_, fun replaced z hz => ?_⟩
    · rw [read_stored hblock, if_neg ha]
    · have hzx : (z : Nat) ≤ x := hz
      have hpart : Memory.Holds m.index (z + 1) := by
        obtain ⟨-, hhigh⟩ := hblock
        exact ⟨hlow, by omega⟩
      refine ⟨_, execute_loadRegisters hpart, fun k hk => ?_, fun k hk => ?_⟩
      · have hkz : (k : Nat) ≤ z := hk
        rw [read_loaded _ _ _ z.isLt k.isLt, if_pos hkz]
        exact hstored k (Fin.le_trans hk hz)
      · have hkz : ¬ (k : Nat) ≤ z := Nat.not_le_of_lt hk
        rw [read_loaded _ _ _ z.isLt k.isLt, if_neg hkz]
  · refine ⟨_, execute_loadRegisters hblock, ?_⟩
    apply (execute_storeRegisters ?_).trans
    · dsimp only
      rw [firsts_loaded _ _ _ x.isLt, Memory.write_slice]
    · exact hblock

/-- All sixteen registers in the last bytes of memory, of which only `V0` is loaded again. -/
theorem transfers_are_inverse_at_end_of_memory :
    let v := (Registers.zero.write 0 11).write 0xF 99
    let m : Machine := { new {} (.cycling #[]) with v, index := 4080 }
    let replaced := Registers.zero.write 1 5
    (Memory.Holds m.index (0xF + 1) ∧ (0 : Fin 16) ≤ 0xF) ∧
      ∃ memory, m.execute (.storeRegisters 0xF) = (.ok (), { m with memory, pc := 0x202 }) ∧
        memory.read 4095 = 99 ∧
        ∃ v', { m with memory, v := replaced, pc := 0x202 }.execute (.loadRegisters 0) =
            (.ok (), { m with memory, v := v', pc := 0x204 }) ∧
          v'.read 0 = 11 ∧ v'.read 1 = 5 := by
  intro v m replaced
  have hblock : Memory.Holds m.index (0xF + 1) := by decide
  have hle : (0 : Fin 16) ≤ 0xF := by decide
  obtain ⟨⟨memory, hstore, hread, -, hload⟩, -⟩ := transfers_are_inverse m 0xF hblock
  obtain ⟨v', hv', hfirst, hothers⟩ := hload replaced 0 hle
  exact ⟨⟨hblock, hle⟩, memory, hstore, hread 0xF (by decide), v', hv', hfirst 0 (by decide),
    hothers 1 (by decide)⟩

end Chip8.Machine
