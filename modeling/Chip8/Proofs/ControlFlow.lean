import Chip8.Proofs.Effect
import Chip8.Proofs.Encoding

/-! # Where a program goes on

The program counter behind an instruction has one of these sources:

* the operand of a jump or of a call, the newest saved address for a return;
* the sum of operand and register for an offset jump, which nothing keeps inside memory;
* the place of the instruction itself, for a wait whose key is up;
* the next instruction or the one behind it, for the six skips;
* the next instruction, for all others.

`Machine.GoesTo` is this table.  The register of an offset jump is named by a digit of its word,
which `Instruction.decode` hands on as an operand (`jumpOffset_of_decode`).

The skips come in pairs with opposite conditions.  A skip is no more than its condition
(`execute_of_opposite`), so the two of a pair differ in where they go on and in nothing else. -/

namespace Chip8

/-- The other skip of the pair, with the opposite condition on the same operands. -/
def Instruction.opposite? : Instruction → Option Instruction
  | .skipEqValue x value => some (.skipNeValue x value)
  | .skipNeValue x value => some (.skipEqValue x value)
  | .skipEq x y => some (.skipNe x y)
  | .skipNe x y => some (.skipEq x y)
  | .skipKeyDown x => some (.skipKeyUp x)
  | .skipKeyUp x => some (.skipKeyDown x)
  | _ => none

theorem Instruction.opposite?_symm {i j : Instruction} (h : i.opposite? = some j) :
    j.opposite? = some i := by
  cases i <;> cases h <;> rfl

/-- An offset jump carries the second digit of its word as a register number. -/
theorem Instruction.jumpOffset_of_decode {w : Int} {x a : Nat}
    (h : decode w = .ok (.jumpOffset x a)) : x = (w / 0x100 % 0x10).toNat := by
  obtain ⟨hw, hi⟩ := decode_eq_ok_iff.mp h
  obtain ⟨hoperands, hoffset⟩ := inRange_of_ofWord? hi
  have ha : a < 0x1000 := hoperands (.address, a) (List.mem_cons_of_mem _ List.mem_cons_self)
  have hx : x = a / 0x100 := hoffset x a rfl
  have hword : addressWord 0xB a = essential w.toNat := encode_of_ofWord? hi
  unfold addressWord essential at hword
  by_cases hgroup : IgnoresLast (w.toNat / 0x1000)
  · rw [if_pos hgroup] at hword
    unfold IgnoresLast at hgroup
    omega
  · rw [if_neg hgroup] at hword
    omega

namespace Machine

variable {m m' : Machine} {i j : Instruction}

/-- The machine goes on at `p` behind the instruction `i` of the word `w`. -/
def GoesTo (m : Machine) (w : Int) (i : Instruction) (p : Int) : Prop :=
  match i with
  | .jump a | .call a => p = a
  | .ret => ∃ older, m.stack.entries = p :: older
  | .jumpOffset _ a =>
      p = a + (m.v.read (if m.dialect.offsetFromVx then (w / 0x100 % 0x10).toNat else 0)).toNat
  | .waitKey x => p = m.pc + if m.keypad.isDown (m.keyOf x) then 2 else 0
  | .skipEqValue x value => p = m.pc + if (m.v.read x).toNat = value then 4 else 2
  | .skipNeValue x value => p = m.pc + if (m.v.read x).toNat ≠ value then 4 else 2
  | .skipEq x y => p = m.pc + if m.v.read x = m.v.read y then 4 else 2
  | .skipNe x y => p = m.pc + if m.v.read x ≠ m.v.read y then 4 else 2
  | .skipKeyDown x => p = m.pc + if m.keypad.isDown (m.keyOf x) then 4 else 2
  | .skipKeyUp x => p = m.pc + if ¬ m.keypad.isDown (m.keyOf x) then 4 else 2
  | _ => p = m.pc + 2

theorem goesTo_of_execute {w : Int} (hw : Instruction.decode w = .ok i)
    (h : m.execute i = (.ok (), m')) : m.GoesTo w i m'.pc := by
  have he : Effect m i m' := effect_of_execute h
  have hpc : m'.pc = m.nextPc i := he.pc
  cases i with
  | ret =>
      cases hs : m.stack.entries with
      | nil => exact absurd hs (he.depth_pos rfl)
      | cons p older =>
          rw [nextPc, hs, List.headD_cons] at hpc
          exact ⟨older, by rw [hpc, hs]⟩
  | jumpOffset x a =>
      have hx : x = (w / 0x100 % 0x10).toNat := Instruction.jumpOffset_of_decode hw
      rw [nextPc, hx, Int.add_comm] at hpc
      exact hpc
  | skipKeyDown x => exact hpc
  | skipKeyUp x =>
      by_cases hdown : m.keypad.isDown (m.keyOf x) <;>
        simpa [GoesTo, nextPc, increment, skips, hdown] using hpc
  | _ => simpa [GoesTo, nextPc, increment, skips] using hpc

theorem execute_of_opposite (h : i.opposite? = some j) :
    m.execute i = (.ok (), m.skipIf (m.skips i)) := by
  cases i <;> cases h <;> rfl

theorem skips_of_opposite (h : i.opposite? = some j) : m.skips j = !m.skips i := by
  cases i <;> cases h <;> simp [skips]

/-- **Control flow.**  A completed instruction goes on where the table says, whatever word it was
decoded from.  Of the two skips of a pair, each is carried out from every machine, exactly one of
them skips the next instruction, and neither changes anything but the program counter. -/
theorem control_flow (m : Machine) :
    (∀ w i m', Instruction.decode w = .ok i → m.execute i = (.ok (), m') → m.GoesTo w i m'.pc) ∧
    ∀ i j, i.opposite? = some j → ∃ skip : Bool,
      m.execute i = (.ok (), { m with pc := m.pc + if skip then 4 else 2 }) ∧
      m.execute j = (.ok (), { m with pc := m.pc + if skip then 2 else 4 }) := by
  refine ⟨fun w i m' => goesTo_of_execute, fun i j h => ⟨m.skips i, execute_of_opposite h, ?_⟩⟩
  rw [execute_of_opposite (Instruction.opposite?_symm h), skips_of_opposite h]
  cases m.skips i <;> rfl

/-- An offset jump that leaves memory, by the flag register, and a test of the key `F`. -/
theorem control_flow_out_of_memory :
    let v := Registers.zero.write 0xF 0xFF
    let m : Machine := { new {} (.cycling #[]) with v }
    let far : Machine := { m with pc := 0x10FE }
    (Instruction.decode 0xBFFF = .ok (.jumpOffset 0xF 0xFFF) ∧
        m.execute (.jumpOffset 0xF 0xFFF) = (.ok (), far) ∧
        (Instruction.skipKeyUp 0xF).opposite? = some (.skipKeyDown 0xF)) ∧
      far.pc = 0xFFF + (m.v.read 0xF).toNat ∧
      ∃ skip : Bool,
        m.execute (.skipKeyUp 0xF) = (.ok (), { m with pc := 0x200 + if skip then 4 else 2 }) ∧
        m.execute (.skipKeyDown 0xF) = (.ok (), { m with pc := 0x200 + if skip then 2 else 4 }) := by
  intro v m far
  have hdecode : Instruction.decode 0xBFFF = .ok (.jumpOffset 0xF 0xFFF) := rfl
  have hexecute : m.execute (.jumpOffset 0xF 0xFFF) = (.ok (), far) := rfl
  have hpair : (Instruction.skipKeyUp 0xF).opposite? = some (.skipKeyDown 0xF) := rfl
  obtain ⟨hgo, hskip⟩ := control_flow m
  exact ⟨⟨hdecode, hexecute, hpair⟩, hgo 0xBFFF _ far hdecode hexecute, hskip _ _ hpair⟩

end Machine

end Chip8
