import Chip8.Instruction.Decode

/-! # What the decoder yields

Every operand that the decoder yields fits its place in a word (`Instruction.inRange_of_ofWord?`),
because each is a remainder of the word.  `Instruction.decode` on a natural number is
`Instruction.ofWord?` with a fault in place of `none`. -/

namespace Chip8.Instruction

theorem inRange_of_arithmetic? {s x y : Nat} {i : Instruction} (hx : x < 0x10) (hy : y < 0x10)
    (h : arithmetic? s x y = some i) : i.InRange := by
  unfold arithmetic? at h
  split at h
  case h_10 => cases h
  all_goals
    obtain rfl := Option.some.inj h
    simp [InRange, operands, Operand.limit, hx, hy]

theorem inRange_of_keyTest? {s x : Nat} {i : Instruction} (hx : x < 0x10)
    (h : keyTest? s x = some i) : i.InRange := by
  unfold keyTest? at h
  split at h
  case h_3 => cases h
  all_goals
    obtain rfl := Option.some.inj h
    simp [InRange, operands, Operand.limit, hx]

theorem inRange_of_transfer? {s x : Nat} {i : Instruction} (hx : x < 0x10)
    (h : transfer? s x = some i) : i.InRange := by
  unfold transfer? at h
  split at h
  case h_10 => cases h
  all_goals
    obtain rfl := Option.some.inj h
    simp [InRange, operands, Operand.limit, hx]

theorem inRange_of_ofWord? {w : Nat} {i : Instruction} (h : ofWord? w = some i) : i.InRange := by
  have hx : w / 0x100 % 0x10 < 0x10 := Nat.mod_lt _ (by decide)
  have hy : w / 0x10 % 0x10 < 0x10 := Nat.mod_lt _ (by decide)
  have hn : w % 0x10 < 0x10 := Nat.mod_lt _ (by decide)
  have hv : w % 0x100 < 0x100 := Nat.mod_lt _ (by decide)
  have ha : w % 0x1000 < 0x1000 := Nat.mod_lt _ (by decide)
  unfold ofWord? at h
  dsimp only at h
  split at h
  case h_1 =>
    by_cases hcls : w = 0xE0
    · rw [if_pos hcls] at h
      obtain rfl := Option.some.inj h
      simp [InRange, operands]
    · rw [if_neg hcls] at h
      by_cases hret : w = 0xEE
      · rw [if_pos hret] at h
        obtain rfl := Option.some.inj h
        simp [InRange, operands]
      · rw [if_neg hret] at h
        cases h
  case h_9 => exact inRange_of_arithmetic? hx hy h
  case h_12 =>
    -- The offset jump reads its register from the top digit of its address.
    have htop : w / 0x100 % 0x10 = w % 0x1000 / 0x100 := by omega
    obtain rfl := Option.some.inj h
    refine ⟨?_, ?_⟩
    · simp [operands, Operand.limit, hx, ha]
    · intro x a he
      cases he
      exact htop
  case h_15 => exact inRange_of_keyTest? hx h
  case h_16 => exact inRange_of_transfer? hx h
  case h_17 => cases h
  all_goals
    obtain rfl := Option.some.inj h
    simp [InRange, operands, Operand.limit, hx, hy, hn, hv, ha]

theorem decode_natCast (w : Nat) :
    decode w = match ofWord? w with
      | some i => .ok i
      | none => .error (.unknownOpcode w) := by
  have hw : 0 ≤ (w : Int) := Int.natCast_nonneg w
  unfold decode
  cases h : ofWord? w <;> simp [hw, h]

theorem decode_natCast_eq_ok_iff {w : Nat} {i : Instruction} :
    decode w = .ok i ↔ ofWord? w = some i := by
  rw [decode_natCast]
  cases ofWord? w <;> simp

theorem decode_natCast_eq_error_iff {w : Nat} {f : Fault} :
    decode w = .error f ↔ ofWord? w = none ∧ f = .unknownOpcode w := by
  rw [decode_natCast]
  cases ofWord? w <;> simp [eq_comm]

end Chip8.Instruction
