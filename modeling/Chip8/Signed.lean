/-! # Signed numbers of a fixed width

An integer fits into `bits` bits, one of them for the sign, if it lies between `-2 ^ (bits - 1)` and
`2 ^ (bits - 1) - 1`; there are `Signed.count bits` of them.  `Signed.wrap` keeps the lowest bits of
an integer and reads them with their sign; an integer that fits stays as it is. -/

namespace Chip8

namespace Signed

/-- The number of integers that fit into the given count of bits. -/
@[inline] def count (bits : Nat) : Nat := Nat.pow 2 bits

/-- Whether an integer fits into the given count of bits. -/
def Fits (bits : Nat) (n : Int) : Prop := -(count bits : Int) ≤ 2 * n ∧ 2 * n < (count bits : Int)

@[inline] instance (bits : Nat) (n : Int) : Decidable (Fits bits n) :=
  inferInstanceAs (Decidable (_ ∧ _))

/-- The lowest bits of an integer, read with their sign. -/
@[inline] def wrap (bits : Nat) (n : Int) : Int := n.bmod (count bits)

theorem Fits.mono {bits bits' : Nat} {n : Int} (fits : Fits bits n) (le : bits ≤ bits') :
    Fits bits' n := by
  obtain ⟨low, high⟩ := fits
  have grows : count bits ≤ count bits' := Nat.pow_le_pow_right (by decide) le
  constructor
  · omega
  · omega

theorem wrap_of_fits {bits : Nat} {n : Int} (fits : Fits bits n) : wrap bits n = n := by
  obtain ⟨low, high⟩ := fits
  apply Int.bmod_eq_of_le_mul_two
  · omega
  · omega

end Signed

end Chip8
