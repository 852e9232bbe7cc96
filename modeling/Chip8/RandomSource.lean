/-! # Random bytes

A `RandomSource` is an endless sequence of bytes together with the number of bytes already taken
from it.  Everything that needs a random byte is then a function of the sequence, and a theorem
about all sequences is a theorem about all sources.

`RandomSource.cycling` repeats a list of numbers, each reduced to a byte; `RandomSource.seeded`
mixes a seed with the position, for use outside of tests. -/

namespace Chip8

/-- A sequence of bytes with a position. -/
structure RandomSource where
  sequence : Nat → UInt8
  position : Nat := 0

namespace RandomSource

/-- The next byte, and the source behind it. -/
def next (r : RandomSource) : UInt8 × RandomSource :=
  (r.sequence r.position, { r with position := r.position + 1 })

/-- The numbers of a list over and over, modulo 256.  The empty list gives zeros. -/
def cycling (numbers : Array Int) : RandomSource where
  sequence k := UInt8.ofNat ((numbers.getD (k % numbers.size) 0) % 256).toNat

/-- A sequence without visible pattern: each position is added to the seed in multiples of the
golden ratio and then scrambled by two rounds of shift and multiplication. -/
def seeded (seed : UInt64) : RandomSource where
  sequence k :=
    let z := seed + (UInt64.ofNat k + 1) * 0x9E3779B97F4A7C15
    let z := (z ^^^ (z >>> 30)) * 0xBF58476D1CE4E5B9
    let z := (z ^^^ (z >>> 27)) * 0x94D049BB133111EB
    (z ^^^ (z >>> 31)).toUInt8

end RandomSource

end Chip8
