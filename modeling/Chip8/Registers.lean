/-! # Registers

Sixteen registers of one byte, `V0` to `VF`.  Register `VF` is also the flag: arithmetic leaves a
carry, a borrow or a shifted bit there, and drawing leaves whether a pixel went off.  A register is
selected by the lowest four bits of its number. -/

namespace Chip8

/-- The sixteen byte registers. -/
structure Registers where
  bytes : Vector UInt8 16
deriving DecidableEq

namespace Registers

/-- The number of registers. -/
def count : Nat := 16

/-- The number of the flag register. -/
def flag : Nat := 0xF

/-- All registers zero. -/
def zero : Registers := ⟨Vector.replicate 16 0⟩

/-- The contents of a register. -/
def read (v : Registers) (x : Nat) : UInt8 := v.bytes[x % 16]

/-- Puts a byte into a register. -/
def write (v : Registers) (x : Nat) (b : UInt8) : Registers := ⟨v.bytes.set (x % 16) b⟩

/-- Puts zero or one into the flag register. -/
def setFlag (v : Registers) (on : Bool) : Registers := v.write flag (if on then 1 else 0)

/-- The contents of the registers before `n`, in order. -/
def firsts (v : Registers) (n : Nat) : List UInt8 := (List.range n).map v.read

/-- Puts the bytes into the registers from `x` on, in order. -/
def writeFrom : Registers → Nat → List UInt8 → Registers
  | v, _, [] => v
  | v, x, b :: bytes => writeFrom (v.write x b) (x + 1) bytes

@[ext] theorem ext {v v' : Registers} (eq : ∀ x < 16, v.read x = v'.read x) : v = v' := by
  obtain ⟨bytes⟩ := v
  obtain ⟨bytes'⟩ := v'
  congr 1
  apply Vector.ext
  intro x hx
  simpa [read, Nat.mod_eq_of_lt hx] using eq x hx

theorem read_write (v : Registers) (x y : Nat) (b : UInt8) :
    (v.write x b).read y = if y % 16 = x % 16 then b else v.read y := by
  simp only [read, write, Vector.getElem_set, eq_comm]

theorem read_write_of_ne {v : Registers} {x y : Nat} {b : UInt8} (ne : y % 16 ≠ x % 16) :
    (v.write x b).read y = v.read y := by
  rw [read_write, if_neg ne]

theorem read_write_of_fin_ne {v : Registers} {x z : Fin 16} {b : UInt8} (ne : z ≠ x) :
    (v.write x b).read z = v.read z := by
  apply read_write_of_ne
  rwa [Nat.mod_eq_of_lt z.isLt, Nat.mod_eq_of_lt x.isLt, ne_eq, ← Fin.ext_iff]

@[simp] theorem read_mod (v : Registers) (x : Nat) : v.read (x % 16) = v.read x := by
  simp [read]

@[simp] theorem write_write (v : Registers) (x : Nat) (b c : UInt8) :
    (v.write x b).write x c = v.write x c := by
  simp [write]

@[simp] theorem write_read (v : Registers) (x : Nat) : v.write x (v.read x) = v := by
  simp [write, read]

theorem read_writeFrom_of_ne {v : Registers} {x y : Nat} {bytes : List UInt8}
    (ne : ∀ k < bytes.length, y % 16 ≠ (x + k) % 16) : (v.writeFrom x bytes).read y = v.read y := by
  induction bytes generalizing v x with
  | nil => rfl
  | cons b bytes ih =>
    have first : y % 16 ≠ x % 16 := ne 0 (by simp)
    rw [writeFrom, ih, read_write_of_ne first]
    intro k hk
    have later := ne (k + 1) (by simpa using hk)
    rwa [show x + 1 + k = x + (k + 1) by omega]

theorem read_writeFrom_add {v : Registers} {x k : Nat} {bytes : List UInt8}
    (fits : x + bytes.length ≤ 16) (h : k < bytes.length) :
    (v.writeFrom x bytes).read (x + k) = bytes[k] := by
  induction bytes generalizing v x k with
  | nil => exact absurd h (Nat.not_lt_zero k)
  | cons b bytes ih =>
    rw [List.length_cons] at fits h
    rw [writeFrom]
    cases k with
    | zero =>
      rw [read_writeFrom_of_ne (fun k hk => by omega), Nat.add_zero, read_write, if_pos rfl,
        List.getElem_cons_zero]
    | succ k =>
      rw [show x + (k + 1) = x + 1 + k by omega, ih (by omega) (by omega), List.getElem_cons_succ]

theorem read_writeFrom {v : Registers} {k : Nat} {bytes : List UInt8} (fits : bytes.length ≤ 16)
    (hk : k < 16) :
    (v.writeFrom 0 bytes).read k = if h : k < bytes.length then bytes[k] else v.read k := by
  split
  · next h =>
    have filled := read_writeFrom_add (v := v) (x := 0) (by omega) h
    rwa [Nat.zero_add] at filled
  · next h => exact read_writeFrom_of_ne fun j hj => by omega

@[simp] theorem length_firsts (v : Registers) (n : Nat) : (v.firsts n).length = n := by
  simp [firsts]

@[simp] theorem getElem_firsts {v : Registers} {n k : Nat} (h : k < (v.firsts n).length) :
    (v.firsts n)[k] = v.read k := by
  simp [firsts]

theorem firsts_writeFrom {v : Registers} {bytes : List UInt8} (fits : bytes.length ≤ 16) :
    (v.writeFrom 0 bytes).firsts bytes.length = bytes := by
  apply List.ext_getElem (length_firsts _ _)
  intro k _ hk
  rw [getElem_firsts, read_writeFrom fits (by omega), dif_pos hk]

end Registers

end Chip8
