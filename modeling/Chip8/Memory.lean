import Chip8.Fault
import Chip8.Instruction.Decode

/-! # Memory

The 4096 bytes of memory.  `Memory.read` is the view: it answers for every natural number, with
zero beyond the end.  `Memory.write` lays a list of bytes over the memory from a start address, and
what would fall beyond the end is dropped.  Whoever must not reach beyond the end asks
`Memory.check` first. -/

namespace Chip8

/-- The bytes of memory. -/
structure Memory where
  bytes : Vector UInt8 4096
deriving DecidableEq

namespace Memory

/-- The number of bytes. -/
def size : Nat := 4096

/-- Memory full of zeros. -/
def zero : Memory := ⟨Vector.replicate size 0⟩

/-- The byte at an address. -/
def read (m : Memory) (address : Nat) : UInt8 :=
  if h : address < 4096 then m.bytes[address] else 0

/-- The bytes from `start` on, `length` of them. -/
def slice (m : Memory) (start length : Nat) : List UInt8 :=
  (List.range length).map fun k => m.read (start + k)

/-- The word at an address, high byte first. -/
def word (m : Memory) (address : Nat) : Nat :=
  Instruction.word (m.read address) (m.read (address + 1))

/-- Lays `data` over the memory from `start` on. -/
def write : Memory → Nat → List UInt8 → Memory
  | m, _, [] => m
  | m, start, b :: data => write ⟨m.bytes.setIfInBounds start b⟩ (start + 1) data

/-- Whether the `length` bytes from `address` on are all in memory. -/
def Holds (address : Int) (length : Nat) : Prop := 0 ≤ address ∧ address + length ≤ 4096

instance (address : Int) (length : Nat) : Decidable (Holds address length) :=
  inferInstanceAs (Decidable (0 ≤ address ∧ address + length ≤ 4096))

/-- Refuses a range of bytes that is not all in memory. -/
def check (address : Int) (length : Nat) : Except Fault Unit :=
  if Holds address length then .ok () else .error (.memoryRange address length)

@[ext] theorem ext {m m' : Memory} (eq : ∀ a, m.read a = m'.read a) : m = m' := by
  obtain ⟨bytes⟩ := m
  obtain ⟨bytes'⟩ := m'
  congr 1
  apply Vector.ext
  intro a ha
  simpa [read, ha] using eq a

theorem read_of_ge {m : Memory} {a : Nat} (out : 4096 ≤ a) : m.read a = 0 := by
  rw [read, dif_neg (by omega)]

theorem read_write (m : Memory) (start : Nat) (data : List UInt8) (a : Nat) :
    (m.write start data).read a =
      if h : start ≤ a ∧ a - start < data.length ∧ a < 4096 then data[a - start]
      else m.read a := by
  induction data generalizing m start with
  | nil => simp [write]
  | cons b data ih =>
    rw [write, ih]
    by_cases here : a = start
    · subst here
      rw [dif_neg (show ¬ (a + 1 ≤ a ∧ a - (a + 1) < data.length ∧ a < 4096) by omega)]
      by_cases inside : a < 4096
      · simp [inside, read]
      · simp [inside, read]
    · by_cases later : start + 1 ≤ a ∧ a - (start + 1) < data.length ∧ a < 4096
      · have all : start ≤ a ∧ a - start < (b :: data).length ∧ a < 4096 := by
          simp only [List.length_cons]; omega
        have step : a - start = (a - (start + 1)) + 1 := by omega
        rw [dif_pos later, dif_pos all]
        simp only [step, List.getElem_cons_succ]
      · have none : ¬ (start ≤ a ∧ a - start < (b :: data).length ∧ a < 4096) := by
          simp only [List.length_cons]; omega
        rw [dif_neg later, dif_neg none]
        unfold read
        split
        · have ne : ¬ start = a := fun e => here e.symm
          simp [ne]
        · rfl

theorem read_write_add {m : Memory} {start k : Nat} {data : List UInt8}
    (fits : start + data.length ≤ 4096) (h : k < data.length) :
    (m.write start data).read (start + k) = data[k] := by
  have inside : start ≤ start + k ∧ start + k - start < data.length ∧ start + k < 4096 := by omega
  rw [read_write, dif_pos inside]
  simp only [Nat.add_sub_cancel_left]

@[simp] theorem length_slice (m : Memory) (start length : Nat) :
    (m.slice start length).length = length := by
  simp [slice]

@[simp] theorem getElem_slice {m : Memory} {start length k : Nat}
    (h : k < (m.slice start length).length) : (m.slice start length)[k] = m.read (start + k) := by
  simp [slice]

theorem take_drop_slice {m : Memory} {start length k n : Nat} (inside : k + n ≤ length) :
    ((m.slice start length).drop k).take n = m.slice (start + k) n := by
  apply List.ext_getElem
  · simp only [List.length_take, List.length_drop, length_slice]
    omega
  · intro i _ _
    simp only [List.getElem_take, List.getElem_drop, getElem_slice, Nat.add_assoc]

theorem slice_write {m : Memory} {start : Nat} {data : List UInt8}
    (fits : start + data.length ≤ 4096) :
    (m.write start data).slice start data.length = data := by
  apply List.ext_getElem (length_slice _ _ _)
  intro k _ hk
  rw [getElem_slice, read_write_add fits hk]

theorem slice_write_of_le {m : Memory} {start length address : Nat} {data : List UInt8}
    (before : start + length ≤ address) :
    (m.write address data).slice start length = m.slice start length := by
  apply List.ext_getElem
  · simp only [length_slice]
  · intro k hk _
    rw [length_slice] at hk
    rw [getElem_slice, getElem_slice, read_write, dif_neg (by omega)]

theorem write_slice (m : Memory) (start length : Nat) :
    m.write start (m.slice start length) = m := by
  apply Memory.ext
  intro a
  rw [read_write]
  split
  · next inside => rw [getElem_slice, Nat.add_sub_cancel' inside.1]
  · rfl

/-- The words of an image that fits are those of its bytes. -/
theorem word_write_add {m : Memory} {start k : Nat} {data : List UInt8}
    (fits : start + data.length ≤ 4096) (h : k + 1 < data.length) :
    (m.write start data).word (start + k) = Instruction.word data[k] data[k + 1] := by
  rw [word, read_write_add fits (by omega), Nat.add_assoc, read_write_add fits h]

end Memory

end Chip8
