import Chip8.Fault

/-! # The call stack

A bounded stack of 16-bit return addresses.  The capacity may be any integer; a stack of capacity
zero or below holds nothing.  Pushing first asks whether the address is a 16-bit number and then
whether there is room, so an address out of range is reported even when the stack is full.  A
refused operation answers with a fault and no new stack. -/

namespace Chip8

/-- A stack of return addresses. -/
structure CallStack (capacity : Int) where
  /-- The saved addresses, the most recent one first. -/
  entries : List Int
deriving DecidableEq

namespace CallStack

variable {capacity : Int}

/-- The stack without entries. -/
def empty : CallStack capacity := ⟨[]⟩

instance : EmptyCollection (CallStack capacity) := ⟨empty⟩

/-- The number of saved addresses. -/
def size (s : CallStack capacity) : Nat := s.entries.length

/-- The saved addresses, the oldest one first. -/
def toList (s : CallStack capacity) : List Int := s.entries.reverse

/-- Saves an address. -/
def push (s : CallStack capacity) (address : Int) : Except Fault (CallStack capacity) :=
  if 0 ≤ address ∧ address ≤ 0xFFFF then
    if (s.size : Int) ≥ capacity then .error (.stackOverflow address)
    else .ok ⟨address :: s.entries⟩
  else .error (.returnAddress address)

/-- Removes the most recent address. -/
def pop (s : CallStack capacity) : Except Fault (Int × CallStack capacity) :=
  match s.entries with
  | [] => .error .stackUnderflow
  | address :: rest => .ok (address, ⟨rest⟩)

/-- The most recent address. -/
def peek (s : CallStack capacity) : Except Fault Int :=
  match s.entries with
  | [] => .error .stackUnderflow
  | address :: _ => .ok address

@[ext] theorem ext {s s' : CallStack capacity} (eq : ∀ k : Nat, s.toList[k]? = s'.toList[k]?) :
    s = s' := by
  obtain ⟨entries⟩ := s
  obtain ⟨entries'⟩ := s'
  congr 1
  exact List.reverse_inj.mp (List.ext_getElem? eq)

theorem push_eq_ok_iff {s s' : CallStack capacity} {address : Int} :
    s.push address = .ok s' ↔
      (0 ≤ address ∧ address ≤ 0xFFFF) ∧ (s.size : Int) < capacity ∧
        s' = ⟨address :: s.entries⟩ := by
  unfold push
  by_cases fits : 0 ≤ address ∧ address ≤ 0xFFFF
  · by_cases full : (s.size : Int) ≥ capacity
    · have no : ¬ (s.size : Int) < capacity := by omega
      rw [if_pos fits, if_pos full]
      simp [no]
    · have room : (s.size : Int) < capacity := by omega
      rw [if_pos fits, if_neg full]
      simp [fits, room, eq_comm]
  · rw [if_neg fits]
    simp [fits]

theorem push_eq_error_iff {s : CallStack capacity} {address : Int} {f : Fault} :
    s.push address = .error f ↔
      (¬ (0 ≤ address ∧ address ≤ 0xFFFF) ∧ f = .returnAddress address) ∨
        ((0 ≤ address ∧ address ≤ 0xFFFF) ∧ capacity ≤ s.size ∧ f = .stackOverflow address) := by
  unfold push
  by_cases fits : 0 ≤ address ∧ address ≤ 0xFFFF
  · by_cases full : (s.size : Int) ≥ capacity
    · rw [if_pos fits, if_pos full]
      simp [fits, full, eq_comm]
    · have room : ¬ capacity ≤ (s.size : Int) := full
      rw [if_pos fits, if_neg full]
      simp [fits, room]
  · rw [if_neg fits]
    simp [fits, eq_comm]

theorem pop_eq_ok_iff {s s' : CallStack capacity} {address : Int} :
    s.pop = .ok (address, s') ↔ s.entries = address :: s'.entries := by
  obtain ⟨entries⟩ := s
  obtain ⟨entries'⟩ := s'
  cases entries <;> simp [pop]

theorem pop_eq_error_iff {s : CallStack capacity} {f : Fault} :
    s.pop = .error f ↔ s.entries = [] ∧ f = .stackUnderflow := by
  obtain ⟨entries⟩ := s
  cases entries <;> simp [pop, eq_comm]

theorem getElem?_toList {s : CallStack capacity} {address : Int} {rest : List Int}
    (h : s.entries = address :: rest) (k : Nat) :
    s.toList[k]? = if k = rest.length then some address else rest.reverse[k]? := by
  rw [toList, h, List.reverse_cons]
  by_cases last : k = rest.length
  · rw [if_pos last, last, ← List.length_reverse, List.getElem?_concat_length]
  · rw [if_neg last]
    rcases Nat.lt_or_gt_of_ne last with before | behind
    · rw [List.getElem?_append_left (by simpa using before)]
    · rw [List.getElem?_eq_none (by simp; omega), List.getElem?_eq_none (by simp; omega)]

end CallStack

end Chip8
