import Chip8.CallStack

/-! # What a stack holds behind a history of calls

A stack is pushed to, popped, looked at, measured and cleared, in any order.  Besides a clear there
are three things that a call can do (`call_cases`): nothing, put one address on top, take one off.
From these:

* a stack never outgrows its capacity and holds 16-bit numbers only (`Bounded.callAll`);
* a pushed address and everything below it stay in place until a pop brings the size back to what it
  was before the push (`suffix_callAll`), and that pop answers with the address (`Matches.pop_eq`).

What a capacity of zero or below means is decided by the first: such a stack stays empty, and every
push of a 16-bit number overflows. -/

namespace Chip8.CallStack

/-- A call on a stack. -/
inductive Call where
  | push (address : Int)
  | pop
  | peek
  | size
  | clear
deriving DecidableEq, Repr

/-- What a call answers with. -/
inductive Answer where
  | address (a : Int)
  | size (n : Nat)
  | done
deriving DecidableEq, Repr

variable {capacity a p : Int} {s : CallStack capacity} {c : Call} {calls between : List Call}
  {saved : List Int} {f : Fault}

/-- Makes a call.  A call that is refused leaves the stack as it is. -/
def call (s : CallStack capacity) : Call → Except Fault Answer × CallStack capacity
  | .push a =>
      match s.push a with
      | .ok s' => (.ok .done, s')
      | .error f => (.error f, s)
  | .pop =>
      match s.pop with
      | .ok (a, s') => (.ok (.address a), s')
      | .error f => (.error f, s)
  | .peek => (s.peek.map .address, s)
  | .size => (.ok (.size s.size), s)
  | .clear => (.ok .done, ∅)

/-- The stack behind a list of calls. -/
def callAll (s : CallStack capacity) (calls : List Call) : CallStack capacity :=
  calls.foldl (fun s c => (s.call c).2) s

/-- The pop behind `between` matches the push of `a` in front of it: it is the first pop since that
push which brings the size back, and nothing was cleared in between. -/
structure Matches (s : CallStack capacity) (a : Int) (between : List Call) : Prop where
  pushed : (s.call (.push a)).1 = .ok .done
  uncleared : .clear ∉ between
  back : (s.callAll (.push a :: between ++ [.pop])).size = s.size
  first : ∀ earlier, earlier ++ [.pop] <+: between →
    (s.callAll (.push a :: earlier ++ [.pop])).size ≠ s.size

/-- A stack within its capacity, with 16-bit numbers in it. -/
structure Bounded (s : CallStack capacity) : Prop where
  size_le : (s.size : Int) ≤ max 0 capacity
  fits : ∀ a ∈ s.entries, 0 ≤ a ∧ a ≤ 0xFFFF

/-! ### One call -/

theorem call_push_of_ok {s' : CallStack capacity} (h : s.push a = .ok s') :
    s.call (.push a) = (.ok .done, s') := by
  simp only [call, h]

theorem call_push_of_error (h : s.push a = .error f) : s.call (.push a) = (.error f, s) := by
  simp only [call, h]

theorem call_pop_of_cons (h : s.entries = a :: saved) :
    s.call .pop = (.ok (.address a), ⟨saved⟩) := by
  simp only [call, pop, h]

theorem call_pop_of_nil (h : s.entries = []) : s.call .pop = (.error .stackUnderflow, s) := by
  simp only [call, pop, h]

/-- A call that is no clear leaves the stack alone, or puts an address on top, or takes one off. -/
theorem call_cases (s : CallStack capacity) (hc : c ≠ .clear) :
    (s.call c).2 = s ∨
      (∃ a, c = .push a ∧ (0 ≤ a ∧ a ≤ 0xFFFF) ∧ (s.size : Int) < capacity ∧
        (s.call c).2.entries = a :: s.entries) ∨
      (c = .pop ∧ ∃ a, (s.call c).1 = .ok (.address a) ∧
        s.entries = a :: (s.call c).2.entries) := by
  cases c with
  | push a =>
      cases hp : s.push a with
      | ok s' =>
          obtain ⟨hfits, hroom, rfl⟩ := push_eq_ok_iff.mp hp
          rw [call_push_of_ok hp]
          exact Or.inr (Or.inl ⟨a, rfl, hfits, hroom, rfl⟩)
      | error f =>
          rw [call_push_of_error hp]
          exact Or.inl rfl
  | pop =>
      cases hs : s.entries with
      | nil =>
          rw [call_pop_of_nil hs]
          exact Or.inl rfl
      | cons a rest =>
          rw [call_pop_of_cons hs]
          exact Or.inr (Or.inr ⟨rfl, a, rfl, rfl⟩)
  | peek | size => exact Or.inl rfl
  | clear => exact absurd rfl hc

theorem call_eq_of_error (he : (s.call c).1 = .error f) : (s.call c).2 = s := by
  cases c with
  | push a =>
      cases hp : s.push a with
      | ok s' =>
          rw [call_push_of_ok hp] at he
          cases he
      | error g => rw [call_push_of_error hp]
  | pop =>
      cases hs : s.entries with
      | nil => rw [call_pop_of_nil hs]
      | cons a rest =>
          rw [call_pop_of_cons hs] at he
          cases he
  | peek | size => rfl
  | clear => cases he

theorem bounded_empty : (∅ : CallStack capacity).Bounded :=
  ⟨Int.le_max_left 0 capacity, nofun⟩

theorem Bounded.call (h : s.Bounded) (c : Call) : (s.call c).2.Bounded := by
  by_cases hc : c = .clear
  · subst hc
    exact bounded_empty
  · rcases call_cases s hc with he | ⟨a, -, hfits, hroom, he⟩ | ⟨-, a, -, he⟩
    · rw [he]
      exact h
    · refine ⟨?_, ?_⟩
      · simp only [CallStack.size] at hroom ⊢
        rw [he, List.length_cons]
        omega
      · rw [he]
        exact List.forall_mem_cons.mpr ⟨hfits, h.fits⟩
    · have hsize := h.size_le
      have hall := h.fits
      rw [he] at hall
      simp only [CallStack.size, he, List.length_cons] at hsize
      refine ⟨?_, (List.forall_mem_cons.mp hall).2⟩
      simp only [CallStack.size]
      omega

/-- An address and all below it stay in place, or the call is the pop that removes it. -/
theorem suffix_call (hc : c ≠ .clear) (h : (p :: saved) <:+ s.entries) :
    (p :: saved) <:+ (s.call c).2.entries ∨ c = .pop ∧ s.call c = (.ok (.address p), ⟨saved⟩) := by
  rcases call_cases s hc with he | ⟨a, -, -, -, he⟩ | ⟨rfl, a, -, he⟩
  · rw [he]
    exact Or.inl h
  · rw [he]
    exact Or.inl (h.trans (List.suffix_cons _ _))
  · rw [he] at h
    rcases List.suffix_cons_iff.mp h with hall | hrest
    · rw [← hall] at he
      exact Or.inr ⟨rfl, call_pop_of_cons he⟩
    · exact Or.inl hrest

/-! ### A history of calls -/

theorem callAll_append (s : CallStack capacity) (calls later : List Call) :
    s.callAll (calls ++ later) = (s.callAll calls).callAll later :=
  List.foldl_append

theorem Bounded.callAll (h : s.Bounded) (calls : List Call) : (s.callAll calls).Bounded :=
  List.foldlRecOn (motive := Bounded) calls (fun (s : CallStack capacity) c => (s.call c).2) h
    fun _ hs c _ => hs.call c

/-- As long as no pop brings the size back to what lies below it, an address stays in place. -/
theorem suffix_callAll (h : (p :: saved) <:+ s.entries) (hcalls : .clear ∉ calls)
    (hfirst : ∀ earlier, earlier ++ [.pop] <+: calls →
      (s.callAll (earlier ++ [.pop])).size ≠ saved.length) :
    (p :: saved) <:+ (s.callAll calls).entries := by
  induction calls generalizing s with
  | nil => exact h
  | cons c calls ih =>
      have hc : c ≠ .clear := fun he => hcalls (he ▸ List.mem_cons_self)
      rcases suffix_call hc h with hkept | ⟨rfl, he⟩
      · refine ih hkept (fun hmem => hcalls (List.mem_cons_of_mem c hmem)) fun earlier hpre => ?_
        exact hfirst (c :: earlier) (List.cons_prefix_cons.mpr ⟨rfl, hpre⟩)
      · refine absurd ?_ (hfirst [] (List.cons_prefix_cons.mpr ⟨rfl, List.nil_prefix⟩))
        show ((s.call .pop).2).size = saved.length
        rw [he]
        rfl

theorem Matches.pop_eq (h : s.Matches a between) :
    (s.callAll (.push a :: between)).call .pop = (.ok (.address a), s) := by
  obtain ⟨s', hpush⟩ : ∃ s', s.push a = .ok s' := by
    cases hp : s.push a with
    | ok s' => exact ⟨s', rfl⟩
    | error f =>
        have hpushed := h.pushed
        rw [call_push_of_error hp] at hpushed
        cases hpushed
  have htop : (s.call (.push a)).2.entries = a :: s.entries := by
    rw [call_push_of_ok hpush, (push_eq_ok_iff.mp hpush).2.2]
  have hsuffix : (a :: s.entries) <:+ (s.callAll (.push a :: between)).entries :=
    suffix_callAll (s := (s.call (.push a)).2) (htop ▸ List.suffix_rfl) h.uncleared h.first
  rcases suffix_call (c := .pop) nofun hsuffix with hkept | ⟨-, he⟩
  · -- The size would not be back.
    have hback := h.back
    rw [callAll_append] at hback
    have hlen : s.entries.length + 1 ≤ s.size := hback ▸ hkept.length_le
    exact absurd hlen (Nat.not_succ_le_self _)
  · exact he

/-! ### The law of stacks -/

theorem call_push_eq_error_iff :
    (s.call (.push a)).1 = .error f ↔
      (¬ (0 ≤ a ∧ a ≤ 0xFFFF) ∧ f = .returnAddress a) ∨
        ((0 ≤ a ∧ a ≤ 0xFFFF) ∧ capacity ≤ s.size ∧ f = .stackOverflow a) := by
  rw [← push_eq_error_iff]
  cases hp : s.push a with
  | ok s' => simp [call_push_of_ok hp]
  | error g => simp [call_push_of_error hp]

theorem call_pop_eq_error_iff :
    (s.call .pop).1 = .error f ↔ s.size = 0 ∧ f = .stackUnderflow := by
  cases hs : s.entries with
  | nil => simp [call_pop_of_nil hs, CallStack.size, hs, eq_comm]
  | cons b rest => simp [call_pop_of_cons hs, CallStack.size, hs]

theorem call_peek_eq_error_iff :
    (s.call .peek).1 = .error f ↔ s.size = 0 ∧ f = .stackUnderflow := by
  cases hs : s.entries with
  | nil => simp [call, peek, Except.map, CallStack.size, hs, eq_comm]
  | cons b rest => simp [call, peek, Except.map, CallStack.size, hs]

/-- What holds of a stack whatever was called on it. -/
structure Lawful (s : CallStack capacity) : Prop extends Bounded s where
  /-- A push asks first whether the number fits, and then whether there is room. -/
  push_refused : ∀ a f, (s.call (.push a)).1 = .error f ↔
    (¬ (0 ≤ a ∧ a ≤ 0xFFFF) ∧ f = .returnAddress a) ∨
      ((0 ≤ a ∧ a ≤ 0xFFFF) ∧ capacity ≤ s.size ∧ f = .stackOverflow a)
  top_refused : ∀ c, c = .pop ∨ c = .peek → ∀ f, (s.call c).1 = .error f ↔
    s.size = 0 ∧ f = .stackUnderflow
  accepted : (s.call .size).1 = .ok (.size s.size) ∧ (s.call .clear).1 = .ok .done
  unchanged : ∀ c f, (s.call c).1 = .error f → (s.call c).2 = s
  matched : ∀ a between, s.Matches a between →
    (s.callAll (.push a :: between)).call .pop = (.ok (.address a), s)

/-- **A new stack is bounded, and answers in reverse.**  Whatever its capacity and whatever was
called on it, a stack never outgrows its capacity, holds 16-bit numbers only, refuses exactly what
it has to, and pops each address at the pop that matches its push. -/
theorem new_stack_lawful (capacity : Int) (calls : List Call) :
    ((∅ : CallStack capacity).callAll calls).Lawful := by
  refine ⟨bounded_empty.callAll calls, fun a f => call_push_eq_error_iff, ?_, ⟨rfl, rfl⟩,
    fun c f => call_eq_of_error, fun a between => Matches.pop_eq⟩
  rintro c (rfl | rfl) f
  · exact call_pop_eq_error_iff
  · exact call_peek_eq_error_iff

-- Refused calls count for nothing, and the pop in between belongs to the later push.
example :
    ((∅ : CallStack 2).callAll [.pop, .push 0x202, .push 0x10000, .push 0x304, .push 0x406, .pop,
      .peek]).call .pop = (.ok (.address 0x202), ∅) :=
  rfl

end Chip8.CallStack
