import Chip8.Proofs.Failure
import Chip8.Proofs.History

/-! # Calls and returns match

A live request leaves the call stack alone, or is a tick that completes a call and saves one
address, or is a tick that completes a return and goes to the address it removes
(`stack_perform`).  From these three cases:

* the depth of the stack counts the completed calls less the completed returns
  (`size_performAll`), and never passes sixteen;
* as long as the stack stays deeper than it was before a call, the address saved by the call and
  everything below it stay in place (`suffix_performAll`), and the request that ends this is the
  return to that address (`suffix_perform`). -/

namespace Chip8.Machine

variable {m : Machine} {r : Request} {rs : List Request} {d : Nat} {p : Int} {saved : List Int}

/-- The answer of a tick that completed a call. -/
def isCall : Except Fault (Option Instruction) → Bool
  | .ok (some (.call _)) => true
  | _ => false

/-- The answer of a tick that completed a return. -/
def isReturn : Except Fault (Option Instruction) → Bool
  | .ok (some .ret) => true
  | _ => false

/-- From `m` on, along all requests, the call stack is deeper than `d`. -/
def StaysAbove (d : Nat) : Machine → List Request → Prop
  | m, [] => d < m.stack.size
  | m, r :: rs => d < m.stack.size ∧ StaysAbove d (m.perform r).2 rs

instance decidableStaysAbove (d : Nat) :
    (m : Machine) → (rs : List Request) → Decidable (StaysAbove d m rs)
  | m, [] => inferInstanceAs (Decidable (d < m.stack.size))
  | m, r :: rs =>
      have := decidableStaysAbove d (m.perform r).2 rs
      inferInstanceAs (Decidable (d < m.stack.size ∧ StaysAbove d (m.perform r).2 rs))

theorem StaysAbove.head (h : StaysAbove d m rs) : d < m.stack.size := by
  cases rs with
  | nil => exact h
  | cons r rs => exact h.1

/-! ### One request -/

theorem stack_perform (hr : r.IsLive) :
    ((m.perform r).2.stack = m.stack ∧ isCall (m.perform r).1 = false ∧
        isReturn (m.perform r).1 = false) ∨
      (r = .tick ∧ (∃ a, m.tick.1 = .ok (.call a)) ∧ m.stack.size < 16 ∧
        m.tick.2.stack.entries = (m.pc + 2) :: m.stack.entries) ∨
      (r = .tick ∧ m.tick.1 = .ok .ret ∧
        m.stack.entries = m.tick.2.pc :: m.tick.2.stack.entries) := by
  cases r with
  | tick =>
      rcases ht : m.tick.1 with f | i
      · refine Or.inl ⟨?_, ?_, ?_⟩
        · rcases tick_error ht with he | he <;> simp only [perform, he]
        · simp only [perform, ht]; rfl
        · simp only [perform, ht]; rfl
      · obtain ⟨hf, he⟩ := effect_of_tick ht
        have hstack := he.stack
        have hpc := he.pc
        cases i with
        | ret =>
            refine Or.inr (Or.inr ⟨rfl, rfl, ?_⟩)
            cases hs : m.stack.entries with
            | nil => exact absurd hs (he.depth_pos rfl)
            | cons a rest =>
                rw [hstack, hpc]
                simp only [nextPc, nextStack, hs, List.headD_cons, List.tail_cons]
        | call a =>
            refine Or.inr (Or.inl ⟨rfl, ⟨a, rfl⟩, he.room a rfl, ?_⟩)
            rw [hstack]
            rfl
        | _ =>
            refine Or.inl ⟨hstack, ?_, ?_⟩
            · simp only [perform, ht]; rfl
            · simp only [perform, ht]; rfl
  | setKey key down =>
      refine Or.inl ?_
      simp only [perform, perform.silent, setKey]
      split <;> exact ⟨rfl, rfl, rfl⟩
  | decrementTimers => exact Or.inl ⟨rfl, rfl, rfl⟩
  | _ => exact absurd hr id

theorem size_perform (hr : r.IsLive) :
    (m.perform r).2.stack.size + (if isReturn (m.perform r).1 then 1 else 0) =
      m.stack.size + (if isCall (m.perform r).1 then 1 else 0) := by
  rcases stack_perform (m := m) hr with ⟨hs, hc, hret⟩ | ⟨rfl, ⟨a, ha⟩, _, hs⟩ | ⟨rfl, ha, hs⟩
  · rw [hs, hc, hret]
  · simp only [perform, ha, Except.map, isCall, isReturn, CallStack.size, hs]
    rfl
  · simp only [perform, ha, Except.map, isCall, isReturn, CallStack.size, hs]
    rfl

theorem size_perform_le (hr : r.IsLive) (h : m.stack.size ≤ 16) :
    (m.perform r).2.stack.size ≤ 16 := by
  rcases stack_perform (m := m) hr with ⟨hs, _⟩ | ⟨rfl, _, hroom, hs⟩ | ⟨rfl, _, hs⟩
  · rw [hs]
    exact h
  · simp only [perform, CallStack.size, hs, List.length_cons]
    exact hroom
  · have hlen := congrArg List.length hs
    simp only [CallStack.size, List.length_cons] at h hlen
    simp only [perform, CallStack.size]
    omega

/-- A saved address and all below it stay in place, or the request is the return to it. -/
theorem suffix_perform (hr : r.IsLive) (h : (p :: saved) <:+ m.stack.entries) :
    (p :: saved) <:+ (m.perform r).2.stack.entries ∨
      (r = .tick ∧ m.tick.1 = .ok .ret ∧ m.tick.2.pc = p ∧ m.tick.2.stack.entries = saved) := by
  rcases stack_perform (m := m) hr with ⟨hs, _⟩ | ⟨rfl, _, _, hs⟩ | ⟨rfl, ht, hs⟩
  · rw [hs]
    exact Or.inl h
  · refine Or.inl ?_
    show (p :: saved) <:+ m.tick.2.stack.entries
    rw [hs]
    exact h.trans (List.suffix_cons _ _)
  · rw [hs] at h
    rcases List.suffix_cons_iff.mp h with he | hrest
    · obtain ⟨rfl, rfl⟩ := List.cons.inj he
      exact Or.inr ⟨rfl, ht, rfl, rfl⟩
    · exact Or.inl hrest

/-! ### A history -/

theorem size_performAll (hrs : ∀ r ∈ rs, r.IsLive) :
    (m.performAll rs).2.stack.size + (m.performAll rs).1.countP isReturn =
      m.stack.size + (m.performAll rs).1.countP isCall := by
  induction rs generalizing m with
  | nil => rfl
  | cons r rs ih =>
      have hr := size_perform (m := m) (hrs r List.mem_cons_self)
      have hrest := ih (m := (m.perform r).2) fun r' hr' => hrs r' (List.mem_cons_of_mem _ hr')
      simp only [performAll_cons_fst, performAll_cons_snd, List.countP_cons]
      omega

theorem size_performAll_le (hrs : ∀ r ∈ rs, r.IsLive) (h : m.stack.size ≤ 16) :
    (m.performAll rs).2.stack.size ≤ 16 :=
  performAll_keeps (P := fun m => m.stack.size ≤ 16) (fun _ _ => size_perform_le) hrs h

theorem suffix_performAll (hrs : ∀ r ∈ rs, r.IsLive) (h : (p :: saved) <:+ m.stack.entries)
    (habove : StaysAbove saved.length m rs) :
    (p :: saved) <:+ (m.performAll rs).2.stack.entries := by
  induction rs generalizing m with
  | nil => exact h
  | cons r rs ih =>
      have hrest : ∀ r' ∈ rs, r'.IsLive := fun r' hr' => hrs r' (List.mem_cons_of_mem _ hr')
      rcases suffix_perform (hrs r List.mem_cons_self) h with hsuffix | ⟨rfl, _, _, hs⟩
      · exact ih hrest hsuffix habove.2
      · have hdeep : saved.length < m.tick.2.stack.entries.length := habove.2.head
        rw [hs] at hdeep
        exact absurd hdeep (Nat.lt_irrefl _)

/-! ### The call and its return -/

theorem toList_of_suffix {s : CallStack stackCapacity} (h : (p :: saved) <:+ s.entries) :
    s.toList.take saved.length = saved.reverse ∧ s.toList[saved.length]? = some p := by
  obtain ⟨newer, he⟩ := h
  have hlist : s.toList = saved.reverse ++ p :: newer.reverse := by
    rw [CallStack.toList, ← he]
    simp
  have hlen : saved.length = saved.reverse.length := by simp
  rw [hlist, hlen]
  refine ⟨List.take_left, ?_⟩
  rw [List.getElem?_append_right (Nat.le_refl _), Nat.sub_self]
  rfl

theorem tick_call_fails_iff {b : Nat} (hf : m.fetch = .ok (.call b)) :
    (∃ f, m.tick.1 = .error f) ↔ 16 ≤ m.stack.size := by
  have hpc := (fetch_eq_ok_iff.mp hf).1
  rw [exists_tick_error_iff hf]
  constructor
  · rintro ⟨f, m', he⟩
    exact ((execute_call_eq_error_iff hpc).mp he).1
  · intro hfull
    exact ⟨_, _, (execute_call_eq_error_iff hpc).mpr ⟨hfull, rfl, rfl⟩⟩

theorem tick_ret_fails_iff (hf : m.fetch = .ok .ret) :
    (∃ f, m.tick.1 = .error f) ↔ m.stack.size = 0 := by
  rw [exists_tick_error_iff hf]
  constructor
  · rintro ⟨f, m', he⟩
    exact (execute_ret_eq_error_iff.mp he).1
  · intro hempty
    exact ⟨_, _, execute_ret_eq_error_iff.mpr ⟨hempty, rfl, rfl⟩⟩

/-- **Calls and returns match.**  `m` completes a call and then goes through any live requests.

* The depth is the depth of `m`, more by the completed calls and less by the completed returns; it
  never passes sixteen.  A call fails exactly at depth sixteen, a return exactly at depth zero.
* As long as the stack is deeper than that of `m`, it holds the stack of `m` and on top of it the
  address behind the call; and the live request that ends this is a tick that completes a return
  to this address and leaves the stack of `m`. -/
theorem call_return_matching {a : Nat} (hcall : m.tick.1 = .ok (.call a))
    (hrs : ∀ r ∈ rs, r.IsLive) :
    let answers := (m.performAll (.tick :: rs)).1
    let now := (m.performAll (.tick :: rs)).2
    (now.stack.size + answers.countP isReturn = m.stack.size + answers.countP isCall ∧
        now.stack.size ≤ 16 ∧
        (∀ b, now.fetch = .ok (.call b) →
          ((∃ f, now.tick.1 = .error f) ↔ now.stack.size = 16)) ∧
        (now.fetch = .ok .ret → ((∃ f, now.tick.1 = .error f) ↔ now.stack.size = 0))) ∧
      (StaysAbove m.stack.size m.tick.2 rs →
        (now.stack.toList.take m.stack.size = m.stack.toList ∧
          now.stack.toList[m.stack.size]? = some (m.pc + 2)) ∧
        ∀ r : Request, r.IsLive → (now.perform r).2.stack.size ≤ m.stack.size →
          r = .tick ∧ now.tick.1 = .ok .ret ∧ now.tick.2.pc = m.pc + 2 ∧
            now.tick.2.stack = m.stack) := by
  intro answers now
  have hlive : ∀ r ∈ Request.tick :: rs, r.IsLive := by
    intro r hr
    rcases List.mem_cons.mp hr with rfl | hr
    · exact trivial
    · exact hrs r hr
  obtain ⟨hroom, hpushed⟩ : m.stack.size < 16 ∧
      m.tick.2.stack.entries = (m.pc + 2) :: m.stack.entries := by
    obtain ⟨_, he⟩ := effect_of_tick hcall
    exact ⟨he.room a rfl, congrArg CallStack.entries he.stack⟩
  have hle : now.stack.size ≤ 16 := size_performAll_le hlive (Nat.le_of_lt hroom)
  refine ⟨⟨size_performAll hlive, hle, ?_, tick_ret_fails_iff⟩, ?_⟩
  · intro b hb
    rw [tick_call_fails_iff hb]
    omega
  · intro habove
    have hfirst : ((m.pc + 2) :: m.stack.entries) <:+ m.tick.2.stack.entries :=
      hpushed ▸ List.suffix_rfl
    have hsuffix : ((m.pc + 2) :: m.stack.entries) <:+ now.stack.entries :=
      suffix_performAll (m := m.tick.2) hrs hfirst habove
    refine ⟨toList_of_suffix hsuffix, ?_⟩
    intro r hr hback
    rcases suffix_perform hr hsuffix with hkept | ⟨rfl, ht, hpc, hs⟩
    · have hlen := hkept.length_le
      simp only [List.length_cons] at hlen
      simp only [CallStack.size] at hback
      omega
    · exact ⟨rfl, ht, hpc, congrArg CallStack.mk hs⟩

set_option maxRecDepth 20000 in
/-- A subroutine that calls another one, with a key moved in between. -/
theorem call_return_matching_nested :
    let m := ((new {} (.cycling #[])).load
      [0x22, 0x04, 0x00, 0x00, 0x22, 0x08, 0x00, 0xEE, 0x00, 0xEE]).2
    let requests : List Request := [.tick, .setKey 3 true, .tick]
    let now := (m.performAll (.tick :: requests)).2
    (m.tick.1 = .ok (.call 0x204) ∧ (∀ r ∈ requests, r.IsLive) ∧
        StaysAbove m.stack.size m.tick.2 requests ∧
        (now.perform .tick).2.stack.size ≤ m.stack.size) ∧
      now.tick.1 = .ok .ret ∧ now.tick.2.pc = 0x202 ∧ now.tick.2.stack = m.stack := by
  intro m requests now
  have hlive : ∀ r ∈ requests, r.IsLive := by simp [requests, Request.IsLive]
  obtain ⟨hcall, habove, hback⟩ : m.tick.1 = .ok (.call 0x204) ∧
      StaysAbove m.stack.size m.tick.2 requests ∧
      (now.perform .tick).2.stack.size ≤ m.stack.size := by
    decide +kernel
  obtain ⟨-, hmatch⟩ := call_return_matching hcall hlive
  obtain ⟨-, hret, hpc, hstack⟩ := (hmatch habove).2 .tick trivial hback
  exact ⟨⟨hcall, hlive, habove, hback⟩, hret, hpc, hstack⟩

end Chip8.Machine
