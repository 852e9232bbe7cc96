import Chip8.Machine.Request
import Mathlib.Control.Monad.Basic

/-! # Histories

Lists of requests, and what they keep.  What every allowed request keeps, every history of allowed
requests keeps (`performAll_keeps`); likewise for a run that stops at its first fault (`run_keeps`)
and for ticks that go on behind a fault (`ticked_keeps`).  `Request.IsLive` names the requests of a
program at work: its ticks, and the keys and timers that the host moves in between.  `Along` says
that something holds of every request of a history and the machine it is made to.  What the last
request of some kind says is found from behind (`getLast?_filterMap_cons`). -/

namespace Chip8

/-- What is said of the value of an answer can be decided, if it can be decided of every value. -/
instance decidableForallOk {ε α : Type} {P : α → Prop} [DecidablePred P] :
    (e : Except ε α) → Decidable (∀ a, e = .ok a → P a)
  | .error _ => isTrue nofun
  | .ok a => decidable_of_iff (P a)
      ⟨fun h _ hb => Except.ok.inj hb ▸ h, fun h => h a rfl⟩

theorem getLast?_filterMap_cons {α β : Type} (f : α → Option β) (a : α) (l : List α) :
    ((a :: l).filterMap f).getLast? = ((l.filterMap f).getLast?).or (f a) := by
  cases ha : f a with
  | none => rw [List.filterMap_cons_none ha, Option.or_none]
  | some b =>
      rw [List.filterMap_cons_some ha, List.getLast?_cons]
      cases (l.filterMap f).getLast? <;> rfl

/-- The requests of a program at work. -/
def Request.IsLive : Request → Prop
  | .tick | .setKey _ _ | .decrementTimers => True
  | _ => False

namespace Machine

@[simp] theorem performAll_cons_fst (m : Machine) (r : Request) (rs : List Request) :
    (m.performAll (r :: rs)).1 = (m.perform r).1 :: ((m.perform r).2.performAll rs).1 := rfl

@[simp] theorem performAll_cons_snd (m : Machine) (r : Request) (rs : List Request) :
    (m.performAll (r :: rs)).2 = ((m.perform r).2.performAll rs).2 := rfl

theorem performAll_append_snd (m : Machine) (rs rs' : List Request) :
    (m.performAll (rs ++ rs')).2 = ((m.performAll rs).2.performAll rs').2 := by
  induction rs generalizing m with
  | nil => rfl
  | cons r rs ih => exact ih (m.perform r).2

/-- Every request of the history is made to a machine of which, with the request, `P` holds. -/
def Along (P : Machine → Request → Prop) : Machine → List Request → Prop
  | _, [] => True
  | m, r :: rs => P m r ∧ Along P (m.perform r).2 rs

instance decidableAlong (P : Machine → Request → Prop) [∀ m r, Decidable (P m r)] :
    (m : Machine) → (rs : List Request) → Decidable (Along P m rs)
  | _, [] => isTrue trivial
  | m, r :: rs =>
      have := decidableAlong P (m.perform r).2 rs
      inferInstanceAs (Decidable (P m r ∧ Along P (m.perform r).2 rs))

theorem performAll_keeps {P : Machine → Prop} {allowed : Request → Prop}
    (hkeep : ∀ m r, allowed r → P m → P (m.perform r).2) {rs : List Request}
    (hrs : ∀ r ∈ rs, allowed r) {m : Machine} (h : P m) : P (m.performAll rs).2 := by
  induction rs generalizing m with
  | nil => exact h
  | cons r rs ih =>
      have hr : P (m.perform r).2 := hkeep m r (hrs r List.mem_cons_self) h
      exact ih (fun r' hr' => hrs r' (List.mem_cons_of_mem _ hr')) hr

theorem run_keeps {P : Machine → Prop} (hkeep : ∀ m, P m → P m.tick.2) (n : Nat) {m : Machine}
    (h : P m) : P (run n m).2 := by
  induction n generalizing m with
  | zero => exact h
  | succ n ih =>
      have ht := hkeep m h
      rw [run]
      rcases hm : m.tick with ⟨r, m'⟩
      rw [hm] at ht
      cases r with
      | error f => exact ht
      | ok i => exact ih ht

/-- The machine behind `k` ticks, whatever came of each. -/
def ticked (k : Nat) (m : Machine) : Machine := (m.performAll (List.replicate k .tick)).2

theorem ticked_succ (k : Nat) (m : Machine) : m.ticked (k + 1) = (m.ticked k).tick.2 := by
  unfold ticked
  rw [List.replicate_succ', performAll_append_snd]
  rfl

/-- What the first `n` ticks keep one by one, holds behind each of them. -/
theorem ticked_keeps {P : Machine → Prop} {m : Machine} {n : Nat}
    (hkeep : ∀ k < n, P (m.ticked k) → P (m.ticked k).tick.2) (h : P m) :
    ∀ k ≤ n, P (m.ticked k) := by
  intro k
  induction k with
  | zero => exact fun _ => h
  | succ k ih =>
      intro hk
      rw [ticked_succ]
      exact hkeep k hk (ih (Nat.le_of_lt hk))

end Machine

end Chip8
