import Chip8.Proofs.Noninterference

/-! # Machines of two dialects

`m.withDialect d` is the machine `m` under other rules.  `Machine.tellsApart m d i` says that an
instruction shows the difference: a shift of unequal registers, if the dialects differ in the rule
for shifts, and an offset jump by unequal registers, if they differ in the rule for jumps.

Whatever else is executed does the same under both dialects, because it does not read the rules in
which they differ (`tick_withDialect`).  So two machines that differ in their dialect alone stay so,
with the same answers, up to the first instruction that tells them apart
(`performAll_withDialect`); and this instruction makes a difference to one register, or to the
program counter, and to nothing else. -/

namespace Chip8.Machine

variable {m : Machine} {d : Dialect} {i : Instruction} {r : Request} {rs : List Request} {n : Nat}

/-- The machine with another dialect. -/
def withDialect (m : Machine) (d : Dialect) : Machine := { m with dialect := d }

/-- Whether an instruction does not do the same under the other dialect. -/
def tellsApart (m : Machine) (d : Dialect) : Instruction → Bool
  | .shiftRight x y | .shiftLeft x y =>
      d.shiftInPlace ≠ m.dialect.shiftInPlace ∧ m.v.read x ≠ m.v.read y
  | .jumpOffset x _ => d.offsetFromVx ≠ m.dialect.offsetFromVx ∧ m.v.read x ≠ m.v.read 0
  | _ => false

/-- The next tick carries out no instruction that tells the dialects apart. -/
def TickIndifferent (d : Dialect) (m : Machine) : Prop :=
  ∀ i, m.tick.1 = .ok i → ¬ m.tellsApart d i

instance (d : Dialect) (m : Machine) : Decidable (TickIndifferent d m) :=
  inferInstanceAs (Decidable (∀ i, m.tick.1 = .ok i → ¬ m.tellsApart d i))

/-- The request carries out no instruction that tells the dialects apart. -/
def Indifferent (d : Dialect) (m : Machine) : Request → Prop
  | .tick => TickIndifferent d m
  | .run ticks => ∀ k < ticks.toNat, TickIndifferent d (m.ticked k)
  | .execute word => ∀ i, Instruction.decode word = .ok i → ¬ m.tellsApart d i
  | _ => True

instance (d : Dialect) (m : Machine) (r : Request) : Decidable (Indifferent d m r) := by
  unfold Indifferent
  split <;> infer_instance

/-! ### One instruction -/

/-- The parts in which the machine differs from itself under the other dialect. -/
def ruleOff (m : Machine) (d : Dialect) (p : Part) : Prop := ¬ m.Same (m.withDialect d) p

theorem agreeOff_withDialect (m : Machine) (d : Dialect) :
    AgreeOff (m.ruleOff d) m (m.withDialect d) :=
  ⟨rfl, rfl, rfl, rfl, fun _ hp => Classical.not_not.mp hp⟩

theorem rule_of_ruleOff {p : Part} (hp : m.ruleOff d p) : p = .shiftRule ∨ p = .offsetRule := by
  cases p with
  | shiftRule => exact Or.inl rfl
  | offsetRule => exact Or.inr rfl
  | _ => exact absurd rfl hp

theorem eq_withDialect {n n' : Machine} (h : AgreeOff (m.ruleOff d) n n') (hd : n'.dialect = d) :
    n' = n.withDialect d := by
  refine AgreeOff.eq ⟨h.pc, h.width, h.height, h.depth, fun p _ => ?_⟩
  have hsame : m.ruleOff d p ∨ n.Same n' p := (Classical.em _).imp_right (h.same p)
  cases p with
  | shiftRule => exact congrArg Dialect.shiftInPlace hd
  | offsetRule => exact congrArg Dialect.offsetFromVx hd
  | _ => exact hsame.resolve_left fun hoff => hoff rfl

/-- An instruction reads a rule in which the dialects differ only if it tells them apart. -/
theorem not_reads_of_ruleOff (h : ¬ m.tellsApart d i) {p : Part} (hp : m.ruleOff d p) :
    ¬ m.reads i p := by
  rcases rule_of_ruleOff hp with rfl | rfl
  · cases i with
    | shiftRight x y | shiftLeft x y =>
        exact fun hread => h (decide_eq_true ⟨hp, of_decide_eq_true hread⟩)
    | _ => exact Bool.false_ne_true
  · cases i with
    | jumpOffset x a => exact fun hread => h (decide_eq_true ⟨hp, of_decide_eq_true hread⟩)
    | _ => exact Bool.false_ne_true

theorem execute_withDialect (h : ¬ m.tellsApart d i) :
    (m.withDialect d).execute i = ((m.execute i).1, (m.execute i).2.withDialect d) := by
  obtain ⟨hanswer, hagree⟩ :=
    (agreeOff_withDialect m d).execute (i := i) fun p hp => not_reads_of_ruleOff h hp
  have hd : ((m.withDialect d).execute i).2.dialect = d := (sameBuild_execute _ i).dialect
  exact Prod.ext hanswer (eq_withDialect hagree hd)

/-- The instructions that tell dialects apart never fail. -/
theorem tick_of_tellsApart (hf : m.fetch = .ok i) (h : m.tellsApart d i) : m.tick.1 = .ok i := by
  cases i with
  | shiftRight x y | shiftLeft x y | jumpOffset x a => rw [tick_of_execute_ok hf rfl]
  | _ => cases h

theorem tick_withDialect (h : TickIndifferent d m) :
    (m.withDialect d).tick = (m.tick.1, m.tick.2.withDialect d) := by
  have hfetch : (m.withDialect d).fetch = m.fetch := rfl
  cases hf : m.fetch with
  | error f => rw [tick_of_fetch_error hf, tick_of_fetch_error (hfetch.trans hf)]
  | ok i =>
      have hi : ¬ m.tellsApart d i := fun hi => h i (tick_of_tellsApart hf hi) hi
      rw [tick_eq_execute hf, tick_eq_execute (hfetch.trans hf), execute_withDialect hi]

/-! ### A history -/

theorem run_withDialect (h : ∀ k < n, TickIndifferent d (m.ticked k)) :
    run n (m.withDialect d) = ((run n m).1, (run n m).2.withDialect d) := by
  induction n generalizing m with
  | zero => rfl
  | succ n ih =>
      have hfirst : TickIndifferent d m := h 0 (Nat.succ_pos n)
      have hrest : ∀ k < n, TickIndifferent d (m.tick.2.ticked k) :=
        fun k hk => h (k + 1) (Nat.succ_lt_succ hk)
      rw [run, run, tick_withDialect hfirst]
      rcases ht : m.tick with ⟨f | i, m'⟩
      · rfl
      · rw [ht] at hrest
        exact ih hrest

theorem perform_withDialect (h : Indifferent d m r) :
    (m.withDialect d).perform r = ((m.perform r).1, (m.perform r).2.withDialect d) := by
  cases r with
  | tick =>
      simp only [perform, tick_withDialect h]
  | run ticks =>
      simp only [perform, perform.silent, run_withDialect h]
  | execute word =>
      simp only [perform, perform.silent, executeWord]
      cases hi : Instruction.decode word with
      | error f => rfl
      | ok i => simp only [execute_withDialect (h i hi)]
  | setKey key down =>
      simp only [perform, perform.silent, setKey, withDialect]
      split <;> rfl
  | load data offset | loadFont offset =>
      simp only [perform, perform.silent, loadFont, load]
      split <;> rfl
  | fetch | decrementTimers | reset => rfl

theorem performAll_withDialect (h : Along (Indifferent d) m rs) :
    (m.withDialect d).performAll rs = ((m.performAll rs).1, (m.performAll rs).2.withDialect d) := by
  induction rs generalizing m with
  | nil => rfl
  | cons r rs ih =>
      obtain ⟨hr, hrs⟩ := h
      simp only [performAll, perform_withDialect hr, ih hrs]

/-! ### The instruction that tells the dialects apart -/

theorem execute_shift_withDialect {x y : Nat} {behind : Machine}
    (hi : i = .shiftRight x y ∨ i = .shiftLeft x y) (h : m.execute i = (.ok (), behind)) :
    ∃ b, (m.withDialect d).execute i =
      (.ok (), { behind with v := behind.v.write x b }.withDialect d) := by
  rcases hi with rfl | rfl
  · refine ⟨(m.withDialect d).shiftSource x y >>> 1, ?_⟩
    cases h
    simp only [execute, setResult, advance, Registers.write_write]
    rfl
  · refine ⟨(m.withDialect d).shiftSource x y <<< 1, ?_⟩
    cases h
    simp only [execute, setResult, advance, Registers.write_write]
    rfl

theorem execute_jumpOffset_withDialect {x a : Nat} {behind : Machine}
    (h : m.execute (.jumpOffset x a) = (.ok (), behind)) :
    ∃ pc, (m.withDialect d).execute (.jumpOffset x a) =
      (.ok (), { behind with pc }.withDialect d) := by
  cases h
  exact ⟨_, rfl⟩

/-- **Dialects can be told apart by three instructions alone.**  `other` is the machine `m` under
the dialect `d`.  Along every history in which no executed shift has unequal registers, if the rules
for shifts differ, and no executed offset jump has unequal registers, if the rules for jumps differ,
both give the same answers and differ in nothing but the dialect in the end.  The next tick, if it
carries out a shift, makes a difference to the target register at most, and if it carries out an
offset jump, to the program counter at most. -/
theorem dialects_isolated (m : Machine) (d : Dialect) (rs : List Request)
    (h : Along (Indifferent d) m rs) :
    let other := m.withDialect d
    let now := (m.performAll rs).2
    let otherNow := (other.performAll rs).2
    ((other.performAll rs).1 = (m.performAll rs).1 ∧ otherNow = now.withDialect d) ∧
      ∀ i behind, now.tick = (.ok i, behind) →
        (∀ x y, i = .shiftRight x y ∨ i = .shiftLeft x y →
          ∃ b, otherNow.tick = (.ok i, { behind with v := behind.v.write x b }.withDialect d)) ∧
        ∀ x a, i = .jumpOffset x a →
          ∃ pc, otherNow.tick = (.ok i, { behind with pc }.withDialect d) := by
  intro other now otherNow
  have hrun : other.performAll rs = ((m.performAll rs).1, now.withDialect d) :=
    performAll_withDialect h
  have hnow : otherNow = now.withDialect d := congrArg Prod.snd hrun
  refine ⟨⟨by rw [hrun], hnow⟩, fun i behind ht => ?_⟩
  obtain ⟨hf, hexecute⟩ := tick_eq_ok_iff.mp ht
  have hother : (now.withDialect d).fetch = .ok i := hf
  rw [hnow]
  constructor
  · intro x y hshift
    obtain ⟨b, hb⟩ := execute_shift_withDialect (d := d) hshift hexecute
    exact ⟨b, tick_of_execute_ok hother hb⟩
  · rintro x a rfl
    obtain ⟨pc, hpc⟩ := execute_jumpOffset_withDialect (d := d) hexecute
    exact ⟨pc, tick_of_execute_ok hother hpc⟩

set_option maxRecDepth 20000 in
/-- A shift of equal registers, with a key moved behind it, and then a shift of unequal ones. -/
theorem dialects_isolated_up_to_shift :
    let v := (Registers.zero.write 1 5).write 2 5
    let m := { ((new {} (.cycling #[])).load [0x81, 0x26, 0x81, 0x26]).2 with v }
    let d : Dialect := { shiftInPlace := true, offsetFromVx := false }
    let requests : List Request := [.tick, .setKey 3 true]
    let now := (m.performAll requests).2
    let other := ((m.withDialect d).performAll requests).2
    let behind := now.tick.2
    Along (Indifferent d) m requests ∧ other = now.withDialect d ∧
      (now.tick.2.v.read 1 = 2 ∧ other.tick.2.v.read 1 = 1) ∧
      ∃ b, other.tick =
        (.ok (.shiftRight 1 2), { behind with v := behind.v.write 1 b }.withDialect d) := by
  intro v m d requests now other behind
  have halong : Along (Indifferent d) m requests := by decide +kernel
  obtain ⟨hshift, htwo, hone⟩ : now.tick.1 = .ok (.shiftRight 1 2) ∧
      now.tick.2.v.read 1 = 2 ∧ other.tick.2.v.read 1 = 1 := by
    decide +kernel
  obtain ⟨⟨-, hother⟩, hnext⟩ := dialects_isolated m d requests halong
  obtain ⟨hshifts, -⟩ := hnext (.shiftRight 1 2) behind (tick_eq_of_fst hshift)
  exact ⟨halong, hother, ⟨htwo, hone⟩, hshifts 1 2 (Or.inl rfl)⟩

end Chip8.Machine
