import Chip8.Proofs.Reset

/-! # What an instruction writes

A machine is taken apart into its `Part`s: the bytes of memory, the registers, the index register,
the timers, the saved addresses, the pixels, the keys, the random source and the two rules of the
dialect.  `Machine.Same m m' p` says that two machines hold the same in one part.  Left out are the
program counter, which every instruction may move, and the two sides of the display, which nothing
changes.

* `Machine.writes m i` is the write footprint of an instruction, a table.  No instruction writes a
  key or a rule of the dialect.
* `same_of_execute`: a completed instruction leaves everything outside of its footprint as it was.
* `same_ticked`: hence a run of ticks leaves a part as it was, if no tick of the run carries out an
  instruction that writes it. -/

namespace Chip8

/-- A part of a machine. -/
inductive Part where
  | byte (address : Nat)
  | register (x : Fin 16)
  | index
  | delay
  | sound
  /-- A saved address, counted from the oldest one. -/
  | saved (k : Nat)
  | pixels
  | key (k : Fin 16)
  | random
  | shiftRule
  | offsetRule
deriving DecidableEq

/-- The registers that an instruction writes. -/
def Instruction.targets : Instruction → List Nat
  | .loadValue x _ | .addValue x _ | .move x _ | .bitOr x _ | .bitAnd x _ | .bitXor x _
  | .random x _ | .readDelay x => [x]
  | .add x _ | .sub x _ | .subFrom x _ | .shiftRight x _ | .shiftLeft x _ => [x, Registers.flag]
  | .draw _ _ _ | .addIndex _ => [Registers.flag]
  | .loadRegisters x => List.range (x + 1)
  | _ => []

theorem Registers.read_setFlag_of_ne {v : Registers} {on : Bool} {x : Nat}
    (h : x % 16 ≠ Registers.flag % 16) : (v.setFlag on).read x = v.read x :=
  Registers.read_write_of_ne h

namespace Machine

variable {m m' m'' : Machine} {i : Instruction} {f : Fault} {p : Part}

/-- The two machines hold the same in one part. -/
def Same (m m' : Machine) : Part → Prop
  | .byte a => m'.memory.read a = m.memory.read a
  | .register x => m'.v.read x = m.v.read x
  | .index => m'.index = m.index
  | .delay => m'.delay = m.delay
  | .sound => m'.sound = m.sound
  | .saved k => m'.stack.toList[k]? = m.stack.toList[k]?
  | .pixels => m'.display = m.display
  | .key k => m'.keypad.isDown k = m.keypad.isDown k
  | .random => m'.random = m.random
  | .shiftRule => m'.dialect.shiftInPlace = m.dialect.shiftInPlace
  | .offsetRule => m'.dialect.offsetFromVx = m.dialect.offsetFromVx

/-- Whether an instruction may write a part.  Register numbers count modulo sixteen. -/
def writes (m : Machine) : Instruction → Part → Bool
  | .storeDecimal _, .byte a => m.index ≤ a ∧ a < m.index + 3
  | .storeRegisters x, .byte a => m.index ≤ a ∧ a < m.index + (x + 1)
  | i, .register z => ∃ x ∈ i.targets, x % 16 = z
  | .loadIndex _, .index | .addIndex _, .index | .loadGlyph _, .index => true
  | .setDelay _, .delay => true
  | .setSound _, .sound => true
  | .call _, .saved k => k = m.stack.size
  | .ret, .saved k => k + 1 = m.stack.size
  | .clearDisplay, .pixels | .draw _ _ _, .pixels => true
  | .random _ _, .random => true
  | _, _ => false

theorem writes_register {z : Fin 16} :
    m.writes i (.register z) = true ↔ ∃ x ∈ i.targets, x % 16 = z := by
  have htable : m.writes i (.register z) = decide (∃ x ∈ i.targets, x % 16 = z) := by
    cases i <;> rfl
  rw [htable, decide_eq_true_iff]

theorem Same.refl (m : Machine) (p : Part) : m.Same m p := by
  cases p <;> rfl

theorem Same.trans (h : m.Same m' p) (h' : m'.Same m'' p) : m.Same m'' p := by
  cases p <;> exact Eq.trans h' h

/-! ### One instruction -/

/-- The registers and the display, which have no closed form behind every instruction. -/
theorem unwritten_of_execute (h : m.execute i = (.ok (), m')) :
    (∀ z, (∀ x ∈ i.targets, x % 16 ≠ z % 16) → m'.v.read z = m.v.read z) ∧
      (¬ m.writes i .pixels → m'.display = m.display) := by
  cases i with
  | ret =>
      unfold execute at h
      cases hs : m.stack.pop <;> rw [hs] at h <;> cases h
      exact ⟨fun _ _ => rfl, fun _ => rfl⟩
  | call a =>
      unfold execute at h
      cases hs : m.stack.push (m.pc + 2) <;> rw [hs] at h <;> cases h
      exact ⟨fun _ _ => rfl, fun _ => rfl⟩
  | clearDisplay =>
      cases h
      exact ⟨fun _ _ => rfl, fun hw => absurd rfl hw⟩
  | draw x y n =>
      obtain ⟨_, grid, hit, rfl⟩ := drawSprite_eq_ok h
      refine ⟨fun z hz => ?_, fun hw => absurd rfl hw⟩
      have hflag : z % 16 ≠ Registers.flag % 16 := (hz _ List.mem_cons_self).symm
      exact (Registers.read_setFlag_of_ne hflag).trans (Registers.read_setFlag_of_ne hflag)
  | storeDecimal x | storeRegisters x =>
      unfold execute at h
      obtain ⟨_, h⟩ := withBlock_eq_ok h
      cases h
      exact ⟨fun _ _ => rfl, fun _ => rfl⟩
  | loadRegisters x =>
      unfold execute at h
      obtain ⟨_, h⟩ := withBlock_eq_ok h
      cases h
      refine ⟨fun z hz => Registers.read_writeFrom_of_ne fun k hk => ?_, fun _ => rfl⟩
      rw [Memory.length_slice] at hk
      rw [Nat.zero_add]
      exact (hz k (List.mem_range.mpr hk)).symm
  | loadValue x n | addValue x n | move x y | bitOr x y | bitAnd x y | bitXor x y | random x n
  | readDelay x =>
      cases h
      exact ⟨fun z hz => Registers.read_write_of_ne (hz x List.mem_cons_self).symm, fun _ => rfl⟩
  | add x y | sub x y | subFrom x y | shiftRight x y | shiftLeft x y =>
      cases h
      refine ⟨fun z hz => ?_, fun _ => rfl⟩
      have hx : z % 16 ≠ x % 16 := (hz x List.mem_cons_self).symm
      have hflag : z % 16 ≠ Registers.flag % 16 :=
        (hz _ (List.mem_cons_of_mem _ List.mem_cons_self)).symm
      exact (Registers.read_write_of_ne hx).trans (Registers.read_setFlag_of_ne hflag)
  | addIndex x =>
      cases h
      exact ⟨fun z hz => Registers.read_setFlag_of_ne (hz _ List.mem_cons_self).symm,
        fun _ => rfl⟩
  | _ =>
      cases h
      exact ⟨fun _ _ => rfl, fun _ => rfl⟩

theorem writes_byte {a : Nat} (h : m.index ≤ a ∧ a < m.index + (m.stored i).length) :
    m.writes i (.byte a) := by
  cases i with
  | storeDecimal x => exact decide_eq_true h
  | storeRegisters x =>
      rw [length_stored_storeRegisters] at h
      exact decide_eq_true h
  | _ =>
      simp only [stored, List.length_nil] at h
      omega

theorem nextStack_getElem? {k : Nat} (hdepth : i = .ret → m.stack.entries ≠ [])
    (hk : ¬ m.writes i (.saved k)) : (m.nextStack i).toList[k]? = m.stack.toList[k]? := by
  cases i with
  | call a =>
      have hne : k ≠ m.stack.entries.length := fun he => hk (decide_eq_true he)
      exact (CallStack.getElem?_toList rfl k).trans (if_neg hne)
  | ret =>
      have hne : k + 1 ≠ m.stack.entries.length := fun he => hk (decide_eq_true he)
      cases hs : m.stack.entries with
      | nil => exact absurd hs (hdepth rfl)
      | cons a rest =>
          rw [hs, List.length_cons] at hne
          have hrest : (m.nextStack .ret).toList[k]? = rest.reverse[k]? := by
            simp only [nextStack, CallStack.toList, hs, List.tail_cons]
          rw [hrest, CallStack.getElem?_toList hs, if_neg (by omega)]
  | _ => rfl

/-- A completed instruction leaves every part that it does not write. -/
theorem same_of_execute (h : m.execute i = (.ok (), m')) (hp : ¬ m.writes i p) :
    m.Same m' p := by
  have he : Effect m i m' := effect_of_execute h
  obtain ⟨hregisters, hdisplay⟩ := unwritten_of_execute h
  cases p with
  | byte a => exact he.read_eq fun hin => hp (writes_byte hin)
  | register z =>
      refine hregisters z fun x hx hxz => hp (writes_register.mpr ⟨x, hx, ?_⟩)
      exact hxz.trans (Nat.mod_eq_of_lt z.isLt)
  | index =>
      rw [Same, he.index]
      cases i with
      | loadIndex a | addIndex x | loadGlyph x => exact absurd rfl hp
      | _ => rfl
  | delay =>
      rw [Same, he.delay]
      cases i with
      | setDelay x => exact absurd rfl hp
      | _ => rfl
  | sound =>
      rw [Same, he.sound]
      cases i with
      | setSound x => exact absurd rfl hp
      | _ => rfl
  | saved k =>
      rw [Same, he.stack]
      exact nextStack_getElem? he.depth_pos hp
  | pixels => exact hdisplay hp
  | key k => rw [Same, he.keypad]
  | random =>
      rw [Same, he.random]
      cases i with
      | random x n => exact absurd rfl hp
      | _ => rfl
  | shiftRule => rw [Same, he.dialect]
  | offsetRule => rw [Same, he.dialect]

/-! ### A run of ticks -/

/-- The next tick carries out no instruction that writes the part. -/
def Spares (m : Machine) (p : Part) : Prop := ∀ i, m.tick.1 = .ok i → ¬ m.writes i p

instance (m : Machine) (p : Part) : Decidable (m.Spares p) :=
  inferInstanceAs (Decidable (∀ i, m.tick.1 = .ok i → ¬ m.writes i p))

theorem same_of_tick_error (ht : m.tick.1 = .error f)
    (hp : p = .register 0xF → 0 ≤ m.display.width ∧ 0 ≤ m.display.height) :
    m.Same m.tick.2 p := by
  by_cases hflag : p = .register 0xF
  · obtain ⟨hw, hh⟩ := hp hflag
    rw [tick_eq_of_error hw hh ht]
    exact .refl m p
  · rcases tick_error ht with he | he <;> rw [he]
    · exact .refl m p
    · cases p with
      | register z =>
          have hz : (z : Nat) ≠ 15 := fun hz => hflag (congrArg Part.register (Fin.ext hz))
          refine Registers.read_setFlag_of_ne ?_
          rw [Nat.mod_eq_of_lt z.isLt]
          exact hz
      | _ => rfl

theorem same_tick (hs : m.Spares p)
    (hp : p = .register 0xF → 0 ≤ m.display.width ∧ 0 ≤ m.display.height) :
    m.Same m.tick.2 p := by
  rcases tick_cases m with ⟨f, _, he⟩ | ⟨i, f, m', _, _, he⟩ | ⟨i, m', _, hx, he⟩
  · exact same_of_tick_error (congrArg Prod.fst he) hp
  · exact same_of_tick_error (congrArg Prod.fst he) hp
  · have hi : ¬ m.writes i p := hs i (congrArg Prod.fst he)
    rw [he]
    exact same_of_execute hx hi

theorem same_ticked {n : Nat} (hs : ∀ k < n, (m.ticked k).Spares p)
    (hp : p = .register 0xF → 0 ≤ m.display.width ∧ 0 ≤ m.display.height) :
    m.Same (m.ticked n) p := by
  have hkeep : ∀ k ≤ n, SameBuild m (m.ticked k) ∧ m.Same (m.ticked k) p := by
    refine ticked_keeps (P := fun m' => SameBuild m m' ∧ m.Same m' p) (fun k hk hm => ?_)
      ⟨{}, .refl m p⟩
    obtain ⟨hbuild, hsame⟩ := hm
    have hflag : p = .register 0xF →
        0 ≤ (m.ticked k).display.width ∧ 0 ≤ (m.ticked k).display.height := by
      rw [hbuild.width, hbuild.height]
      exact hp
    exact ⟨hbuild.trans (sameBuild_tick _), hsame.trans (same_tick (hs k hk) hflag)⟩
  exact (hkeep n (Nat.le_refl n)).2

/-- **An instruction writes its footprint and nothing else.**  A completed instruction leaves every
part outside of its footprint; a call puts one address on top of the stack, a return takes the top
address away, and a random instruction takes one number from the random source.  So a run of ticks,
failed ones among them, leaves every byte, and every other part, that no instruction carried out in
the run writes.  Only on a display of negative size can a failed tick touch the flag register. -/
theorem write_footprint (m : Machine) :
    (∀ i m', m.execute i = (.ok (), m') →
      (∀ p, ¬ m.writes i p → m.Same m' p) ∧
      (∀ a, i = .call a → m'.stack.entries = (m.pc + 2) :: m.stack.entries) ∧
      (i = .ret → ∃ a, m.stack.entries = a :: m'.stack.entries) ∧
      (∀ x n, i = .random x n →
        m'.random = { m.random with position := m.random.position + 1 })) ∧
    ∀ n p, (∀ k < n, ∀ i, (m.ticked k).tick.1 = .ok i → ¬ (m.ticked k).writes i p) →
      (p = .register 0xF → 0 ≤ m.display.width ∧ 0 ≤ m.display.height) →
      m.Same (m.ticked n) p := by
  refine ⟨fun i m' h => ?_, fun n p hs hp => same_ticked hs hp⟩
  have he : Effect m i m' := effect_of_execute h
  refine ⟨fun p hp => same_of_execute h hp, ?_, ?_, ?_⟩
  · rintro a rfl
    rw [he.stack]
    rfl
  · rintro rfl
    rw [he.stack]
    cases hs : m.stack.entries with
    | nil => exact absurd hs (he.depth_pos rfl)
    | cons a rest => exact ⟨a, by simp [nextStack, hs]⟩
  · rintro x n rfl
    rw [he.random]
    rfl

set_option maxRecDepth 20000 in
/-- A run that stores digits and fails in the end, and the byte behind the digits; and a random
instruction, which leaves the other registers. -/
theorem write_footprint_beside_stores :
    let image : List UInt8 := [0xF0, 0x33, 0xFF, 0xFF, 0, 0, 0, 9]
    let v := Registers.zero.write 0 255
    let m := { ((new {} (.cycling #[7])).load image).2 with index := 0x204, v }
    let behind := (m.execute (.random 1 0x0F)).2
    ((∀ k < 2, (m.ticked k).Spares (.byte 0x207)) ∧
        (m.execute (.random 1 0x0F)).1 = .ok () ∧ ¬ m.writes (.random 1 0x0F) (.register 0)) ∧
      ((m.ticked 2).memory.read 0x207 = 9 ∧ (m.ticked 2).memory.read 0x206 = 5) ∧
      behind.v.read 0 = m.v.read 0 ∧ behind.random.position = m.random.position + 1 := by
  intro image v m behind
  obtain ⟨hspares, hdone, hfree⟩ : (∀ k < 2, (m.ticked k).Spares (.byte 0x207)) ∧
      (m.execute (.random 1 0x0F)).1 = .ok () ∧ ¬ m.writes (.random 1 0x0F) (.register 0) := by
    decide +kernel
  obtain ⟨hnine, hfive⟩ : m.memory.read 0x207 = 9 ∧ (m.ticked 2).memory.read 0x206 = 5 := by
    decide +kernel
  obtain ⟨hone, hrun⟩ := write_footprint m
  have hkept : m.Same (m.ticked 2) (.byte 0x207) := hrun 2 (.byte 0x207) hspares nofun
  obtain ⟨hframe, -, -, hrandom⟩ := hone (.random 1 0x0F) behind (Prod.ext hdone rfl)
  have hregister : m.Same behind (.register 0) := hframe (.register 0) hfree
  have hposition := congrArg RandomSource.position (hrandom 1 0x0F rfl)
  clear_value behind m
  exact ⟨⟨hspares, hdone, hfree⟩, ⟨Eq.trans hkept hnine, hfive⟩, hregister, hposition⟩

end Machine

end Chip8
