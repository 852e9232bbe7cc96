import Chip8.Proofs.Failure
import Chip8.Proofs.History

/-! # The machines that can be reached

`InBounds` is the invariant of all machines that a host can bring about.  Its parts need each
other: a skip at the end of memory or an offset jump may leave the program counter outside of
memory, up to `0x10FE`, but a tick from there fails; so a call saves an address of at most
`0x1000`, and a return goes back to no other.  It holds behind `Machine.new` and is kept by every
request but `Request.execute`, which carries out an instruction that was not fetched.

`WellFormed` adds what the types of the components say.  A tick of such a machine never fails for
a return address of more than sixteen bits, for an unknown key or for a point outside the display,
and the numbers it stores are bytes. -/

namespace Chip8

namespace Fault

/-- The faults of an address, a key or a point out of bounds, which an instruction never causes. -/
def IsStray : Fault → Prop
  | returnAddress _ | unknownKey _ | pixelOutside _ _ _ _ => True
  | _ => False

end Fault

namespace Machine

variable {m m' : Machine} {i : Instruction} {f : Fault} {w h : Int}

/-- The bounds of the numbers that no type bounds, and the size of the display. -/
structure InBounds (w h : Int) (m : Machine) : Prop where
  index : 0 ≤ m.index ∧ m.index ≤ 0xFFFF
  pc : 0 ≤ m.pc ∧ m.pc ≤ 0x10FE
  depth : m.stack.size ≤ 16
  saved : ∀ a ∈ m.stack.entries, 2 ≤ a ∧ a ≤ 0x1000
  width : m.display.width = w
  height : m.display.height = h

/-- Every component has its size, and every number lies in its range. -/
structure WellFormed (w h : Int) (m : Machine) : Prop extends InBounds w h m where
  registers : m.v.bytes.toList.length = 16 ∧ ∀ b ∈ m.v.bytes.toList, b.toNat ≤ 0xFF
  timers : m.delay.toNat ≤ 0xFF ∧ m.sound.toNat ≤ 0xFF
  memory : m.memory.bytes.toList.length = 4096 ∧ ∀ b ∈ m.memory.bytes.toList, b.toNat ≤ 0xFF
  rows : m.display.toLists.length = h.toNat ∧ ∀ row ∈ m.display.toLists, row.length = w.toNat
  keys : m.keypad.keys.toList.length = 16

theorem toNat_le (b : UInt8) : b.toNat ≤ 0xFF := by
  have h := b.toNat_lt
  omega

theorem InBounds.wellFormed (hm : InBounds w h m) : WellFormed w h m where
  toInBounds := hm
  registers := ⟨by simp, fun b _ => toNat_le b⟩
  timers := ⟨toNat_le _, toNat_le _⟩
  memory := ⟨by simp, fun b _ => toNat_le b⟩
  rows := by
    obtain ⟨-, -, -, -, rfl, rfl⟩ := hm
    refine ⟨by simp [Display.toLists], ?_⟩
    intro row hrow
    obtain ⟨r, _, rfl⟩ := List.mem_map.mp hrow
    simp
  keys := by simp

/-! ### One instruction -/

theorem nextIndex_bounds (hi : i.InRange) (hm : 0 ≤ m.index ∧ m.index ≤ 0xFFFF) :
    0 ≤ m.nextIndex i ∧ m.nextIndex i ≤ 0xFFFF := by
  cases i with
  | loadIndex a =>
      have ha : a < 0x1000 := hi.1 (.address, a) List.mem_cons_self
      simp only [nextIndex]
      omega
  | addIndex x =>
      simp only [nextIndex]
      omega
  | loadGlyph x =>
      simp only [nextIndex, Font.address, Font.glyphSize]
      omega
  | _ => exact hm

/-- From a word in memory the program counter gets no further than an offset jump can take it. -/
theorem nextPc_bounds (hi : i.InRange) (hpc : Memory.Holds m.pc 2)
    (hret : i = .ret → m.stack.entries ≠ [])
    (hsaved : ∀ a ∈ m.stack.entries, 2 ≤ a ∧ a ≤ 0x1000) :
    0 ≤ m.nextPc i ∧ m.nextPc i ≤ 0x10FE := by
  obtain ⟨hlow, hhigh⟩ := hpc
  cases i with
  | ret =>
      cases hs : m.stack.entries with
      | nil => exact absurd hs (hret rfl)
      | cons a rest =>
          have ha := hsaved a (by rw [hs]; exact List.mem_cons_self)
          simp only [nextPc, hs, List.headD_cons]
          omega
  | jump a | call a =>
      have ha : a < 0x1000 := hi.1 (.address, a) List.mem_cons_self
      simp only [nextPc]
      omega
  | jumpOffset x a =>
      have ha : a < 0x1000 := hi.1 (.address, a) (List.mem_cons_of_mem _ List.mem_cons_self)
      have hb := toNat_le (m.v.read (if m.dialect.offsetFromVx then x else 0))
      simp only [nextPc]
      omega
  | _ =>
      simp only [nextPc]
      rcases increment_cases m _ with hk | hk | hk
      all_goals
        rw [hk]
        omega

theorem InBounds.of_effect (hm : InBounds w h m) (hpc : Memory.Holds m.pc 2) (hi : i.InRange)
    (he : Effect m i m') : InBounds w h m' where
  index := by
    rw [he.index]
    exact nextIndex_bounds hi hm.index
  pc := by
    rw [he.pc]
    exact nextPc_bounds hi hpc he.depth_pos hm.saved
  depth := by
    have hd := hm.depth
    have hroom := he.room
    rw [he.stack]
    unfold CallStack.size at *
    cases i with
    | ret =>
        simp only [nextStack, List.length_tail]
        omega
    | call a =>
        have := hroom a rfl
        simp only [nextStack, List.length_cons]
        omega
    | _ => exact hd
  saved := by
    rw [he.stack]
    obtain ⟨hlow, hhigh⟩ := hpc
    cases i with
    | ret => exact fun a ha => hm.saved a (List.mem_of_mem_tail ha)
    | call b =>
        intro a ha
        rcases List.mem_cons.mp ha with rfl | ha
        · omega
        · exact hm.saved a ha
    | _ => exact hm.saved
  width := he.width.trans hm.width
  height := he.height.trans hm.height

/-! ### Requests -/

theorem InBounds.tick (hm : InBounds w h m) : InBounds w h m.tick.2 := by
  rcases ht : m.tick.1 with f | i
  · rcases tick_error ht with he | he <;> rw [he]
    · exact hm
    · exact { hm with }
  · obtain ⟨hf, he⟩ := effect_of_tick ht
    exact hm.of_effect (fetch_eq_ok_iff.mp hf).1 (inRange_of_fetch hf) he

theorem InBounds.reset (hw : m.display.width = w) (hh : m.display.height = h) :
    InBounds w h m.reset where
  index := by
    show (0 : Int) ≤ 0 ∧ (0 : Int) ≤ 0xFFFF
    omega
  pc := by
    show (0 : Int) ≤ 0x200 ∧ (0x200 : Int) ≤ 0x10FE
    omega
  depth := Nat.zero_le 16
  saved := nofun
  width := hw
  height := hh

theorem InBounds.load (hm : InBounds w h m) (data : List UInt8) (offset : Int) :
    InBounds w h (m.load data offset).2 := by
  obtain ⟨memory, he⟩ := exists_memory_load m data offset
  rw [he]
  exact { hm with }

theorem InBounds.setKey (hm : InBounds w h m) (key : Int) (down : Bool) :
    InBounds w h (m.setKey key down).2 := by
  obtain ⟨keypad, he⟩ := exists_keypad_setKey m key down
  rw [he]
  exact { hm with }

/-- Every request keeps the bounds, except to carry out an instruction that was not fetched. -/
theorem InBounds.perform (hm : InBounds w h m) {r : Request} (hr : ∀ word, r ≠ .execute word) :
    InBounds w h (m.perform r).2 := by
  cases r with
  | tick => exact hm.tick
  | fetch => exact hm
  | run ticks => exact run_keeps (fun m hm => InBounds.tick hm) _ hm
  | execute word => exact absurd rfl (hr word)
  | setKey key down => exact hm.setKey key down
  | decrementTimers => exact { hm with }
  | reset => exact .reset hm.width hm.height
  | load data offset => exact hm.load data offset
  | loadFont offset => exact hm.load Font.glyphs offset

theorem inBounds_of_reachable (dialect : Dialect) (random : RandomSource) (display : Display)
    (keypad : Keypad) {rs : List Request} (hrs : ∀ r ∈ rs, ∀ word, r ≠ .execute word) :
    InBounds display.width display.height
      ((new dialect random display keypad).performAll rs).2 :=
  performAll_keeps (fun _ _ hr hm => hm.perform hr) hrs (InBounds.reset rfl rfl)

/-! ### Faults that cannot happen -/

theorem Refuses.not_isStray (hr : m.Refuses i f) : ¬ f.IsStray := by
  cases hr <;> exact id

theorem TickFault.not_isStray (ht : m.TickFault f) : ¬ f.IsStray := by
  cases ht with
  | instruction _ _ hr => exact hr.not_isStray
  | _ => exact id

/-- **Every machine that can be reached is well-formed.**  Hence no tick of it fails for an address,
a key or a point out of bounds, no constant of an instruction is cut to fit, and what a tick stores
are bytes. -/
theorem reachable_wellFormed (dialect : Dialect) (random : RandomSource) (display : Display)
    (keypad : Keypad) (hw : 0 ≤ display.width) (hh : 0 ≤ display.height) (rs : List Request)
    (hrs : ∀ r ∈ rs, ∀ word, r ≠ .execute word) :
    let m := ((new dialect random display keypad).performAll rs).2
    m.WellFormed display.width display.height ∧
      (∀ f, m.tick.1 = .error f → ¬ f.IsStray) ∧
      ∀ i, m.tick.1 = .ok i → i.InRange ∧ (∀ n ∈ m.stored i, n ≤ 0xFF) ∧
        m.tick.2.memory = m.memory.write m.index.toNat ((m.stored i).map UInt8.ofNat) := by
  intro m
  have hm : InBounds display.width display.height m :=
    inBounds_of_reachable dialect random display keypad hrs
  refine ⟨hm.wellFormed, ?_, ?_⟩
  · intro f hf
    have hw' : 0 ≤ m.display.width := by rw [hm.width]; exact hw
    have hh' : 0 ≤ m.display.height := by rw [hm.height]; exact hh
    exact (tickFault_of_tick hm.depth hw' hh' (Prod.ext hf rfl)).1.not_isStray
  · intro i hi
    obtain ⟨hf, he⟩ := effect_of_tick hi
    exact ⟨inRange_of_fetch hf, fun n hn => stored_le hn, he.memory⟩

set_option maxRecDepth 20000 in
/-- An offset jump takes the program counter as far as it gets, and the tick from there fails. -/
theorem reachable_wellFormed_past_memory :
    let requests : List Request := [.load [0x6F, 0xFF, 0xBF, 0xFF] 0x200, .tick, .tick, .tick]
    let display : Display := .blank 64 32
    let m := ((new {} (.cycling #[]) display).performAll requests).2
    (0 ≤ display.width ∧ 0 ≤ display.height ∧ ∀ r ∈ requests, ∀ word, r ≠ .execute word) ∧
      m.pc = 0x10FE ∧ m.WellFormed 64 32 := by
  intro requests display m
  have hw : 0 ≤ display.width := by decide
  have hh : 0 ≤ display.height := by decide
  have hrs : ∀ r ∈ requests, ∀ word, r ≠ .execute word := by simp [requests]
  have hpc : m.pc = 0x10FE := by decide +kernel
  have hm : m.WellFormed 64 32 := (reachable_wellFormed _ _ display _ hw hh requests hrs).1
  exact ⟨⟨hw, hh, hrs⟩, hpc, hm⟩

end Machine

end Chip8
