import Mathlib.Algebra.BigOperators.Group.List.Lemmas
import Mathlib.Algebra.BigOperators.Ring.List
import Mathlib.Algebra.Ring.Nat
import Chip8.Proofs.Parity

/-! # Sprites drawn in any order

Drawing switches pixels, and apart from pixels and program counter it writes the flag register
alone.  So as long as no sprite takes its place from the flag register, a sprite switches the same
pixels whatever was drawn before it (`Machine.switches_drawn`).  Behind a list of drawings a pixel
goes by the number of those that switch it (`Machine.executeAll_draws`): the order in which they are
drawn does not matter, and what is drawn an even number of times is not seen. -/

namespace Chip8

/-- If every element of a list stands there an even number of times, so do the elements with some
property together. -/
theorem countP_even {α : Type} [DecidableEq α] {l : List α} (p : α → Bool)
    (h : ∀ a ∈ l, l.count a % 2 = 0) : l.countP p % 2 = 0 := by
  rw [← List.sum_map_count_dedup_filter_eq_countP]
  refine Nat.mod_eq_zero_of_dvd (List.dvd_sum fun n hn => ?_)
  obtain ⟨a, ha, rfl⟩ := List.mem_map.mp hn
  have hmem : a ∈ l := List.mem_dedup.mp (List.mem_of_mem_filter ha)
  exact Nat.dvd_of_mod_eq_zero (h a hmem)

namespace Display

variable {d d' d'' : Display} {p q : Nat → Nat → Bool}

/-- The display `d'` is `d` with the pixels of `p` switched. -/
structure Switched (d d' : Display) (p : Nat → Nat → Bool) : Prop where
  width : d'.width = d.width
  height : d'.height = d.height
  lit : ∀ c r, d'.lit c r = (d.lit c r ^^ p c r)

theorem Switched.refl (d : Display) : Switched d d fun _ _ => false :=
  ⟨rfl, rfl, fun _ _ => (Bool.xor_false _).symm⟩

theorem Switched.trans (h : Switched d d' p) (h' : Switched d' d'' q) :
    Switched d d'' fun c r => p c r ^^ q c r where
  width := h'.width.trans h.width
  height := h'.height.trans h.height
  lit c r := by rw [h'.lit, h.lit, Bool.xor_assoc]

theorem Switched.congr (h : Switched d d' p) (hpq : ∀ c r, p c r = q c r) : Switched d d' q :=
  ⟨h.width, h.height, fun c r => hpq c r ▸ h.lit c r⟩

theorem Switched.unique (h : Switched d d' p) (h' : Switched d d'' p) : d' = d'' := by
  obtain ⟨hw, hh, hlit⟩ := h
  obtain ⟨hw', hh', hlit'⟩ := h'
  obtain ⟨w, h, grid⟩ := d
  obtain ⟨w', h', grid'⟩ := d'
  obtain ⟨w'', h'', grid''⟩ := d''
  cases hw
  cases hh
  cases hw'
  cases hh'
  congr 1
  exact Grid.ext fun c r _ _ => (hlit c r).trans (hlit' c r).symm

end Display

namespace Machine

variable {m : Machine} {i : Instruction} {draws : List Instruction}

/-- Carries out instructions one after the other, up to the first fault. -/
def executeAll : List Instruction → Machine → Outcome Unit
  | [], m => (.ok (), m)
  | i :: rest, m =>
      match m.execute i with
      | (.ok (), m') => executeAll rest m'
      | (.error f, m') => (.error f, m')

theorem executeAll_cons_of_ok {m' : Machine} (h : m.execute i = (.ok (), m'))
    (rest : List Instruction) : m.executeAll (i :: rest) = m'.executeAll rest := by
  rw [executeAll, h]

/-- The instruction draws a sprite that is all in memory, to a place that does not depend on the
flag register. -/
def Draws (m : Machine) (i : Instruction) : Prop :=
  ∃ x y n, i = .draw x y n ∧ x % 16 ≠ Registers.flag ∧ y % 16 ≠ Registers.flag ∧
    Memory.Holds m.index n

/-- Whether a drawing switches the pixel `(c, r)`. -/
def switches (m : Machine) (i : Instruction) (c r : Nat) : Bool :=
  match i with
  | .draw x y n => m.hits x y n c r % 2 = 1
  | _ => false

/-- Whether an odd number of the drawings in a list switch the pixel `(c, r)`. -/
def switchesAll (m : Machine) (draws : List Instruction) (c r : Nat) : Bool :=
  draws.countP (m.switches · c r) % 2 = 1

/-- The machine behind `n` drawings. -/
def drawn (m : Machine) (display : Display) (flag : UInt8) (n : Nat) : Machine :=
  { m with display, v := m.v.write Registers.flag flag, pc := m.pc + 2 * n }

theorem drawn_drawn (m : Machine) (d d' : Display) (flag flag' : UInt8) (n : Nat) :
    (m.drawn d flag 1).drawn d' flag' n = m.drawn d' flag' (n + 1) := by
  have hpc : m.pc + 2 * (1 : Nat) + 2 * n = m.pc + 2 * (n + 1 : Nat) := by omega
  simp only [drawn, Registers.write_write, hpc]

theorem execute_draws (hw : 0 < m.display.width) (hh : 0 < m.display.height) (hi : m.Draws i) :
    ∃ display flag, m.execute i = (.ok (), m.drawn display flag 1) ∧
      m.display.Switched display (m.switches i) := by
  obtain ⟨x, y, n, rfl, -, -, hn⟩ := hi
  obtain ⟨grid, hit, he, hgrid, -⟩ := execute_draw_of_pos (x := x) (y := y) hn hw hh
  exact ⟨_, _, he, rfl, rfl, hgrid⟩

/-- What was drawn before does not change what a sprite switches. -/
theorem switches_drawn {display : Display} (hw : display.width = m.display.width)
    (hh : display.height = m.display.height) (flag : UInt8) (k : Nat) (hi : m.Draws i) :
    (m.drawn display flag k).switches i = m.switches i := by
  obtain ⟨x, y, n, rfl, hx, hy, -⟩ := hi
  have hvx : (m.v.write Registers.flag flag).read x = m.v.read x := Registers.read_write_of_ne hx
  have hvy : (m.v.write Registers.flag flag).read y = m.v.read y := Registers.read_write_of_ne hy
  funext c r
  unfold switches hits drawn
  dsimp only
  rw [hvx, hvy, hw, hh]

theorem switchesAll_cons (m : Machine) (i : Instruction) (draws : List Instruction) (c r : Nat) :
    m.switchesAll (i :: draws) c r = (m.switches i c r ^^ m.switchesAll draws c r) := by
  unfold switchesAll
  rw [List.countP_cons]
  cases m.switches i c r with
  | false => simp
  | true =>
      rw [if_pos rfl, Bool.true_xor, ← decide_not, decide_eq_decide]
      omega

/-- Behind a list of drawings, the pixels have changed that an odd number of them switch. -/
theorem executeAll_draws (hw : 0 < m.display.width) (hh : 0 < m.display.height)
    (hdraws : ∀ i ∈ draws, m.Draws i) :
    ∃ display flag, m.executeAll draws = (.ok (), m.drawn display flag draws.length) ∧
      m.display.Switched display (m.switchesAll draws) := by
  induction draws generalizing m with
  | nil =>
      refine ⟨m.display, m.v.read Registers.flag, ?_, .refl _⟩
      simp [executeAll, drawn]
  | cons i draws ih =>
      obtain ⟨display, flag, he, hswitched⟩ := execute_draws hw hh (hdraws i List.mem_cons_self)
      have hrest : ∀ j ∈ draws, m.Draws j := fun j hj => hdraws j (List.mem_cons_of_mem _ hj)
      obtain ⟨display', flag', hall, hswitched'⟩ :=
        ih (m := m.drawn display flag 1) (hswitched.width ▸ hw) (hswitched.height ▸ hh) hrest
      refine ⟨display', flag', ?_, (hswitched.trans hswitched').congr fun c r => ?_⟩
      · rw [executeAll_cons_of_ok he, hall, drawn_drawn, List.length_cons]
      · -- The machine behind the first drawing reads other flags, but switches the same pixels.
        have hsame : (m.drawn display flag 1).switchesAll draws c r = m.switchesAll draws c r := by
          unfold switchesAll
          rw [List.countP_congr fun j hj => by
            rw [switches_drawn hswitched.width hswitched.height flag 1 (hrest j hj)]]
        rw [hsame, switchesAll_cons]

/-- **Drawings commute, and cancel in pairs.**  On a display with columns and rows, let a list of
drawings be given whose sprites are all in memory and whose places are not taken from the flag
register.  They are all carried out.  They switch the pixels that an odd number of them hit an odd
number of times, and change nothing else but flag register and program counter.  Every reordering of
the list leaves the same machine, but for the flag register; and if every drawing stands in the list
an even number of times, the display is as before. -/
theorem drawings_commute_and_cancel (hw : 0 < m.display.width) (hh : 0 < m.display.height)
    (hdraws : ∀ i ∈ draws, m.Draws i) :
    ∃ m', m.executeAll draws = (.ok (), m') ∧
      (m'.memory = m.memory ∧ m'.index = m.index ∧
        (∀ z : Fin 16, z ≠ 0xF → m'.v.read z = m.v.read z) ∧
        m' = { m with display := m'.display, v := m'.v, pc := m.pc + 2 * draws.length }) ∧
      m.display.Switched m'.display (m.switchesAll draws) ∧
      (∀ draws' : List Instruction, draws'.Perm draws →
        ∃ v, m.executeAll draws' = (.ok (), { m' with v }) ∧
          ∀ z : Fin 16, z ≠ 0xF → v.read z = m.v.read z) ∧
      ((∀ i ∈ draws, draws.count i % 2 = 0) → m'.display = m.display) := by
  have hfree : ∀ (flag : UInt8) (z : Fin 16), z ≠ 0xF →
      (m.v.write Registers.flag flag).read z = m.v.read z :=
    fun _ _ hz => Registers.read_write_of_fin_ne (x := 0xF) hz
  obtain ⟨display, flag, hall, hswitched⟩ := executeAll_draws hw hh hdraws
  refine ⟨_, hall, ⟨rfl, rfl, hfree flag, rfl⟩, hswitched, fun draws' hperm => ?_, fun heven => ?_⟩
  · have hdraws' : ∀ i ∈ draws', m.Draws i := fun i hi => hdraws i (hperm.mem_iff.mp hi)
    obtain ⟨display', flag', hall', hswitched'⟩ := executeAll_draws hw hh hdraws'
    have hsame : ∀ c r, m.switchesAll draws' c r = m.switchesAll draws c r := by
      intro c r
      unfold switchesAll
      rw [hperm.countP_eq]
    obtain rfl : display' = display := (hswitched'.congr hsame).unique hswitched
    rw [hperm.length_eq] at hall'
    exact ⟨_, hall', hfree flag'⟩
  · have hnone : ∀ c r, m.switchesAll draws c r = false := by
      intro c r
      unfold switchesAll
      rw [countP_even _ heven]
      rfl
    exact (hswitched.congr hnone).unique (.refl _)

set_option maxRecDepth 20000 in
/-- Two sprites in turn, each of them twice.  The first one wraps around a corner of the display,
and they meet on a pixel. -/
theorem drawings_commute_and_cancel_around_corner :
    let v := ((Registers.zero.write 0 62).write 1 30).write 2 1
    let m : Machine := { (new {} (.cycling #[])).loadFont.2 with v }
    let draws : List Instruction := [.draw 0 1 5, .draw 2 2 4, .draw 0 1 5, .draw 2 2 4]
    let sorted : List Instruction := [.draw 0 1 5, .draw 0 1 5, .draw 2 2 4, .draw 2 2 4]
    ((0 < m.display.width ∧ 0 < m.display.height ∧ ∀ i ∈ draws, m.Draws i) ∧
        sorted.Perm draws ∧ ∀ i ∈ draws, draws.count i % 2 = 0) ∧
      (m.hits 0 1 5 1 1 = 1 ∧ m.hits 2 2 4 1 1 = 1) ∧
      (m.executeAll draws).2.display = m.display ∧
      (m.executeAll sorted).2.display = m.display := by
  intro v m draws sorted
  have hw : 0 < m.display.width := by decide +kernel
  have hh : 0 < m.display.height := by decide +kernel
  have hdraws : ∀ i ∈ draws, m.Draws i := by
    have hfirst : m.Draws (.draw 0 1 5) := ⟨0, 1, 5, rfl, by decide, by decide, by decide +kernel⟩
    have hsecond : m.Draws (.draw 2 2 4) := ⟨2, 2, 4, rfl, by decide, by decide, by decide +kernel⟩
    simp only [draws, List.forall_mem_cons]
    exact ⟨hfirst, hsecond, hfirst, hsecond, nofun⟩
  have hperm : sorted.Perm draws := by decide
  have heven : ∀ i ∈ draws, draws.count i % 2 = 0 := by decide
  have hmeet : m.hits 0 1 5 1 1 = 1 ∧ m.hits 2 2 4 1 1 = 1 := by decide +kernel
  obtain ⟨m', hall, -, -, hreorder, hcancel⟩ := drawings_commute_and_cancel hw hh hdraws
  obtain ⟨v', hsorted, -⟩ := hreorder sorted hperm
  refine ⟨⟨⟨hw, hh, hdraws⟩, hperm, heven⟩, hmeet, ?_, ?_⟩
  · rw [hall]
    exact hcancel heven
  · rw [hsorted]
    exact hcancel heven

end Machine

end Chip8
