import Chip8.Proofs.Effect

/-! # A drawn pixel goes by the parity of its hits

Drawing walks over the set pixels of a sprite and switches the pixel of the display under each of
them.  A sprite larger than the display wraps onto itself, and then a pixel of the display has its
turn more than once.  `Machine.hits` counts the turns from the rows in memory, without the walk.

A list of points switches each pixel as often as the list names it, so only the parity of that
number shows (`Display.lit_plot`).  One of the points finds its pixel on exactly if some pixel is
named twice, or is on to begin with and named once (`Display.hit_plot`): the first turn of a pixel
that is off switches it on, and its second turn finds it so.

The points of a sprite are the cells of a box of eight columns, filtered by the bits of the rows
(`Sprite.points_slice`), so a pixel is named as often as it has hits (`Machine.count_placed`).  On
a display at least as large as the box no two cells meet, and no pixel has more than one
(`Machine.hits_le_one`).  `execute_draw_of_pos` puts this together for the instruction. -/

namespace Chip8

namespace Display

theorem lit_toggle_of_contains {d : Display} {x y : Int} (h : d.Contains x y) (i j : Nat) :
    Display.lit { d with grid := d.grid.toggle x.toNat y.toNat } i j =
      (d.lit i j ^^ decide ((x, y) = ((i : Int), (j : Int)))) := by
  obtain ⟨⟨hx, hxw⟩, hy, hyh⟩ := h
  have hiff : (i = x.toNat ∧ j = y.toNat ∧ x.toNat < d.width.toNat ∧ y.toNat < d.height.toNat) ↔
      (x, y) = ((i : Int), (j : Int)) := by
    rw [Prod.mk.injEq]
    omega
  unfold lit
  rw [Grid.lit_toggle]
  simp only [hiff]

theorem plot_cons_eq_ok {x y : Int} {points : List (Int × Int)} {d d' : Display} {hit : Bool}
    (hp : d.Contains x y) (h : plot ((x, y) :: points) d = .ok (d', hit)) :
    ∃ later, plot points { d with grid := d.grid.toggle x.toNat y.toNat } = .ok (d', later) ∧
      hit = (d.lit x.toNat y.toNat || later) := by
  rw [plot_cons_of_contains hp] at h
  cases hr : plot points { d with grid := d.grid.toggle x.toNat y.toNat } with
  | error f =>
      rw [hr] at h
      cases h
  | ok r =>
      rw [hr] at h
      cases h
      exact ⟨r.2, rfl, rfl⟩

theorem decide_succ_odd (n : Nat) : decide ((n + 1) % 2 = 1) = !decide (n % 2 = 1) := by
  rw [← decide_not, decide_eq_decide]
  omega

/-- A plotted pixel has changed if the points name it an odd number of times. -/
theorem lit_plot {points : List (Int × Int)} {d d' : Display} {hit : Bool}
    (hin : ∀ p ∈ points, d.Contains p.1 p.2) (h : plot points d = .ok (d', hit)) (i j : Nat) :
    d'.lit i j = (d.lit i j ^^ decide (points.count ((i : Int), (j : Int)) % 2 = 1)) := by
  induction points generalizing d hit with
  | nil =>
      cases h
      simp
  | cons p points ih =>
      obtain ⟨x, y⟩ := p
      have hp : d.Contains x y := hin (x, y) List.mem_cons_self
      obtain ⟨later, hr, -⟩ := plot_cons_eq_ok hp h
      rw [ih (d := { d with grid := d.grid.toggle x.toNat y.toNat })
        (fun q hq => hin q (List.mem_cons_of_mem _ hq)) hr, lit_toggle_of_contains hp,
        List.count_cons]
      by_cases hij : (x, y) = ((i : Int), (j : Int))
      · simp [hij, decide_succ_odd]
      · simp [hij]

/-- One of the plotted points finds its pixel on exactly if some pixel is named more often than it
takes to switch it on once. -/
theorem hit_plot {points : List (Int × Int)} {d d' : Display} {hit : Bool}
    (hin : ∀ p ∈ points, d.Contains p.1 p.2) (h : plot points d = .ok (d', hit)) :
    hit = true ↔ ∃ i j : Nat, 2 ≤ points.count ((i : Int), (j : Int)) + (d.lit i j).toNat := by
  induction points generalizing d hit with
  | nil =>
      cases h
      simp only [Bool.false_eq_true, List.count_nil, Nat.zero_add, false_iff, not_exists]
      intro i j
      cases Display.lit _ i j <;> decide
  | cons p points ih =>
      obtain ⟨x, y⟩ := p
      have hp : d.Contains x y := hin (x, y) List.mem_cons_self
      obtain ⟨later, hr, rfl⟩ := plot_cons_eq_ok hp h
      have hxy : (x, y) = ((x.toNat : Int), (y.toNat : Int)) := by
        rw [Int.toNat_of_nonneg hp.1.1, Int.toNat_of_nonneg hp.2.1]
      cases hon : d.lit x.toNat y.toNat with
      | true =>
          -- The first turn of this pixel is already a hit.
          refine iff_of_true rfl ⟨x.toNat, y.toNat, ?_⟩
          rw [hon, ← hxy, List.count_cons_self]
          simp
      | false =>
          -- The first turn switches the pixel on, which the count makes up for.
          rw [Bool.false_or, ih (d := { d with grid := d.grid.toggle x.toNat y.toNat })
            (fun q hq => hin q (List.mem_cons_of_mem _ hq)) hr]
          refine exists_congr fun i => exists_congr fun j => ?_
          rw [lit_toggle_of_contains hp, List.count_cons]
          by_cases hij : (x, y) = ((i : Int), (j : Int))
          · obtain ⟨rfl, rfl⟩ := Prod.mk.inj hij
            simp only [Int.toNat_natCast] at hon
            simp [hon]
          · simp [hij]

end Display

/-- The cells of a box as wide as a sprite and of `n` rows, row by row, as pairs of column and
row. -/
def Sprite.cells (n : Nat) : List (Nat × Nat) :=
  (List.range n).flatMap fun r => (List.range width).map fun c => (c, r)

theorem Sprite.nodup_cells (n : Nat) : (Sprite.cells n).Nodup := by
  unfold cells
  refine List.pairwise_flatMap.mpr ⟨fun r _ => List.pairwise_map.mpr ?_, ?_⟩
  · refine List.nodup_range.imp fun hne h => hne ?_
    exact (Prod.mk.inj h).1
  · refine List.nodup_range.imp fun hne p hp q hq h => hne ?_
    obtain ⟨_, _, rfl⟩ := List.mem_map.mp hp
    obtain ⟨_, _, rfl⟩ := List.mem_map.mp hq
    exact (Prod.mk.inj h).2

theorem Sprite.mem_cells {n c r : Nat} : (c, r) ∈ Sprite.cells n ↔ c < 8 ∧ r < n := by
  simp only [cells, List.mem_flatMap, List.mem_map, List.mem_range, Prod.mk.injEq]
  constructor
  · rintro ⟨_, hr, _, hc, rfl, rfl⟩
    exact ⟨hc, hr⟩
  · rintro ⟨hc, hr⟩
    exact ⟨r, hr, c, hc, rfl, rfl⟩

theorem Sprite.points_slice (memory : Memory) (start n : Nat) :
    Sprite.points (memory.slice start n) =
      (Sprite.cells n).filter fun p => Sprite.isSet (memory.read (start + p.2)) p.1 := by
  have hrows : (memory.slice start n).zipIdx =
      (List.range n).map fun r => (memory.read (start + r), r) := by
    unfold Memory.slice
    apply List.ext_getElem
    · simp
    · simp
  unfold points cells
  rw [hrows, List.flatMap_map, List.filter_flatMap]
  simp only [List.filter_map, Function.comp_def]

/-- A list without repetition holds at most one element with a property that tells elements
apart. -/
theorem countP_le_one {α : Type} {l : List α} {p : α → Bool} (hl : l.Nodup)
    (hp : ∀ a ∈ l, ∀ b ∈ l, p a → p b → a = b) : l.countP p ≤ 1 := by
  induction l with
  | nil => simp
  | cons a l ih =>
      obtain ⟨ha, hl⟩ := List.nodup_cons.mp hl
      have hrest : l.countP p ≤ 1 :=
        ih hl fun b hb c hc => hp b (List.mem_cons_of_mem _ hb) c (List.mem_cons_of_mem _ hc)
      by_cases hpa : p a
      · have hzero : l.countP p = 0 := by
          refine List.countP_eq_zero.mpr fun b hb hpb => ha ?_
          rwa [hp a List.mem_cons_self b (List.mem_cons_of_mem _ hb) hpa hpb]
        simp [hpa, hzero]
      · simpa [List.countP_cons, hpa] using hrest

theorem eq_of_emod_add_eq {w a : Int} {c c' : Nat} (hc : c < w) (hc' : c' < w)
    (h : (a + c) % w = (a + c') % w) : c = c' := by
  have hsame := Int.emod_add_cancel_left.mp h
  rw [Int.emod_eq_of_lt (Int.natCast_nonneg c) hc,
    Int.emod_eq_of_lt (Int.natCast_nonneg c') hc'] at hsame
  exact Int.ofNat_inj.mp hsame

namespace Machine

variable {m : Machine}

/-- How many set pixels of a sprite of `n` rows, drawn to `(Vx, Vy)`, fall on the pixel `(i, j)`.
They wrap around the edges, so none falls beside the display. -/
def hits (m : Machine) (x y n i j : Nat) : Nat :=
  (Sprite.cells n).countP fun p =>
    Sprite.isSet (m.memory.read (m.index.toNat + p.2)) p.1 &&
      decide ((i : Int) = ((m.v.read x).toNat % m.display.width + p.1) % m.display.width ∧
        (j : Int) = ((m.v.read y).toNat % m.display.height + p.2) % m.display.height)

/-- The points that a sprite is drawn with name a pixel as often as it has hits. -/
theorem count_placed (hw : 0 < m.display.width) (hh : 0 < m.display.height) (x y n i j : Nat) :
    (Sprite.placed (m.memory.slice m.index.toNat n) (m.v.read x).toNat (m.v.read y).toNat
      m.display.width m.display.height).count ((i : Int), (j : Int)) = m.hits x y n i j := by
  unfold Sprite.placed hits
  rw [Sprite.points_slice, List.count_eq_countP, List.countP_map, List.countP_filter]
  refine List.countP_congr fun p _ => ?_
  simp only [Function.comp_apply, Int.fmod_eq_emod_of_nonneg _ (Int.le_of_lt hw),
    Int.fmod_eq_emod_of_nonneg _ (Int.le_of_lt hh), Bool.and_eq_true, beq_iff_eq, Prod.mk.injEq,
    decide_eq_true_eq, eq_comm (b := (i : Int)), eq_comm (b := (j : Int))]
  exact and_comm

theorem hits_le_one {n : Nat} (hw : 8 ≤ m.display.width) (hh : n ≤ m.display.height)
    (x y i j : Nat) : m.hits x y n i j ≤ 1 := by
  refine countP_le_one (Sprite.nodup_cells n) fun p hp q hq hpi hqi => ?_
  obtain ⟨hpc, hpr⟩ := Sprite.mem_cells.mp hp
  obtain ⟨hqc, hqr⟩ := Sprite.mem_cells.mp hq
  simp only [Bool.and_eq_true, decide_eq_true_eq] at hpi hqi
  obtain ⟨-, hpx, hpy⟩ := hpi
  obtain ⟨-, hqx, hqy⟩ := hqi
  exact Prod.ext (eq_of_emod_add_eq (by omega) (by omega) (hpx.symm.trans hqx))
    (eq_of_emod_add_eq (by omega) (by omega) (hpy.symm.trans hqy))

theorem execute_draw_of_pos {x y n : Nat} (hn : Memory.Holds m.index n) (hw : 0 < m.display.width)
    (hh : 0 < m.display.height) :
    ∃ grid hit,
      m.execute (.draw x y n) = (.ok (), { m with
        display := { m.display with grid }
        v := m.v.setFlag hit
        pc := m.pc + 2 }) ∧
      (∀ i j, grid.lit i j = (m.display.lit i j ^^ decide (m.hits x y n i j % 2 = 1))) ∧
      (hit = true ↔ ∃ i j, 2 ≤ m.hits x y n i j + (m.display.lit i j).toNat) := by
  have hne : ¬ (m.display.width = 0 ∨ m.display.height = 0) := by omega
  have hin : ∀ p ∈ Sprite.placed (m.memory.slice m.index.toNat n) (m.v.read x).toNat
      (m.v.read y).toNat m.display.width m.display.height, m.display.Contains p.1 p.2 :=
    fun p hp => Sprite.placed_inside hw hh hp
  obtain ⟨grid, hit, hplot⟩ := Display.plot_of_contains hin
  refine ⟨grid, hit, ?_, fun i j => ?_, ?_⟩
  · rw [execute, drawSprite, withBlock_of_holds hn]
    dsimp only
    rw [if_neg hne, hplot]
    simp only [advance, Registers.setFlag, Registers.write_write]
  · rw [← count_placed hw hh]
    exact Display.lit_plot hin hplot i j
  · simp only [← count_placed hw hh]
    exact Display.hit_plot hin hplot

/-- **A drawn pixel changes exactly if its hits are odd.**  Drawing a sprite whose rows are all in
memory, on a display with columns and rows, succeeds.  It raises the flag exactly if a pixel that is
on has a hit or a pixel that is off has two, and moves on to the next instruction; nothing else
changes.  The hits are those of the registers before, also where the flag register holds a
coordinate.  On a display of at least eight columns and fifteen rows no pixel has two, and the flag
tells whether a pixel went off. -/
theorem draw_pixel_law {x y n : Nat} (hn : Memory.Holds m.index n) (hw : 0 < m.display.width)
    (hh : 0 < m.display.height) :
    ∃ grid hit,
      m.execute (.draw x y n) = (.ok (), { m with
        display := { m.display with grid }
        v := m.v.setFlag hit
        pc := m.pc + 2 }) ∧
      (∀ i j, grid.lit i j = (m.display.lit i j ^^ decide (m.hits x y n i j % 2 = 1))) ∧
      (hit = true ↔ ∃ i j, (m.display.lit i j = true ∧ 1 ≤ m.hits x y n i j) ∨
        (m.display.lit i j = false ∧ 2 ≤ m.hits x y n i j)) ∧
      (8 ≤ m.display.width → 15 ≤ m.display.height → n ≤ 15 →
        (∀ i j, m.hits x y n i j ≤ 1) ∧
        (hit = true ↔ ∃ i j, m.display.lit i j = true ∧ grid.lit i j = false)) := by
  obtain ⟨grid, hit, hexecute, hgrid, hhit⟩ := execute_draw_of_pos (x := x) (y := y) hn hw hh
  refine ⟨grid, hit, hexecute, hgrid, ?_, fun hw8 hh15 hn15 => ?_⟩
  · rw [hhit]
    refine exists_congr fun i => exists_congr fun j => ?_
    cases m.display.lit i j
    · simp
    · simp only [Bool.toNat_true, true_and, Bool.true_eq_false, false_and, or_false]
      omega
  · have hone : ∀ i j, m.hits x y n i j ≤ 1 := hits_le_one hw8 (by omega) x y
    refine ⟨hone, hhit.trans (exists_congr fun i => exists_congr fun j => ?_)⟩
    have hle := hone i j
    rw [hgrid]
    cases m.display.lit i j
    · simp only [Bool.toNat_false, Bool.false_eq_true, false_and, iff_false]
      omega
    · simp only [Bool.toNat_true, Bool.true_bne, true_and, Bool.not_eq_false',
        decide_eq_true_eq]
      omega

set_option maxRecDepth 20000 in
/-- The glyph of five rows on a display of four columns and three rows, with the flag register for
both coordinates.  The display was blank, yet the glyph meets itself and raises the flag. -/
theorem draw_pixel_law_on_itself :
    let v := Registers.zero.write 0xF 5
    let m : Machine := { (new {} (.cycling #[]) (.blank 4 3)).loadFont.2 with v }
    (Memory.Holds m.index 5 ∧ 0 < m.display.width ∧ 0 < m.display.height) ∧
      ∃ grid, m.execute (.draw 0xF 0xF 5) = (.ok (), { m with
          display := { m.display with grid }
          v := m.v.setFlag true
          pc := m.pc + 2 }) ∧
        (m.hits 0xF 0xF 5 1 2 = 2 ∧ grid.lit 1 2 = false) ∧
        (m.hits 0xF 0xF 5 2 2 = 1 ∧ grid.lit 2 2 = true) := by
  intro v m
  have hn : Memory.Holds m.index 5 := by decide +kernel
  have hw : 0 < m.display.width := by decide +kernel
  have hh : 0 < m.display.height := by decide +kernel
  have hblank : ∀ i j, m.display.lit i j = false := fun i j =>
    (Grid.lit_fill false i j).trans (Bool.and_false _)
  obtain ⟨htwo, hone⟩ : m.hits 0xF 0xF 5 1 2 = 2 ∧ m.hits 0xF 0xF 5 2 2 = 1 := by decide +kernel
  obtain ⟨grid, hit, hexecute, hgrid, hhit, -⟩ := draw_pixel_law (x := 0xF) (y := 0xF) hn hw hh
  obtain rfl : hit = true := hhit.mpr ⟨1, 2, Or.inr ⟨hblank 1 2, Nat.le_of_eq htwo.symm⟩⟩
  refine ⟨⟨hn, hw, hh⟩, grid, hexecute, ⟨htwo, ?_⟩, hone, ?_⟩
  · rw [hgrid, hblank, htwo]
    rfl
  · rw [hgrid, hblank, hone]
    rfl

end Machine

end Chip8
