import Chip8.Window

/-! # Rendering is scaling

A window shows a display (`Window.Shows`) if every real pixel has the state of the pixel of the
display whose square covers it.  Drawing brings this about (`Window.draw_shows`) whatever the window
showed before, as long as no coordinate is cut to 32 bits (`Window.Places`):

* The painted points are those that are on (`mem_litPoints`).
* The square of a point covers the real pixels whose quotients by the ratio are the point
  (`covers_iff`), and painting points turns on what their squares cover (`paintAll_eq`).
* In a window that shows a display, the pixels of the display can be read back (`Shows.get`).

A window whose sides are no longer than allowed is opened with these sides (`create_eq_blank`). -/

namespace Chip8

theorem Display.inside_of_lit {d : Display} {x y : Nat} (h : d.lit x y = true) :
    (x : Int) < d.width ∧ (y : Int) < d.height := by
  have inside : ¬ (d.width.toNat ≤ x ∨ d.height.toNat ≤ y) := by
    intro out
    have off : d.lit x y = false := Grid.lit_of_ge out
    rw [off] at h
    cases h
  omega

namespace Window

variable {w : Window} {d : Display} {points : List (Nat × Nat)}

theorem mem_litPoints {x y : Nat} : (x, y) ∈ litPoints d ↔ d.lit x y = true := by
  constructor
  · intro h
    obtain ⟨y', _, hx⟩ := List.mem_flatMap.mp h
    obtain ⟨x', hx', he⟩ := List.mem_map.mp hx
    cases he
    exact (List.mem_filter.mp hx').2
  · intro h
    have inside := Display.inside_of_lit h
    have hx : x ∈ (List.range d.width.toNat).filter fun x => d.lit x y :=
      List.mem_filter.mpr ⟨List.mem_range.mpr (by omega), h⟩
    exact List.mem_flatMap.mpr
      ⟨y, List.mem_range.mpr (by omega), List.mem_map.mpr ⟨x, hx, rfl⟩⟩

/-! ### Numbers that are not cut -/

theorem fits_of_le {n : Int} (low : 0 ≤ n) (high : n < 0x80000000) : Signed.Fits 32 n := by
  show -(0x100000000 : Int) ≤ 2 * n ∧ 2 * n < 0x100000000
  omega

theorem units?_of_fits {n : Int} (h : Signed.Fits 32 n) : units? n = .ok n := by
  have h64 : Signed.Fits 64 n := h.mono (by decide)
  rw [units?, if_pos h64, Signed.wrap_of_fits h]

/-- The numbers that place the square of a point fit into 32 bits. -/
structure Places (w : Window) (p : Nat × Nat) : Prop where
  left : Signed.Fits 32 (p.1 * w.ratio)
  top : Signed.Fits 32 (p.2 * w.ratio)
  side : Signed.Fits 32 w.ratio

theorem Places.square? {x y : Nat} (h : w.Places (x, y)) :
    w.square? x y = .ok ⟨x * w.ratio, y * w.ratio, w.ratio⟩ := by
  rw [Window.square?, units?_of_fits h.left, units?_of_fits h.top, units?_of_fits h.side]
  rfl

theorem places_of_lit {x y : Nat} (hr : 1 ≤ w.ratio) (hw : d.width * w.ratio < 0x80000000)
    (hh : d.height * w.ratio < 0x80000000) (h : d.lit x y = true) : w.Places (x, y) := by
  obtain ⟨hx, hy⟩ := Display.inside_of_lit h
  have hr0 : 0 ≤ w.ratio := by omega
  have hleft : (x : Int) * w.ratio ≤ d.width * w.ratio :=
    Int.mul_le_mul_of_nonneg_right (Int.le_of_lt hx) hr0
  have htop : (y : Int) * w.ratio ≤ d.height * w.ratio :=
    Int.mul_le_mul_of_nonneg_right (Int.le_of_lt hy) hr0
  have hside : 1 * w.ratio ≤ d.width * w.ratio :=
    Int.mul_le_mul_of_nonneg_right (by omega) hr0
  exact {
    left := fits_of_le (Int.mul_nonneg (by omega) hr0) (Int.lt_of_le_of_lt hleft hw)
    top := fits_of_le (Int.mul_nonneg (by omega) hr0) (Int.lt_of_le_of_lt htop hh)
    side := fits_of_le hr0 (by omega) }

/-! ### Painting -/

/-- A span of length `r` from `x * r` on holds the numbers with quotient `x`. -/
theorem covers_iff {r : Int} {x i : Nat} (hr : 1 ≤ r) :
    ((x : Int) * r ≤ i ∧ (i : Int) < x * r + r) ↔ i / r.toNat = x := by
  obtain ⟨n, rfl⟩ := Int.eq_ofNat_of_zero_le (by omega : 0 ≤ r)
  have hn : 0 < n := by omega
  rw [Int.toNat_natCast, Nat.div_eq_iff hn]
  have hcast : ((x : Int) * n) = ((x * n : Nat) : Int) := by simp
  rw [hcast]
  omega

/-- Painting the square of a point turns on the real pixels whose quotients are the point. -/
theorem lit_paintSquare (hr : 1 ≤ w.ratio) (x y : Nat) {i j : Nat} (hi : i < w.width)
    (hj : j < w.height) :
    (w.paintSquare ⟨x * w.ratio, y * w.ratio, w.ratio⟩ true).grid.lit i j =
      (w.grid.lit i j || decide ((i / w.ratio.toNat, j / w.ratio.toNat) = (x, y))) := by
  have hx := covers_iff (x := x) (i := i) hr
  have hy := covers_iff (x := y) (i := j) hr
  refine (Grid.lit_paint w.grid _ _ _ _ true i j).trans ?_
  by_cases hp : i / w.ratio.toNat = x ∧ j / w.ratio.toNat = y
  · have hin := And.intro (hx.mpr hp.1) (hy.mpr hp.2)
    rw [if_pos ⟨⟨hin.1.1, hin.1.2, hin.2⟩, hi, hj⟩]
    simp [hp]
  · rw [if_neg fun h => hp ⟨hx.mp ⟨h.1.1, h.1.2.1⟩, hy.mp h.1.2.2⟩]
    simp [hp]

theorem paintAll_eq (hr : 1 ≤ w.ratio) (hp : ∀ p ∈ points, w.Places p) :
    ∃ grid, paintAll points w = (.ok (), { w with grid }) ∧
      ∀ i j, i < w.width → j < w.height → grid.lit i j =
        (w.grid.lit i j || decide ((i / w.ratio.toNat, j / w.ratio.toNat) ∈ points)) := by
  induction points generalizing w with
  | nil =>
      refine ⟨w.grid, rfl, ?_⟩
      intro i j _ _
      simp
  | cons p points ih =>
      obtain ⟨x, y⟩ := p
      have hxy : w.Places (x, y) := hp _ List.mem_cons_self
      let painted := w.paintSquare ⟨x * w.ratio, y * w.ratio, w.ratio⟩ true
      have hrest : ∀ p ∈ points, painted.Places p := by
        intro p h
        have hw := hp p (List.mem_cons_of_mem _ h)
        exact ⟨hw.left, hw.top, hw.side⟩
      obtain ⟨grid, he, hlit⟩ := ih (w := painted) hr hrest
      refine ⟨grid, ?_, ?_⟩
      · rw [paintAll, hxy.square?]
        exact he
      · intro i j hi hj
        have hfirst := lit_paintSquare hr x y hi hj
        refine (hlit i j hi hj).trans ?_
        rw [hfirst, Bool.or_assoc]
        simp only [List.mem_cons, Bool.decide_or]
        rfl

/-! ### Drawing -/

/-- Every real pixel has the state of the pixel whose square covers it. -/
def Shows (w : Window) (d : Display) : Prop :=
  ∀ i j, i < w.width → j < w.height →
    w.grid.lit i j = d.lit (i / w.ratio.toNat) (j / w.ratio.toNat)

/-- **Drawing is scaling**, whatever the window showed before, if the squares of the points that are
on are placed where they belong. -/
theorem draw_shows_of_places (hr : 1 ≤ w.ratio) (hp : ∀ x y, d.lit x y = true → w.Places (x, y)) :
    ∃ grid, w.draw d = (.ok (), { w with grid }) ∧ Shows { w with grid } d := by
  have hclear : ∀ p ∈ litPoints d, w.clear.Places p := by
    rintro ⟨x, y⟩ hxy
    have hplaces := hp x y (mem_litPoints.mp hxy)
    exact ⟨hplaces.left, hplaces.top, hplaces.side⟩
  obtain ⟨grid, he, hlit⟩ := paintAll_eq (w := w.clear) hr hclear
  refine ⟨grid, he, ?_⟩
  intro i j hi hj
  refine (hlit i j hi hj).trans ?_
  have hblank : w.clear.grid.lit i j = false := by
    refine (Grid.lit_fill false i j).trans ?_
    rw [Bool.and_false]
  rw [hblank, Bool.false_or]
  simp only [mem_litPoints, Bool.decide_eq_true]
  rfl

theorem draw_shows (hr : 1 ≤ w.ratio) (hw : d.width * w.ratio < 0x80000000)
    (hh : d.height * w.ratio < 0x80000000) :
    ∃ grid, w.draw d = (.ok (), { w with grid }) ∧ Shows { w with grid } d :=
  draw_shows_of_places hr fun _ _ => places_of_lit hr hw hh

theorem Shows.get {x y : Nat} (h : w.Shows d) (hr : 1 ≤ w.ratio) (hwide : w.width ≤ maxSide)
    (hhigh : w.height ≤ maxSide) (hx : x * w.ratio < w.width) (hy : y * w.ratio < w.height) :
    w.get x y = .ok (d.lit x y) := by
  unfold maxSide at hwide hhigh
  have hx0 : 0 ≤ x * w.ratio := Int.mul_nonneg (by omega) (by omega)
  have hy0 : 0 ≤ y * w.ratio := Int.mul_nonneg (by omega) (by omega)
  have hfits : Signed.Fits 32 (x * w.ratio) ∧ Signed.Fits 32 (y * w.ratio) :=
    ⟨fits_of_le hx0 (by omega), fits_of_le hy0 (by omega)⟩
  -- The corner of the square lies in the square.
  have hcol : (x * w.ratio).toNat / w.ratio.toNat = x := (covers_iff hr).mp (by omega)
  have hrow : (y * w.ratio).toNat / w.ratio.toNat = y := (covers_iff hr).mp (by omega)
  have hlit := h (x * w.ratio).toNat (y * w.ratio).toNat (by omega) (by omega)
  rw [hcol, hrow] at hlit
  simp only [Window.get]
  rw [if_neg (not_not_intro hfits), if_pos ⟨hx0, hx, hy0, hy⟩, hlit]

/-! ### Opening -/

theorem create_eq_blank {ratio columns rows : Int} (hw : 1 ≤ columns * ratio)
    (hwide : columns * ratio ≤ maxSide) (hh : 1 ≤ rows * ratio) (hhigh : rows * ratio ≤ maxSide) :
    create ratio columns rows =
      .ok (blank ratio (columns * ratio).toNat (rows * ratio).toNat) := by
  unfold maxSide at hwide hhigh
  have hwidth : units? (columns * ratio) = .ok (columns * ratio) :=
    units?_of_fits (fits_of_le (by omega) (by omega))
  have hheight : units? (rows * ratio) = .ok (rows * ratio) :=
    units?_of_fits (fits_of_le (by omega) (by omega))
  have hsize : ¬ (columns * ratio < 0 ∨ rows * ratio < 0 ∨
      columns * ratio > maxSide ∨ rows * ratio > maxSide) := by
    unfold maxSide
    omega
  have hzero : ¬ (columns * ratio = 0 ∧ rows * ratio = 0) := by omega
  have hmaxw : max 1 (columns * ratio).toNat = (columns * ratio).toNat := by omega
  have hmaxh : max 1 (rows * ratio).toNat = (rows * ratio).toNat := by omega
  simp only [create, hwidth, hheight, bind, Except.bind]
  rw [if_neg hsize, if_neg hzero, hmaxw, hmaxh]

end Window

end Chip8
