import Chip8.Proofs.Rendering

/-! # A picture is the display to scale

A window is opened for a number of columns and rows, and from then on each display that is drawn on
it, smaller or larger than these, is shown to scale: the real pixel `(i, j)` is on exactly if the
pixel `(i / ratio, j / ratio)` lies on the display and is on.

The library behind the window takes a length or a coordinate as a number of 64 bits, of which it
keeps 32.  `Exact` says that it takes the lengths and corners of a picture as they are; it does if
they are not too large (`exact_of_lt`).  Then an opened window has the sides that were asked for
(`eq_blank_of_create`), the square of every pixel that is on falls where it belongs
(`Exact.places`), and the laws of drawing and reading apply. -/

namespace Chip8.Window

variable {ratio columns rows : Int} {w opened : Window} {d : Display}

/-- The library takes the sides of a window of `columns` by `rows` pixels, and the top left corner
of the square of every pixel that is on, as they are. -/
structure Exact (ratio columns rows : Int) (d : Display) : Prop where
  width : units? (columns * ratio) = .ok (columns * ratio)
  height : units? (rows * ratio) = .ok (rows * ratio)
  left : ∀ x y, d.lit x y = true → units? (x * ratio) = .ok (x * ratio)
  top : ∀ x y, d.lit x y = true → units? (y * ratio) = .ok (y * ratio)

/-! ### Numbers that are taken as they are -/

theorem fits_of_units? {n : Int} (h : units? n = .ok n) : Signed.Fits 32 n := by
  unfold units? at h
  split at h
  · have hwrap : Signed.wrap 32 n = n := Except.ok.inj h
    have hlow : -(0x80000000 : Int) ≤ Signed.wrap 32 n := Int.le_bmod (by decide)
    have hhigh : Signed.wrap 32 n < (0x80000000 : Int) := Int.bmod_lt (by decide)
    show -(0x100000000 : Int) ≤ 2 * n ∧ 2 * n < 0x100000000
    omega
  · cases h

/-- A window and a display of which no length reaches `2 ^ 31`. -/
theorem exact_of_lt (hratio : 1 ≤ ratio) (hcolumns : 0 ≤ columns) (hrows : 0 ≤ rows)
    (hwide : columns * ratio < 0x80000000) (hhigh : rows * ratio < 0x80000000)
    (hw : d.width * ratio < 0x80000000) (hh : d.height * ratio < 0x80000000) :
    Exact ratio columns rows d where
  width := units?_of_fits (fits_of_le (Int.mul_nonneg hcolumns (by omega)) hwide)
  height := units?_of_fits (fits_of_le (Int.mul_nonneg hrows (by omega)) hhigh)
  left x y h := units?_of_fits (places_of_lit (w := blank ratio 0 0) hratio hw hh h).left
  top x y h := units?_of_fits (places_of_lit (w := blank ratio 0 0) hratio hw hh h).top

/-! ### The opened window -/

theorem one_le_mul {n ratio : Int} (hn : 1 ≤ n) (hratio : 1 ≤ ratio) :
    1 ≤ n * ratio ∧ ratio ≤ n * ratio := by
  have hle : 1 * ratio ≤ n * ratio := Int.mul_le_mul_of_nonneg_right hn (by omega)
  omega

theorem eq_blank_of_create (hexact : Exact ratio columns rows d) (hcolumns : 1 ≤ columns * ratio)
    (hrows : 1 ≤ rows * ratio) (hopen : create ratio columns rows = .ok opened) :
    (columns * ratio ≤ maxSide ∧ rows * ratio ≤ maxSide) ∧
      opened = blank ratio (columns * ratio).toNat (rows * ratio).toNat := by
  by_cases hsize : columns * ratio ≤ maxSide ∧ rows * ratio ≤ maxSide
  · rw [create_eq_blank hcolumns hsize.1 hrows hsize.2] at hopen
    exact ⟨hsize, (Except.ok.inj hopen).symm⟩
  · have hlong : columns * ratio < 0 ∨ rows * ratio < 0 ∨ columns * ratio > maxSide ∨
        rows * ratio > maxSide := by omega
    simp only [create, hexact.width, hexact.height, bind, Except.bind, if_pos hlong] at hopen
    cases hopen

theorem Exact.places (hexact : Exact ratio columns rows d) (hratio : w.ratio = ratio)
    (hside : Signed.Fits 32 ratio) {x y : Nat} (h : d.lit x y = true) : w.Places (x, y) where
  left := by
    rw [hratio]
    exact fits_of_units? (hexact.left x y h)
  top := by
    rw [hratio]
    exact fits_of_units? (hexact.top x y h)
  side := by
    rw [hratio]
    exact hside

/-! ### Drawing and reading -/

theorem get_eq_ok_true_iff {x y : Nat} : d.get x y = .ok true ↔ d.lit x y = true := by
  rw [Display.get_eq_ok_iff]
  refine ⟨fun h => h.2, fun h => ⟨?_, h⟩⟩
  obtain ⟨hx, hy⟩ := Display.inside_of_lit h
  exact ⟨⟨Int.natCast_nonneg x, hx⟩, Int.natCast_nonneg y, hy⟩

theorem Shows.get_eq (h : w.Shows d) (hr : 1 ≤ w.ratio) (hwide : w.width ≤ maxSide)
    (hhigh : w.height ≤ maxSide) {x y : Int} (hx : 0 ≤ x) (hy : 0 ≤ y)
    (hxw : x * w.ratio < w.width) (hyh : y * w.ratio < w.height) :
    (∀ on, d.get x y = .ok on → w.get x y = .ok on) ∧
      (¬ d.Contains x y → w.get x y = .ok false) := by
  obtain ⟨i, rfl⟩ := Int.eq_ofNat_of_zero_le hx
  obtain ⟨j, rfl⟩ := Int.eq_ofNat_of_zero_le hy
  have hread : w.get i j = .ok (d.lit i j) := h.get hr hwide hhigh hxw hyh
  rw [hread]
  constructor
  · intro on hon
    obtain ⟨-, rfl⟩ := Display.get_eq_ok_iff.mp hon
    rfl
  · intro hout
    have hoff : d.lit i j ≠ true := fun hon =>
      hout (Display.get_eq_ok_iff.mp (get_eq_ok_true_iff.mpr hon)).1
    rw [Bool.eq_false_iff.mpr hoff]

theorem draw_eq_draw (w : Window) (before before' : Grid w.width w.height) (d : Display) :
    { w with grid := before }.draw d = { w with grid := before' }.draw d := rfl

/-- **A picture is the display to scale.**  A window is opened for at least one column and one row,
and the library takes the numbers of the picture as they are.  Whatever the window shows before, a
display of any size is drawn, and then a real pixel is on exactly if the pixel whose square covers
it lies on the display and is on.  So the pixels of the display are read back where the window has
them, those beside the display are off, and drawing again changes nothing. -/
theorem picture_is_display_to_scale (hratio : 1 ≤ ratio) (hcolumns : 1 ≤ columns) (hrows : 1 ≤ rows)
    (hopen : create ratio columns rows = .ok opened) (hexact : Exact ratio columns rows d)
    (before : Grid opened.width opened.height) :
    ((opened.width : Int) = columns * ratio ∧ (opened.height : Int) = rows * ratio) ∧
    ∃ grid, let drawn : Window := { opened with grid }
      { opened with grid := before }.draw d = (.ok (), drawn) ∧
      (∀ i j : Nat, i < columns * ratio → j < rows * ratio →
        (drawn.grid.lit i j = true ↔ d.get (i / ratio) (j / ratio) = .ok true)) ∧
      (∀ x y, 0 ≤ x → x < columns → 0 ≤ y → y < rows →
        (∀ on, d.get x y = .ok on → drawn.get x y = .ok on) ∧
        (¬ d.Contains x y → drawn.get x y = .ok false)) ∧
      drawn.draw d = (.ok (), drawn) := by
  obtain ⟨hwidth, hside⟩ := one_le_mul hcolumns hratio
  have hheight := (one_le_mul hrows hratio).1
  obtain ⟨⟨hwide, hhigh⟩, rfl⟩ := eq_blank_of_create hexact hwidth hheight hopen
  have hmax : maxSide < 0x80000000 := by decide
  have hfits : Signed.Fits 32 ratio := fits_of_le (by omega) (by omega)
  have hw : (((columns * ratio).toNat : Nat) : Int) = columns * ratio := by omega
  have hh : (((rows * ratio).toNat : Nat) : Int) = rows * ratio := by omega
  obtain ⟨grid, hdraw, hshows⟩ :=
    draw_shows_of_places (w := { blank ratio (columns * ratio).toNat (rows * ratio).toNat with
      grid := before }) hratio fun x y => hexact.places rfl hfits
  have hquotient : ∀ n : Nat, (n : Int) / ratio = ((n / ratio.toNat : Nat) : Int) := by
    intro n
    rw [Int.natCast_ediv, Int.toNat_of_nonneg (by omega)]
  refine ⟨⟨hw, hh⟩, grid, hdraw, fun i j hi hj => ?_, fun x y hx hxc hy hyr => ?_, ?_⟩
  · have hiw : i < (columns * ratio).toNat := by omega
    have hjh : j < (rows * ratio).toNat := by omega
    have hlit : grid.lit i j = d.lit (i / ratio.toNat) (j / ratio.toNat) := hshows i j hiw hjh
    rw [hquotient, hquotient, get_eq_ok_true_iff, ← hlit]
  · have hxw : x * ratio < columns * ratio := Int.mul_lt_mul_of_pos_right hxc (by omega)
    have hyh : y * ratio < rows * ratio := Int.mul_lt_mul_of_pos_right hyr (by omega)
    rw [← hw] at hwide hxw
    rw [← hh] at hhigh hyh
    exact hshows.get_eq hratio hwide hhigh hx hy hxw hyh
  · exact (draw_eq_draw _ grid before d).trans hdraw

/-- A display that is wider and lower than the window, over a window that is all on. -/
theorem picture_is_display_to_scale_over_lit_window :
    let d : Display := { Display.blank 5 1 with grid := (Display.blank 5 1).grid.toggle 1 0 }
    let opened := blank 3 6 6
    (create 3 2 2 = .ok opened ∧ Exact 3 2 2 d ∧ d.get 1 0 = .ok true ∧ ¬ d.Contains 1 1) ∧
      ∃ grid, let drawn : Window := { opened with grid }
        { opened with grid := Grid.fill 6 6 true }.draw d = (.ok (), drawn) ∧
        drawn.grid.lit 5 2 = true ∧ drawn.grid.lit 2 2 = false ∧
        drawn.get 1 0 = .ok true ∧ drawn.get 1 1 = .ok false := by
  intro d opened
  have hopen : create 3 2 2 = .ok opened := rfl
  have hexact : Exact 3 2 2 d := exact_of_lt (by decide) (by decide) (by decide) (by decide)
    (by decide) (by decide) (by decide)
  have hon : d.get 1 0 = .ok true := rfl
  have hoff : d.get 0 0 = .ok false := rfl
  have hout : ¬ d.Contains 1 1 := by decide
  obtain ⟨-, grid, hdraw, hlit, hread, -⟩ := picture_is_display_to_scale (by decide) (by decide)
    (by decide) hopen hexact (Grid.fill 6 6 true)
  have hright : grid.lit 5 2 = true := (hlit 5 2 (by decide) (by decide)).mpr hon
  have hleft : ¬ grid.lit 2 2 = true := fun h => by
    have hget := (hlit 2 2 (by decide) (by decide)).mp h
    rw [show ((2 : Nat) : Int) / 3 = 0 from rfl, hoff] at hget
    cases hget
  exact ⟨⟨hopen, hexact, hon, hout⟩, grid, hdraw, hright, Bool.eq_false_iff.mpr hleft,
    (hread 1 0 (by decide) (by decide) (by decide) (by decide)).1 true hon,
    (hread 1 1 (by decide) (by decide) (by decide) (by decide)).2 hout⟩

end Chip8.Window
