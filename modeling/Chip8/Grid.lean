/-! # Grids of pixels

A `Grid width height` is a picture of `height` rows of `width` pixels, each on or off.  Row zero
is the top row and column zero the leftmost column.  The view of a grid is `Grid.lit x y`, which
answers for every pair of natural numbers and is off outside the picture.  Each operation has one
lemma that says what it does to this view, and two grids with the same view are equal. -/

namespace Chip8

/-- A picture of on and off pixels. -/
structure Grid (width height : Nat) where
  /-- The rows from top to bottom, each from left to right. -/
  rows : Vector (Vector Bool width) height
deriving DecidableEq

namespace Grid

variable {w h : Nat}

/-- Whether the pixel in column `x` of row `y` is on. -/
def lit (g : Grid w h) (x y : Nat) : Bool :=
  if hy : y < h then (if hx : x < w then g.rows[y][x] else false) else false

/-- The grid whose pixels are all in the given state.  Without rows no row is built, however wide
the grid is. -/
def fill (w : Nat) : (h : Nat) → Bool → Grid w h
  | 0, _ => ⟨#v[]⟩
  | h + 1, on => ⟨Vector.replicate (h + 1) (Vector.replicate w on)⟩

/-- Switches one pixel.  A point outside the picture changes nothing. -/
def toggle (g : Grid w h) (x y : Nat) : Grid w h :=
  ⟨if hy : y < h then
      (if hx : x < w then g.rows.set y (g.rows[y].set x (!g.rows[y][x])) else g.rows)
    else g.rows⟩

/-- Applies a function to the entries from `start` on, `count` of them, as far as they exist. -/
def modifySpan {α : Type} {n : Nat} (f : α → α) (start : Nat) : Nat → Vector α n → Vector α n
  | 0, v => v
  | count + 1, v => modifySpan f start count ⟨v.toArray.modify (start + count) f, by simp⟩

/-- The first and the number of the columns, or rows, from `start` up to `start + size` that lie
among the first `n`. -/
def span (n : Nat) (start size : Int) : Nat × Nat :=
  (start.toNat, min n (start + size).toNat - start.toNat)

/-- Gives all pixels of a rectangle the same state, as far as it lies inside the picture.  Its top
left corner is `(x, y)`. -/
def paint (g : Grid w h) (x y width height : Int) (on : Bool) : Grid w h :=
  let (left, columns) := span w x width
  let (top, rows) := span h y height
  ⟨modifySpan (modifySpan (fun _ => on) left columns) top rows g.rows⟩

/-- The number of pixels that are on. -/
def litCount (g : Grid w h) : Nat :=
  (g.rows.toList.map fun row => row.count true).foldl (· + ·) 0

/-- A row of pixels as text, `#` for on and `.` for off. -/
def line (row : List Bool) : String := String.ofList (row.map fun on => if on then '#' else '.')

/-- The rows as text. -/
def lines (g : Grid w h) : List String := g.rows.toList.map fun row => line row.toList

@[ext] theorem ext {g g' : Grid w h} (eq : ∀ x y, x < w → y < h → g.lit x y = g'.lit x y) :
    g = g' := by
  obtain ⟨rows⟩ := g
  obtain ⟨rows'⟩ := g'
  congr 1
  apply Vector.ext
  intro y hy
  apply Vector.ext
  intro x hx
  have e := eq x y hx hy
  simpa [lit, hx, hy] using e

theorem lit_of_ge {g : Grid w h} {x y : Nat} (out : w ≤ x ∨ h ≤ y) : g.lit x y = false := by
  unfold lit
  split
  · split
    · omega
    · rfl
  · rfl

@[simp] theorem lit_fill (on : Bool) (x y : Nat) :
    (fill w h on).lit x y = (decide (x < w ∧ y < h) && on) := by
  cases h with
  | zero => simp [lit]
  | succ h =>
      unfold lit fill
      by_cases hy : y < h + 1 <;> by_cases hx : x < w <;> simp [hx, hy]

theorem lit_toggle (g : Grid w h) (x y i j : Nat) :
    (g.toggle x y).lit i j = (g.lit i j ^^ decide (i = x ∧ j = y ∧ x < w ∧ y < h)) := by
  unfold lit toggle
  by_cases hj : j < h
  · by_cases hi : i < w
    · by_cases inside : x < w ∧ y < h
      · obtain ⟨hx, hy⟩ := inside
        by_cases ej : j = y
        · subst ej
          by_cases ei : i = x
          · subst ei
            simp [hi, hj]
          · have ne : ¬ x = i := fun e => ei e.symm
            simp [hi, hj, hx, ei, ne]
        · have ne : ¬ y = j := fun e => ej e.symm
          simp [hi, hj, hx, hy, ej, ne]
      · have no : ¬ (i = x ∧ j = y ∧ x < w ∧ y < h) := fun e => inside e.2.2
        by_cases hy : y < h
        · have hx : ¬ x < w := fun hx => inside ⟨hx, hy⟩
          simp [hi, hj, hx, hy]
        · simp [hi, hj, hy]
    · have no : ¬ (i = x ∧ j = y ∧ x < w ∧ y < h) := by omega
      simp only [hj, hi, dite_true, dite_false, no, decide_false, Bool.xor_false]
  · have no : ¬ (i = x ∧ j = y ∧ x < w ∧ y < h) := by omega
    simp only [hj, dite_false, no, decide_false, Bool.xor_false]

theorem getElem_modifySpan {α : Type} {n : Nat} (f : α → α) (start count : Nat) (v : Vector α n)
    (i : Nat) (hi : i < n) :
    (modifySpan f start count v)[i] = if start ≤ i ∧ i < start + count then f v[i] else v[i] := by
  induction count generalizing v with
  | zero =>
      have no : ¬ (start ≤ i ∧ i < start + 0) := by omega
      rw [if_neg no, modifySpan]
  | succ count ih =>
      rw [modifySpan, ih]
      simp only [Vector.getElem_mk, Array.getElem_modify, Vector.getElem_toArray]
      by_cases last : start + count = i
      · have no : ¬ (start ≤ i ∧ i < start + count) := by omega
        have yes : start ≤ i ∧ i < start + (count + 1) := by omega
        rw [if_neg no, if_pos yes, if_pos last]
      · rw [if_neg last]
        by_cases inside : start ≤ i ∧ i < start + count
        · have yes : start ≤ i ∧ i < start + (count + 1) := by omega
          rw [if_pos inside, if_pos yes]
        · have no : ¬ (start ≤ i ∧ i < start + (count + 1)) := by omega
          rw [if_neg inside, if_neg no]

theorem mem_span {n : Nat} {start size : Int} {i : Nat} (hi : i < n) :
    ((span n start size).1 ≤ i ∧ i < (span n start size).1 + (span n start size).2) ↔
      start ≤ i ∧ i < start + size := by
  simp only [span]
  omega

theorem lit_paint (g : Grid w h) (x y width height : Int) (on : Bool) (i j : Nat) :
    (g.paint x y width height on).lit i j =
      if (x ≤ i ∧ i < x + width ∧ y ≤ j ∧ j < y + height) ∧ i < w ∧ j < h then on
      else g.lit i j := by
  unfold lit paint
  by_cases hj : j < h
  · by_cases hi : i < w
    · by_cases inside : y ≤ j ∧ j < y + height
      · simp [hi, hj, getElem_modifySpan, mem_span, inside]
      · have no : ¬ ((x ≤ i ∧ i < x + width ∧ y ≤ j ∧ j < y + height) ∧ i < w ∧ j < h) := by omega
        rw [if_neg no]
        simp [hi, hj, getElem_modifySpan, mem_span, inside]
    · simp [hi, hj]
  · simp [hj]

end Grid

end Chip8
