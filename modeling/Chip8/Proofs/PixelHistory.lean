import Chip8.Proofs.Parity

/-! # What a pixel shows behind a history of calls

A display is read, switched pixel by pixel, cleared and listed, in any order.  No call changes its
size (`exists_grid_callAll`), and a call that is refused changes nothing at all
(`call_eq_of_error`).  A pixel is changed by two calls only: a clear gives it a state, and each
switch of the pixel itself turns it over (`lit_call`).  So behind calls without a clear it shows the
parity of its switches (`lit_callAll`), and since every history can be cut behind its last clear
(`exists_lastClear`), this tells what it shows behind any history of a new display
(`LastClear.get_eq`).

The listed rows hold what the pixels answer with (`toLists_map_ok`), and the text shows the rows. -/

namespace Chip8.Display

/-- A call on a display. -/
inductive Call where
  | get (x y : Int)
  | flip (x y : Int)
  | clear (on : Bool)
  | rows
deriving DecidableEq, Repr

/-- What a call answers with. -/
inductive Answer where
  | pixel (on : Bool)
  | rows (states : List (List Bool))
  | done
deriving DecidableEq, Repr

variable {d : Display} {c : Call} {calls before after : List Call} {on : Bool} {f : Fault}

/-- Makes a call.  A call that is refused leaves the display as it is. -/
def call (d : Display) : Call → Except Fault Answer × Display
  | .get x y => ((d.get x y).map .pixel, d)
  | .flip x y =>
      match d.flip x y with
      | .ok d' => (.ok .done, d')
      | .error f => (.error f, d)
  | .clear on => (.ok .done, d.clear on)
  | .rows => (.ok (.rows d.toLists), d)

/-- The display behind a list of calls. -/
def callAll (d : Display) (calls : List Call) : Display := calls.foldl (fun d c => (d.call c).2) d

/-- The history is cut behind its last clear, which gave all pixels the state `on`.  If there is
none, the cut lies before the history, and the pixels are off. -/
structure LastClear (calls before after : List Call) (on : Bool) : Prop where
  cut : calls = before ++ after
  clear : (before = [] ∧ on = false) ∨ ∃ earlier, before = earlier ++ [.clear on]
  since : ∀ on', .clear on' ∉ after

/-! ### One call -/

theorem call_flip_of_contains {x y : Int} (h : d.Contains x y) :
    d.call (.flip x y) = (.ok .done, { d with grid := d.grid.toggle x.toNat y.toNat }) := by
  simp only [call, flip_of_contains h]

theorem call_flip_of_not_contains {x y : Int} (h : ¬ d.Contains x y) :
    d.call (.flip x y) = (.error (.pixelOutside x y d.width d.height), d) := by
  simp only [call, flip_eq_error_iff.mpr ⟨h, rfl⟩]

theorem exists_grid_call (d : Display) (c : Call) : ∃ grid, (d.call c).2 = { d with grid } := by
  cases c with
  | flip x y =>
      by_cases h : d.Contains x y
      · rw [call_flip_of_contains h]
        exact ⟨_, rfl⟩
      · rw [call_flip_of_not_contains h]
        exact ⟨d.grid, rfl⟩
  | get x y | clear on | rows => exact ⟨_, rfl⟩

theorem call_eq_of_error (he : (d.call c).1 = .error f) : (d.call c).2 = d := by
  cases c with
  | flip x y =>
      by_cases h : d.Contains x y
      · rw [call_flip_of_contains h] at he
        cases he
      · rw [call_flip_of_not_contains h]
  | get x y | rows => rfl
  | clear on => cases he

theorem lit_call {i j : Nat} (hin : d.Contains i j) (hc : ∀ on, c ≠ .clear on) :
    (d.call c).2.lit i j = (d.lit i j ^^ decide (c = .flip i j)) := by
  cases c with
  | flip x y =>
      by_cases h : d.Contains x y
      · rw [call_flip_of_contains h]
        simp only [lit_toggle_of_contains h, Call.flip.injEq, Prod.mk.injEq]
      · have hne : Call.flip x y ≠ .flip i j := by
          rintro ⟨⟩
          exact h hin
        rw [call_flip_of_not_contains h, decide_eq_false hne, Bool.xor_false]
  | clear on => exact absurd rfl (hc on)
  | get x y | rows => simp [call]

/-! ### A history of calls -/

theorem exists_grid_callAll (d : Display) (calls : List Call) :
    ∃ grid, d.callAll calls = { d with grid } := by
  refine List.foldlRecOn calls (fun (d : Display) c => (d.call c).2)
    (motive := fun d' : Display => ∃ grid, d' = { d with grid }) ⟨d.grid, rfl⟩ ?_
  rintro _ ⟨grid, rfl⟩ c _
  exact exists_grid_call { d with grid } c

@[simp] theorem width_callAll (d : Display) (calls : List Call) :
    (d.callAll calls).width = d.width := by
  obtain ⟨grid, hgrid⟩ := exists_grid_callAll d calls
  rw [hgrid]

@[simp] theorem height_callAll (d : Display) (calls : List Call) :
    (d.callAll calls).height = d.height := by
  obtain ⟨grid, hgrid⟩ := exists_grid_callAll d calls
  rw [hgrid]

theorem contains_callAll (d : Display) (calls : List Call) {x y : Int} :
    (d.callAll calls).Contains x y ↔ d.Contains x y := by
  simp only [Contains, width_callAll, height_callAll]

theorem callAll_append (d : Display) (calls later : List Call) :
    d.callAll (calls ++ later) = (d.callAll calls).callAll later :=
  List.foldl_append

/-- Behind calls without a clear a pixel has changed if it was switched an odd number of times. -/
theorem lit_callAll {i j : Nat} (hin : d.Contains i j) (hcalls : ∀ on, .clear on ∉ calls) :
    (d.callAll calls).lit i j = (d.lit i j ^^ decide (calls.count (.flip i j) % 2 = 1)) := by
  induction calls generalizing d with
  | nil => simp [callAll]
  | cons c calls ih =>
      have hc : ∀ on, c ≠ .clear on := by
        rintro on rfl
        exact hcalls on List.mem_cons_self
      have hrest : ∀ on, .clear on ∉ calls := fun on h => hcalls on (List.mem_cons_of_mem c h)
      have hin' : (d.call c).2.Contains i j := (contains_callAll d [c]).mpr hin
      show ((d.call c).2.callAll calls).lit i j = _
      rw [ih hin' hrest, lit_call hin hc, List.count_cons]
      by_cases he : c = .flip i j
      · simp [he, decide_succ_odd]
      · simp [he]

theorem exists_lastClear (calls : List Call) :
    ∃ before after on, LastClear calls before after on := by
  induction calls with
  | nil => exact ⟨[], [], false, rfl, Or.inl ⟨rfl, rfl⟩, nofun⟩
  | cons c calls ih =>
      obtain ⟨before, after, on, hcut, hclear, hsince⟩ := ih
      rcases hclear with ⟨rfl, rfl⟩ | ⟨earlier, rfl⟩
      · obtain rfl : calls = after := hcut
        -- The rest has no clear, so the first call decides.
        by_cases hc : ∃ on, c = .clear on
        · obtain ⟨on, rfl⟩ := hc
          exact ⟨[.clear on], calls, on, rfl, Or.inr ⟨[], rfl⟩, hsince⟩
        · refine ⟨[], c :: calls, false, rfl, Or.inl ⟨rfl, rfl⟩, fun on hon => ?_⟩
          rcases List.mem_cons.mp hon with rfl | hon
          · exact hc ⟨on, rfl⟩
          · exact hsince on hon
      · exact ⟨c :: (earlier ++ [.clear on]), after, on, congrArg (c :: ·) hcut,
          Or.inr ⟨c :: earlier, rfl⟩, hsince⟩

theorem LastClear.lit_before {width height : Int} (h : LastClear calls before after on) {i j : Nat}
    (hin : (blank width height).Contains i j) :
    ((blank width height).callAll before).lit i j = on := by
  rcases h.clear with ⟨rfl, rfl⟩ | ⟨earlier, rfl⟩
  · exact (Grid.lit_fill false i j).trans (Bool.and_false _)
  · obtain ⟨grid, hgrid⟩ := exists_grid_callAll (blank width height) earlier
    have hinside : i < width.toNat ∧ j < height.toNat := by
      obtain ⟨⟨-, hx⟩, -, hy⟩ := hin
      exact ⟨Int.lt_toNat.mpr hx, Int.lt_toNat.mpr hy⟩
    rw [callAll_append, hgrid]
    refine (Grid.lit_fill on i j).trans ?_
    show (decide (i < width.toNat ∧ j < height.toNat) && on) = on
    rw [decide_eq_true hinside, Bool.true_and]

/-- A pixel of a new display shows the parity of its switches over the state of the last clear. -/
theorem LastClear.get_eq {width height : Int} (h : LastClear calls before after on) {x y : Int}
    (hin : (blank width height).Contains x y) :
    ((blank width height).callAll calls).get x y =
      .ok (on ^^ decide (after.count (.flip x y) % 2 = 1)) := by
  obtain ⟨i, rfl⟩ := Int.eq_ofNat_of_zero_le hin.1.1
  obtain ⟨j, rfl⟩ := Int.eq_ofNat_of_zero_le hin.2.1
  have hin' : ((blank width height).callAll before).Contains i j := (contains_callAll _ _).mpr hin
  refine get_eq_ok_iff.mpr ⟨(contains_callAll _ _).mpr hin, ?_⟩
  show ((blank width height).callAll calls).lit i j = _
  rw [h.cut, callAll_append, lit_callAll hin' h.since, h.lit_before hin]

/-! ### Rows and text -/

theorem length_toLists (d : Display) : d.toLists.length = d.height.toNat := by
  simp [toLists]

theorem length_of_mem_toLists {row : List Bool} (h : row ∈ d.toLists) :
    row.length = d.width.toNat := by
  obtain ⟨r, -, rfl⟩ := List.mem_map.mp h
  exact Vector.length_toList

theorem toLists_map_ok (d : Display) :
    d.toLists.map (fun row => row.map (Except.ok (ε := Fault))) =
      (List.range d.height.toNat).map fun y : Nat =>
        (List.range d.width.toNat).map fun x : Nat => d.get x y := by
  refine List.ext_getElem (by simp [length_toLists]) fun y hy _ => ?_
  have hyh : y < d.height.toNat := by simpa [length_toLists] using hy
  simp only [toLists, List.getElem_map, List.getElem_range]
  refine List.ext_getElem (by simp) fun x hx _ => ?_
  have hxw : x < d.width.toNat := by simpa using hx
  have hin : d.Contains x y := ⟨⟨by omega, by omega⟩, by omega, by omega⟩
  rw [List.getElem_map, List.getElem_map, List.getElem_range]
  refine (get_eq_ok_iff.mpr ⟨hin, ?_⟩).symm
  simp [lit, Grid.lit, hxw, hyh]

theorem text_eq (d : Display) :
    d.text = "\n".intercalate
      (d.toLists.map fun row => String.ofList (row.map fun on => if on then '#' else '.')) := by
  unfold text Grid.lines toLists
  simp only [List.map_map]
  rfl

/-! ### The law of histories -/

theorem create_eq_ok_iff {width height : Int} :
    create width height = .ok d ↔
      d = blank width height ∧ (height ≤ 0 ∨ Signed.Fits 64 width ∧ width ≤ maxWidth) := by
  unfold create
  split
  · simp_all [eq_comm]
  · split
    · simp_all
    · split <;> simp_all [eq_comm]

theorem call_eq_error_iff :
    (d.call c).1 = .error f ↔
      ∃ x y, (c = .get x y ∨ c = .flip x y) ∧ ¬ d.Contains x y ∧
        f = .pixelOutside x y d.width d.height := by
  constructor
  · intro he
    cases c with
    | get x y =>
        cases hg : d.get x y with
        | error g =>
            rw [call, hg] at he
            cases he
            exact ⟨x, y, Or.inl rfl, get_eq_error_iff.mp hg⟩
        | ok on =>
            rw [call, hg] at he
            cases he
    | flip x y =>
        by_cases h : d.Contains x y
        · rw [call_flip_of_contains h] at he
          cases he
        · rw [call_flip_of_not_contains h] at he
          exact ⟨x, y, Or.inr rfl, h, (Except.error.inj he).symm⟩
    | clear on | rows => cases he
  · rintro ⟨x, y, rfl | rfl, h, rfl⟩
    · exact congrArg (Except.map Answer.pixel) (get_eq_error_iff.mpr ⟨h, rfl⟩)
    · rw [call_flip_of_not_contains h]

/-- What a display of the given size shows behind a history that began with all pixels off. -/
structure ShowsHistory (width height : Int) (calls : List Call) (d : Display) : Prop where
  size : (d.toLists.length : Int) = max 0 height ∧
    ∀ row ∈ d.toLists, (row.length : Int) = max 0 width
  refused : ∀ c f, (d.call c).1 = .error f ↔
    ∃ x y, (c = .get x y ∨ c = .flip x y) ∧ ¬ (0 ≤ x ∧ x < width ∧ 0 ≤ y ∧ y < height) ∧
      f = .pixelOutside x y width height
  unchanged : ∀ c f, (d.call c).1 = .error f → (d.call c).2 = d
  /-- A pixel has the state of the last clear, turned over by each switch since. -/
  pixel : ∀ before after on, LastClear calls before after on →
    ∀ x y, 0 ≤ x ∧ x < width ∧ 0 ≤ y ∧ y < height →
      d.get x y = .ok (on ^^ decide (after.count (.flip x y) % 2 = 1))
  rows : d.toLists.map (fun row => row.map (Except.ok (ε := Fault))) =
    (List.range height.toNat).map fun y : Nat =>
      (List.range width.toNat).map fun x : Nat => d.get x y
  text : d.text = "\n".intercalate
    (d.toLists.map fun row => String.ofList (row.map fun on => if on then '#' else '.'))

/-- **A new display shows its history.**  A display of any size whose rows can be stored begins with
all pixels off.  Whatever its size, and whatever was called on it, a pixel has the state of the last
clear, or off without one, turned over by every switch since; the calls outside the size are refused
and have no effect. -/
theorem new_display_shows_history (width height : Int) (calls : List Call) :
    (∀ d, create width height = .ok d ↔
        d = blank width height ∧ (height ≤ 0 ∨ Signed.Fits 64 width ∧ width ≤ maxWidth)) ∧
      (∃ before after on, LastClear calls before after on) ∧
      ShowsHistory width height calls ((blank width height).callAll calls) := by
  refine ⟨fun d => create_eq_ok_iff, exists_lastClear calls, ?_⟩
  have hcontains : ∀ x y, ((blank width height).callAll calls).Contains x y ↔
      0 ≤ x ∧ x < width ∧ 0 ≤ y ∧ y < height := fun x y => (contains_callAll _ _).trans and_assoc
  have hwidth : ((blank width height).callAll calls).width = width := width_callAll _ _
  have hheight : ((blank width height).callAll calls).height = height := height_callAll _ _
  refine ⟨⟨?_, fun row hrow => ?_⟩, fun c f => ?_, fun c f => call_eq_of_error,
    fun before after on h x y hin => h.get_eq (and_assoc.mpr hin), ?_, text_eq _⟩
  · rw [length_toLists, hheight, Int.ofNat_toNat, Int.max_comm]
  · rw [length_of_mem_toLists hrow, hwidth, Int.ofNat_toNat, Int.max_comm]
  · simp only [call_eq_error_iff, hcontains, hwidth, hheight]
  · rw [toLists_map_ok, hwidth, hheight]

-- A refused switch counts for nothing, and neither does a pair of switches.
example :
    ((blank 3 2).callAll
      [.flip 0 0, .clear true, .flip 1 1, .flip (-1) 0, .flip 2 0, .rows, .flip 2 0]).toLists =
      [[true, true, true], [true, false, true]] := by
  decide

end Chip8.Display
