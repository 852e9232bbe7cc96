import Chip8.Machine.Execute

/-! # Drawing cannot leave the display

A sprite is placed by reducing every point to the size of the display.  On a display with columns
and rows all placed points lie on the display (`Sprite.placed_inside`), so every one of them can be
plotted (`Display.plot_of_contains`).  Whatever comes of plotting, the display keeps its size
(`Display.plot_cases`).

`Machine.drawSprite` then has three outcomes, one equation each: the sprite is not all in memory,
the display is empty, or the sprite is drawn. -/

namespace Chip8

theorem Sprite.placed_inside {rows : List UInt8} {x y w h : Int} (hw : 0 < w) (hh : 0 < h)
    {p : Int × Int} (hp : p ∈ Sprite.placed rows x y w h) :
    (0 ≤ p.1 ∧ p.1 < w) ∧ (0 ≤ p.2 ∧ p.2 < h) := by
  unfold Sprite.placed at hp
  obtain ⟨⟨i, j⟩, _, rfl⟩ := List.mem_map.mp hp
  exact ⟨⟨Int.fmod_nonneg_of_pos _ hw, Int.fmod_lt_of_pos _ hw⟩,
    ⟨Int.fmod_nonneg_of_pos _ hh, Int.fmod_lt_of_pos _ hh⟩⟩

namespace Display

theorem get_of_contains {d : Display} {x y : Int} (h : d.Contains x y) :
    d.get x y = .ok (d.grid.lit x.toNat y.toNat) := by
  rw [get, if_pos h]

theorem flip_of_contains {d : Display} {x y : Int} (h : d.Contains x y) :
    d.flip x y = .ok { d with grid := d.grid.toggle x.toNat y.toNat } := by
  rw [flip, if_pos h]

theorem plot_cons_of_contains {d : Display} {x y : Int} {points : List (Int × Int)}
    (h : d.Contains x y) :
    plot ((x, y) :: points) d =
      (plot points { d with grid := d.grid.toggle x.toNat y.toNat }).map
        fun r => (r.1, d.grid.lit x.toNat y.toNat || r.2) := by
  rw [plot, get_of_contains h, flip_of_contains h]
  simp only [bind, Except.bind, pure, Except.pure]
  cases plot points _ <;> rfl

theorem plot_cases (points : List (Int × Int)) (d : Display) :
    (∃ grid hit, plot points d = .ok ({ d with grid }, hit)) ∨
      ∃ p ∈ points, ¬ d.Contains p.1 p.2 ∧
        plot points d = .error (.pixelOutside p.1 p.2 d.width d.height) := by
  induction points generalizing d with
  | nil => exact Or.inl ⟨d.grid, false, rfl⟩
  | cons p points ih =>
      obtain ⟨x, y⟩ := p
      by_cases hp : d.Contains x y
      · rw [plot_cons_of_contains hp]
        rcases ih { d with grid := d.grid.toggle x.toNat y.toNat } with
          ⟨grid, hit, hr⟩ | ⟨q, hq, hout, hr⟩
        · refine Or.inl ⟨grid, d.grid.lit x.toNat y.toNat || hit, ?_⟩
          rw [hr]
          rfl
        · refine Or.inr ⟨q, List.mem_cons_of_mem _ hq, hout, ?_⟩
          rw [hr]
          rfl
      · refine Or.inr ⟨(x, y), List.mem_cons_self, hp, ?_⟩
        rw [plot, get, if_neg hp]
        rfl

theorem plot_of_contains {points : List (Int × Int)} {d : Display}
    (h : ∀ p ∈ points, d.Contains p.1 p.2) :
    ∃ grid hit, plot points d = .ok ({ d with grid }, hit) := by
  rcases plot_cases points d with hok | ⟨p, hp, hout, _⟩
  · exact hok
  · exact absurd (h p hp) hout

end Display

namespace Machine

variable {m : Machine}

theorem withBlock_of_holds {n : Nat} {action : Nat → Outcome Unit}
    (h : Memory.Holds m.index n) : m.withBlock n action = action m.index.toNat := by
  rw [withBlock, Memory.check, if_pos h]

theorem withBlock_of_not_holds {n : Nat} {action : Nat → Outcome Unit}
    (h : ¬ Memory.Holds m.index n) :
    m.withBlock n action = (.error (.memoryRange m.index n), m) := by
  rw [withBlock, Memory.check, if_neg h]

theorem drawSprite_of_empty {x y n : Nat} (hn : Memory.Holds m.index n)
    (h : m.display.width = 0 ∨ m.display.height = 0) :
    m.drawSprite x y n = (.error .emptyDisplay, m) := by
  rw [drawSprite, withBlock_of_holds hn]
  exact if_pos h

theorem drawSprite_of_pos {x y n : Nat} (hn : Memory.Holds m.index n)
    (hw : 0 < m.display.width) (hh : 0 < m.display.height) :
    ∃ m', m.drawSprite x y n = (.ok (), m') := by
  have hne : ¬ (m.display.width = 0 ∨ m.display.height = 0) := by omega
  obtain ⟨grid, hit, hp⟩ := Display.plot_of_contains (d := m.display)
    fun p hp => Sprite.placed_inside hw hh hp
  rw [drawSprite, withBlock_of_holds hn]
  dsimp only
  rw [if_neg hne, hp]
  exact ⟨_, rfl⟩

end Machine

end Chip8
