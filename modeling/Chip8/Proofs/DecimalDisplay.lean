import Chip8.Proofs.BlockTransfer
import Chip8.Proofs.DrawingOrder

/-! # Numbers shown in decimal

A program shows a byte by writing its three decimal digits into memory, loading them into `V0`,
`V1` and `V2`, and drawing for each of them the built-in glyph that the digit points at.

* The digits are bytes up to nine that make up the number (`decimalDigits_value`).
* The glyphs stand at the beginning of memory.  They are kept by whatever is written behind them
  (`Memory.HoldsFont.write`), and a digit selects five of their bytes
  (`Memory.HoldsFont.slice_glyph`).
* On a blank display with room for a sprite every set bit lights the pixel it falls on, and none
  goes off again (`Machine.execute_draw_of_blank`). -/

namespace Chip8

/-! ### Glyphs in memory -/

/-- The rows of the built-in glyph of a digit. -/
def Font.glyph (digit : Nat) : List UInt8 := (glyphs.drop (digit * glyphSize)).take glyphSize

/-- The built-in glyphs stand in memory where they are looked for. -/
def Memory.HoldsFont (memory : Memory) : Prop :=
  memory.slice Font.address Font.glyphs.length = Font.glyphs

theorem Machine.holdsFont_loadFont (m : Machine) : m.loadFont.2.memory.HoldsFont :=
  Memory.slice_write (by decide)

theorem Memory.HoldsFont.write {memory : Memory} (h : memory.HoldsFont) {address : Nat}
    (behind : 80 ≤ address) (data : List UInt8) : (memory.write address data).HoldsFont :=
  (Memory.slice_write_of_le behind).trans h

theorem Memory.HoldsFont.slice_glyph {memory : Memory} (h : memory.HoldsFont) {digit : Nat}
    (hdigit : digit < 16) :
    memory.slice (Font.address + digit * Font.glyphSize) Font.glyphSize = Font.glyph digit := by
  have hinside : digit * Font.glyphSize + Font.glyphSize ≤ Font.glyphs.length := by
    simp only [Font.glyphSize, Font.glyphs, List.length_cons, List.length_nil]
    omega
  rw [← Memory.take_drop_slice hinside, h]
  rfl

/-! ### Digits -/

/-- The three decimal digits of a byte, hundreds first. -/
def decimalDigits (b : UInt8) : List UInt8 := [b / 100, b / 10 % 10, b % 10]

@[simp] theorem length_decimalDigits (b : UInt8) : (decimalDigits b).length = 3 := rfl

theorem decimalDigits_le {b d : UInt8} (h : d ∈ decimalDigits b) : d.toNat ≤ 9 := by
  have hb := b.toNat_lt
  simp only [decimalDigits, List.mem_cons, List.not_mem_nil, or_false] at h
  rcases h with rfl | rfl | rfl
  all_goals
    simp only [UInt8.toNat_div, UInt8.toNat_mod, UInt8.reduceToNat]
    omega

theorem decimalDigits_value (b : UInt8) :
    100 * (b / 100).toNat + 10 * (b / 10 % 10).toNat + (b % 10).toNat = b.toNat := by
  simp only [UInt8.toNat_div, UInt8.toNat_mod, UInt8.reduceToNat]
  omega

theorem Registers.read_decimalDigits (v : Registers) (b : UInt8) {k : Nat} (hk : k < 16) :
    (v.writeFrom 0 (decimalDigits b)).read k = (decimalDigits b)[k]?.getD (v.read k) := by
  rw [Registers.read_writeFrom (by simp) hk]
  split
  · next h => rw [List.getElem?_eq_getElem h, Option.getD_some]
  · next h => rw [List.getElem?_eq_none (Nat.le_of_not_lt h), Option.getD_none]

/-! ### Sprites on a blank display -/

/-- The pixel `(c, r)` lies under a set bit of a sprite that is drawn to `(x, y)`, on a display of
`w` columns and `h` rows.  Every bit wraps around the edges on its own. -/
def Sprite.Marks (rows : List UInt8) (x y w h : Int) (c r : Nat) : Prop :=
  ∃ (row : Nat) (byte : UInt8) (column : Nat),
    rows[row]? = some byte ∧ column < 8 ∧ byte.toNat.testBit (7 - column) ∧
      (c : Int) = (x % w + column) % w ∧ (r : Int) = (y % h + row) % h

namespace Machine

variable {m : Machine}

/-- A pixel has a hit exactly if it lies under a set bit of the sprite. -/
theorem hits_pos_iff (x y n c r : Nat) :
    0 < m.hits x y n c r ↔
      Sprite.Marks (m.memory.slice m.index.toNat n) (m.v.read x).toNat (m.v.read y).toNat
        m.display.width m.display.height c r := by
  unfold hits Sprite.Marks
  simp only [List.countP_pos_iff, Bool.and_eq_true, decide_eq_true_eq]
  constructor
  · rintro ⟨⟨column, row⟩, hcell, hset, hc, hr⟩
    obtain ⟨hcolumn, hrow⟩ := Sprite.mem_cells.mp hcell
    refine ⟨row, _, column, ?_, hcolumn, hset, hc, hr⟩
    rw [List.getElem?_eq_getElem (by simpa using hrow), Memory.getElem_slice]
  · rintro ⟨row, byte, column, hbyte, hcolumn, hset, hc, hr⟩
    obtain ⟨hrow, rfl⟩ := List.getElem?_eq_some_iff.mp hbyte
    rw [Memory.getElem_slice] at hset
    rw [Memory.length_slice] at hrow
    exact ⟨(column, row), Sprite.mem_cells.mpr ⟨hcolumn, hrow⟩, hset, hc, hr⟩

/-- On a blank display with room for it, a sprite lights the pixels under its set bits and lowers
the flag. -/
theorem execute_draw_of_blank {x y n : Nat} (hn : Memory.Holds m.index n)
    (hw : 8 ≤ m.display.width) (hpos : 0 < m.display.height) (hh : n ≤ m.display.height)
    (hblank : ∀ c r, m.display.lit c r = false) :
    ∃ grid, m.execute (.draw x y n) = (.ok (), { m with
        display := { m.display with grid }
        v := m.v.setFlag false
        pc := m.pc + 2 }) ∧
      ∀ c r, grid.lit c r = true ↔
        Sprite.Marks (m.memory.slice m.index.toNat n) (m.v.read x).toNat (m.v.read y).toNat
          m.display.width m.display.height c r := by
  obtain ⟨grid, hit, he, hgrid, hhit⟩ :=
    execute_draw_of_pos (x := x) (y := y) hn (by omega) hpos
  have hone : ∀ c r, m.hits x y n c r ≤ 1 := hits_le_one hw hh x y
  have hnone : hit = false := by
    rw [← Bool.not_eq_true, hhit]
    rintro ⟨c, r, htwo⟩
    have hle := hone c r
    rw [hblank, Bool.toNat_false] at htwo
    omega
  subst hnone
  refine ⟨grid, he, fun c r => ?_⟩
  have hle := hone c r
  rw [hgrid, hblank, Bool.false_xor, decide_eq_true_iff, ← hits_pos_iff]
  omega

/-! ### From a byte to its glyphs -/

theorem execute_storeDecimal {x : Nat} (hblock : Memory.Holds m.index 3) :
    m.execute (.storeDecimal x) = (.ok (), { m with
      memory := m.memory.write m.index.toNat (decimalDigits (m.v.read x))
      pc := m.pc + 2 }) := by
  rw [execute, withBlock_of_holds hblock]
  rfl

theorem executeAll_decimal {x : Nat} (hblock : Memory.Holds m.index 3) :
    m.executeAll [.storeDecimal x, .loadRegisters 2] = (.ok (), { m with
      memory := m.memory.write m.index.toNat (decimalDigits (m.v.read x))
      v := m.v.writeFrom 0 (decimalDigits (m.v.read x))
      pc := m.pc + 2 + 2 }) := by
  have hfits : m.index.toNat + (decimalDigits (m.v.read x)).length ≤ 4096 := by
    obtain ⟨hlow, hhigh⟩ := hblock
    simp only [decimalDigits, List.length_cons, List.length_nil]
    omega
  have hdigits := Memory.slice_write (m := m.memory) hfits
  rw [executeAll_cons_of_ok (execute_storeDecimal hblock)]
  apply (executeAll_cons_of_ok (execute_loadRegisters ?_) []).trans
  · rw [length_decimalDigits] at hdigits
    simp only [hdigits]
    rfl
  · exact hblock

theorem execute_loadGlyph {x : Nat} (hdigit : (m.v.read x).toNat < 16) :
    m.execute (.loadGlyph x) = (.ok (), { m with
      index := (Font.address + (m.v.read x).toNat * Font.glyphSize : Nat)
      pc := m.pc + 2 }) := by
  have hsame : ((m.v.read x).toNat : Int) % 16 = (m.v.read x).toNat := by omega
  rw [execute, hsame]
  push_cast
  rfl

/-- The glyph instruction finds the rows of a digit by the register `Vj`.  Drawing them anywhere on
a blank display with room for them lights exactly the pixels under their set bits and clears the
flag. -/
def ShowsDigit (m : Machine) (j digit : Nat) : Prop :=
  ∃ index : Nat,
    m.execute (.loadGlyph j) = (.ok (), { m with index := index, pc := m.pc + 2 }) ∧
    m.memory.slice index 5 = Font.glyph digit ∧
    ∀ a b : Fin 16, 8 ≤ m.display.width → 5 ≤ m.display.height →
      (∀ c r, m.display.lit c r = false) →
      ∃ grid, { m with index := index, pc := m.pc + 2 }.execute (.draw a b 5) =
          (.ok (), { m with
            index := index
            display := { m.display with grid }
            v := m.v.setFlag false
            pc := m.pc + 2 + 2 }) ∧
        ∀ c r, grid.lit c r = true ↔
          Sprite.Marks (Font.glyph digit) (m.v.read a).toNat (m.v.read b).toNat
            m.display.width m.display.height c r

theorem showsDigit_of_holdsFont {j : Nat} (hfont : m.memory.HoldsFont)
    (hdigit : (m.v.read j).toNat ≤ 9) : m.ShowsDigit j (m.v.read j).toNat := by
  have hslice : m.memory.slice (Font.address + (m.v.read j).toNat * Font.glyphSize) Font.glyphSize =
      Font.glyph (m.v.read j).toNat := hfont.slice_glyph (by omega)
  refine ⟨_, execute_loadGlyph (by omega), hslice, fun a b hw hh hblank => ?_⟩
  have hblock : Memory.Holds (Font.address + (m.v.read j).toNat * Font.glyphSize : Nat) 5 := by
    unfold Memory.Holds Font.address Font.glyphSize
    omega
  obtain ⟨grid, he, hgrid⟩ := execute_draw_of_blank (x := a) (y := b)
    (m := { m with
      index := (Font.address + (m.v.read j).toNat * Font.glyphSize : Nat)
      pc := m.pc + 2 }) hblock hw (Int.lt_of_lt_of_le (by decide) hh) hh hblank
  refine ⟨grid, he, fun c r => (hgrid c r).trans ?_⟩
  rw [← hslice]
  rfl

/-- **A byte is shown in decimal.**  Let the glyphs stand in memory, and let the index register
point to three bytes behind them.  Storing the digits of `Vx` and loading three registers puts
digits up to nine into `V0`, `V1` and `V2` that make up the number; of memory only the three bytes
change, so the glyphs are kept.  From then on every machine with this memory shows the digit of one
of these registers, as long as the register keeps it. -/
theorem decimal_digits_drawn {x : Fin 16} (hfont : m.memory.HoldsFont) (hlow : 80 ≤ m.index)
    (hhigh : m.index ≤ 4093) :
    ∃ memory v, m.executeAll [.storeDecimal x, .loadRegisters 2] =
        (.ok (), { m with memory, v, pc := m.pc + 2 + 2 }) ∧
      ((v.read 0).toNat ≤ 9 ∧ (v.read 1).toNat ≤ 9 ∧ (v.read 2).toNat ≤ 9 ∧
        100 * (v.read 0).toNat + 10 * (v.read 1).toNat + (v.read 2).toNat = (m.v.read x).toNat) ∧
      (∀ k : Fin 16, 2 < k → v.read k = m.v.read k) ∧
      (∀ a : Nat, ¬ (m.index ≤ a ∧ a ≤ m.index + 2) → memory.read a = m.memory.read a) ∧
      memory.HoldsFont ∧
      ∀ (j : Fin 16) (n : Machine), j ≤ 2 → n.memory = memory → n.v.read j = v.read j →
        n.ShowsDigit j (v.read j).toNat := by
  have hblock : Memory.Holds m.index 3 := ⟨by omega, by omega⟩
  have hkept : (m.memory.write m.index.toNat (decimalDigits (m.v.read x))).HoldsFont :=
    hfont.write (by omega) _
  have hread := fun k (hk : k < 16) => Registers.read_decimalDigits m.v (m.v.read x) hk
  have hdigit : ∀ j : Fin 16, j ≤ 2 →
      ((m.v.writeFrom 0 (decimalDigits (m.v.read x))).read j).toNat ≤ 9 := by
    intro j hj
    have hlt : (j : Nat) < (decimalDigits (m.v.read x)).length := Nat.lt_succ_of_le hj
    rw [hread j j.isLt, List.getElem?_eq_getElem hlt, Option.getD_some]
    exact decimalDigits_le (List.getElem_mem hlt)
  refine ⟨_, _, executeAll_decimal hblock, ?digits, ?registers, ?bytes, hkept, ?glyphs⟩
  case digits =>
    refine ⟨hdigit 0 (by decide), hdigit 1 (by decide), hdigit 2 (by decide), ?_⟩
    rw [hread 0 (by decide), hread 1 (by decide), hread 2 (by decide)]
    exact decimalDigits_value (m.v.read x)
  case registers =>
    intro k hk
    rw [hread k k.isLt, List.getElem?_eq_none hk, Option.getD_none]
  case bytes =>
    intro a ha
    have hlength := length_decimalDigits (m.v.read x)
    rw [Memory.read_write, dif_neg (by omega)]
  case glyphs =>
    intro j n hj hmemory hregister
    rw [← hregister]
    apply showsDigit_of_holdsFont
    · rw [hmemory]
      exact hkept
    · rw [hregister]
      exact hdigit j hj

/-- The byte `254` at the end of memory.  Its middle digit is drawn to the point `(62, 30)`, around
the corner of a display of 64 columns and 32 rows. -/
theorem decimal_digits_drawn_around_corner :
    let v := Registers.zero.write 0xE 254
    let m : Machine := { (new {} (.cycling #[])).loadFont.2 with v, index := 4093 }
    (m.memory.HoldsFont ∧ 80 ≤ m.index ∧ m.index ≤ 4093) ∧
      ∃ digits, m.executeAll [.storeDecimal 0xE, .loadRegisters 2] = (.ok (), digits) ∧
        (digits.v.read 1).toNat = 5 ∧
        ∃ shown, digits.executeAll [.loadGlyph 1, .draw 0xE 0xE 5] = (.ok (), shown) ∧
          shown.display.lit 0 0 = true ∧ shown.display.lit 63 31 = false := by
  intro v m
  have hfont : m.memory.HoldsFont := holdsFont_loadFont (new {} (.cycling #[]))
  obtain ⟨memory, v', he, ⟨-, hone, htwo, hvalue⟩, hothers, -, -, hshows⟩ :=
    decimal_digits_drawn (m := m) (x := 0xE) hfont (by decide) (by decide)
  have hfive : (v'.read 1).toNat = 5 := by
    have hnumber : (m.v.read (0xE : Fin 16)).toNat = 254 := by decide +kernel
    omega
  have hplace : (v'.read (0xE : Fin 16)).toNat = 254 := by
    rw [hothers 0xE (by decide)]
    decide +kernel
  obtain ⟨index, hpoint, -, hdraw⟩ :=
    hshows 1 { m with memory, v := v', pc := m.pc + 2 + 2 } (by decide) rfl rfl
  have hwidth : 8 ≤ m.display.width := by decide
  have hheight : 5 ≤ m.display.height := by decide
  have hblank : ∀ c r, m.display.lit c r = false := fun c r =>
    (Grid.lit_fill false c r).trans (Bool.and_false _)
  obtain ⟨grid, hdrawn, hgrid⟩ := hdraw 0xE 0xE hwidth hheight hblank
  have hmarks : ∀ c r, grid.lit c r = true ↔ Sprite.Marks (Font.glyph 5) 254 254 64 32 c r := by
    intro c r
    apply (hgrid c r).trans
    dsimp only
    rw [hplace, show (v'.read (1 : Fin 16)).toNat = 5 from hfive]
    rfl
  refine ⟨⟨hfont, by decide, by decide⟩, _, he, hfive, _,
    (executeAll_cons_of_ok hpoint _).trans (executeAll_cons_of_ok hdrawn _), ?_, ?_⟩
  · exact (hmarks 0 0).mpr ⟨2, 0xF0, 2, rfl, by decide, by decide, by decide, by decide⟩
  · rw [← Bool.not_eq_true]
    intro hlit
    obtain ⟨row, byte, column, hbyte, hcolumn, hset, hc, hr⟩ := (hmarks 63 31).mp hlit
    have hrow : row < 5 := (List.getElem?_eq_some_iff.mp hbyte).1
    obtain rfl : row = 1 := by omega
    obtain rfl : column = 1 := by omega
    obtain rfl : 0x80 = byte := Option.some.inj hbyte
    exact absurd hset (by decide)

end Machine

end Chip8
