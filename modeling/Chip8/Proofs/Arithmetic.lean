import Chip8.Machine.Execute

/-! # Register arithmetic in whole numbers

An arithmetic instruction puts a result into `Vx`.  Some put a carry, a borrow or a shifted bit into
the flag register as well, and then the result has the last word: with `x = F` the bit is lost.
`Registers.Update` says this of the registers before and behind an instruction, and
`Machine.Computes` of the instruction, for any two registers, be they the same or the flag register
itself.

There are two ways of writing registers, with a bit and without one (`Registers.update_write`,
`Registers.update_setFlag_write`).  So the law of an instruction comes down to its result as a whole
number, which is a fact about bytes. -/

namespace Chip8

namespace Registers

variable {v : Registers} {x : Fin 16} {b : UInt8} {result : Int} {on bit : Bool}

/-- `Vx` receives `result` and the flag register the bit, if there is one and `Vx` is not the flag
register itself.  All other registers keep what they hold. -/
structure Update (v v' : Registers) (x : Fin 16) (result : Int) (bit : Option Bool) : Prop where
  target : ((v'.read x).toNat : Int) = result
  flag : x ≠ 0xF → ∀ on, bit = some on → (v'.read Registers.flag).toNat = on.toNat
  others : ∀ z : Fin 16, z ≠ x → (z = 0xF → bit = none) → v'.read z = v.read z

theorem update_write (hb : (b.toNat : Int) = result) : Update v (v.write x b) x result none where
  target := by rw [read_write, if_pos rfl, hb]
  flag := nofun
  others z hz _ := read_write_of_fin_ne hz

theorem toNat_bit (on : Bool) : (if on then 1 else 0 : UInt8).toNat = on.toNat := by
  cases on <;> rfl

theorem update_setFlag (v : Registers) (on : Bool) : Update v (v.setFlag on) 0xF on.toNat none :=
  update_write (x := 0xF) (congrArg Nat.cast (toNat_bit on))

theorem update_setFlag_write (hb : (b.toNat : Int) = result) (hbit : on = bit) :
    Update v ((v.setFlag on).write x b) x result (some bit) where
  target := by rw [read_write, if_pos rfl, hb]
  flag := by
    rintro hx _ ⟨⟩
    have hflag : ((v.setFlag on).write x b).read flag = (v.setFlag on).read flag :=
      read_write_of_fin_ne (z := 0xF) hx.symm
    rw [hflag, setFlag, read_write, if_pos rfl, ← hbit, toNat_bit]
  others := by
    intro z hz hflag
    have hne : z ≠ 0xF := fun he => nomatch hflag he
    exact (read_write_of_fin_ne hz).trans (read_write_of_fin_ne (x := 0xF) hne)

/-- A wrapped sum with its carry is the exact sum. -/
theorem Update.exact_sum {v' : Registers} {a c : Nat} (hx : x ≠ 0xF) (ha : a < 256) (hc : c < 256)
    (h : Update v v' x ((a + c) % 256) (some (a + c > 255))) :
    (v'.read x).toNat + 256 * (v'.read Registers.flag).toNat = a + c := by
  have htarget := h.target
  have hflag := h.flag hx _ rfl
  by_cases hcarry : a + c > 255
  · rw [decide_eq_true hcarry, Bool.toNat_true] at hflag
    omega
  · rw [decide_eq_false hcarry, Bool.toNat_false] at hflag
    omega

end Registers

/-! ### Bytes as whole numbers -/

theorem toNat_sub_emod (a b : UInt8) :
    ((a - b).toNat : Int) = ((a.toNat : Int) - b.toNat) % 256 := by
  have hb := b.toNat_lt
  rw [UInt8.toNat_sub]
  omega

theorem toNat_shiftRight_one (a : UInt8) : (a >>> 1).toNat = a.toNat / 2 := by
  rw [UInt8.toNat_shiftRight]
  exact Nat.shiftRight_eq_div_pow a.toNat 1

theorem toNat_shiftLeft_one (a : UInt8) : (a <<< 1).toNat = 2 * a.toNat % 256 := by
  rw [UInt8.toNat_shiftLeft, Nat.mul_comm]
  exact congrArg (· % 256) (Nat.shiftLeft_eq a.toNat 1)

theorem decide_gt_eq (a b : UInt8) : decide (a > b) = decide (a.toNat > b.toNat) :=
  decide_eq_decide.mpr UInt8.lt_iff_toNat_lt

namespace Machine

/-- The instruction is completed, updates the registers and moves on, and changes nothing else. -/
def Computes (m : Machine) (i : Instruction) (x : Fin 16) (result : Int) (bit : Option Bool) :
    Prop :=
  ∃ v, m.execute i = (.ok (), { m with v, pc := m.pc + 2 }) ∧ m.v.Update v x result bit

theorem toNat_shiftSource (m : Machine) (x y : Nat) :
    (m.shiftSource x y).toNat =
      if m.dialect.shiftInPlace then (m.v.read x).toNat else (m.v.read y).toNat := by
  unfold shiftSource
  split <;> rfl

/-- **Arithmetic in whole numbers**, for any registers `x` and `y`.  The operands `a` and `b` are
what the registers held before the instruction, so that neither the flag nor the result gets into
them, and `s` is what the dialect shifts.  The sum of two registers is exact if the flag is counted
in, and the sum in the index register leaves its flag even in `Vx`. -/
theorem arithmetic_in_whole_numbers (m : Machine) (x y : Fin 16) :
    let a := (m.v.read x).toNat
    let b := (m.v.read y).toNat
    let s := if m.dialect.shiftInPlace then a else b
    (m.Computes (.add x y) x ((a + b) % 256) (some (a + b > 255)) ∧
      m.Computes (.sub x y) x ((a - b : Int) % 256) (some (a > b)) ∧
      m.Computes (.subFrom x y) x ((b - a : Int) % 256) (some (b > a)) ∧
      m.Computes (.shiftRight x y) x (s / 2) (some (a % 2 = 1)) ∧
      m.Computes (.shiftLeft x y) x (2 * s % 256) (some (a % 2 = 1))) ∧
    ((∀ n : Nat, m.Computes (.addValue x n) x ((a + n) % 256) none) ∧
      m.Computes (.move x y) x b none ∧
      m.Computes (.bitOr x y) x (a ||| b : Nat) none ∧
      m.Computes (.bitAnd x y) x (a &&& b : Nat) none ∧
      m.Computes (.bitXor x y) x (a ^^^ b : Nat) none) ∧
    (∃ v, m.execute (.addIndex x) =
        (.ok (), { m with index := (m.index + a) % 65536, v, pc := m.pc + 2 }) ∧
      m.v.Update v 0xF (m.index + a > 0xFFF : Bool).toNat none) ∧
    (x ≠ 0xF → let m' := (m.execute (.add x y)).2
      (m'.v.read x).toNat + 256 * (m'.v.read Registers.flag).toNat = a + b) := by
  intro a b s
  have hadd : m.Computes (.add x y) x ((a + b) % 256) (some (a + b > 255)) :=
    ⟨_, rfl, Registers.update_setFlag_write (congrArg Nat.cast (UInt8.toNat_add _ _)) rfl⟩
  refine ⟨⟨hadd, ?sub, ?subFrom, ?right, ?left⟩, ⟨?value, ?move, ?or, ?and, ?xor⟩, ?index, ?exact⟩
  case sub =>
    exact ⟨_, rfl, Registers.update_setFlag_write (toNat_sub_emod _ _) (decide_gt_eq _ _)⟩
  case subFrom =>
    exact ⟨_, rfl, Registers.update_setFlag_write (toNat_sub_emod _ _) (decide_gt_eq _ _)⟩
  case right =>
    refine ⟨_, rfl, Registers.update_setFlag_write ?_ rfl⟩
    rw [toNat_shiftRight_one, toNat_shiftSource]
    rfl
  case left =>
    refine ⟨_, rfl, Registers.update_setFlag_write ?_ rfl⟩
    rw [toNat_shiftLeft_one, toNat_shiftSource]
    rfl
  case value =>
    intro n
    refine ⟨_, rfl, Registers.update_write ?_⟩
    rw [UInt8.toNat_add, UInt8.toNat_ofNat', Nat.add_mod_mod]
    rfl
  case move => exact ⟨_, rfl, Registers.update_write rfl⟩
  case or => exact ⟨_, rfl, Registers.update_write (congrArg Nat.cast (UInt8.toNat_or _ _))⟩
  case and => exact ⟨_, rfl, Registers.update_write (congrArg Nat.cast (UInt8.toNat_and _ _))⟩
  case xor => exact ⟨_, rfl, Registers.update_write (congrArg Nat.cast (UInt8.toNat_xor _ _))⟩
  case index => exact ⟨_, rfl, Registers.update_setFlag _ _⟩
  case exact =>
    intro hx m'
    obtain ⟨v, he, hupdate⟩ := hadd
    have hm' : m' = { m with v, pc := m.pc + 2 } := congrArg Prod.snd he
    rw [hm']
    exact hupdate.exact_sum hx (m.v.read x).toNat_lt (m.v.read y).toNat_lt

/-- With `x = F` the carry of `200 + 100` is lost. -/
example :
    let v := (Registers.zero.write 0xF 200).write 0 100
    let m : Machine := { new {} (.cycling #[]) with v }
    (m.execute (.add 0xF 0)).2.v.read 0xF = 44 := by
  decide +kernel

end Machine

end Chip8
