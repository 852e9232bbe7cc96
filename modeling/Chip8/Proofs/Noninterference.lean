import Chip8.Proofs.Footprint

/-! # What a tick reads

Two machines `AgreeOff C` if they can differ in parts of `C` alone; program counter, size of the
display and depth of the call stack are the same.  `Machine.reads m i` is the read footprint of an
instruction, a table, and `Machine.TickReads m` adds the two bytes that a tick fetches.

A tick that reads no part of `C` has the same answer on both machines, and leaves two machines that
agree off `C` again (`tick_noninterference`).  The proof goes through the instructions once
(`AgreeOff.execute`): an instruction computes what it writes from what it reads, where the machines
agree, and puts the same result into both. -/

namespace Chip8

/-- The registers that an instruction reads. -/
def Instruction.sources : Instruction → List Nat
  | .skipEqValue x _ | .skipNeValue x _ | .addValue x _ | .skipKeyDown x | .skipKeyUp x
  | .waitKey x | .setDelay x | .setSound x | .addIndex x | .loadGlyph x | .storeDecimal x => [x]
  | .move _ y => [y]
  | .skipEq x y | .skipNe x y | .bitOr x y | .bitAnd x y | .bitXor x y | .add x y | .sub x y
  | .subFrom x y | .shiftRight x y | .shiftLeft x y | .draw x y _ => [x, y]
  | .jumpOffset x _ => [x, 0]
  | .storeRegisters x => List.range (x + 1)
  | _ => []

namespace Machine

variable {m m' : Machine} {i : Instruction} {C : Part → Prop}

/-- Whether an instruction may read a part.  A rule of the dialect is read only where it matters: a
shift of equal registers and an offset jump by equal registers do the same under both rules. -/
def reads (m : Machine) : Instruction → Part → Bool
  | .draw _ _ n, .byte a => m.index ≤ a ∧ a < m.index + n
  | .loadRegisters x, .byte a => m.index ≤ a ∧ a < m.index + (x + 1)
  | i, .register z => ∃ x ∈ i.sources, x % 16 = z
  | .addIndex _, .index | .draw _ _ _, .index | .storeDecimal _, .index
  | .storeRegisters _, .index | .loadRegisters _, .index => true
  | .readDelay _, .delay => true
  | .ret, .saved k => k + 1 = m.stack.size
  | .draw _ _ _, .pixels => true
  | .skipKeyDown x, .key k | .skipKeyUp x, .key k | .waitKey x, .key k => m.keyOf x = k
  | .random _ _, .random => true
  | .shiftRight x y, .shiftRule | .shiftLeft x y, .shiftRule => m.v.read x ≠ m.v.read y
  | .jumpOffset x _, .offsetRule => m.v.read x ≠ m.v.read 0
  | _, _ => false

theorem reads_register {z : Fin 16} :
    m.reads i (.register z) = true ↔ ∃ x ∈ i.sources, x % 16 = z := by
  have htable : m.reads i (.register z) = decide (∃ x ∈ i.sources, x % 16 = z) := by
    cases i <;> rfl
  rw [htable, decide_eq_true_iff]

/-- The machines can differ only in parts of `C`. -/
structure AgreeOff (C : Part → Prop) (m m' : Machine) : Prop where
  pc : m'.pc = m.pc
  width : m'.display.width = m.display.width
  height : m'.display.height = m.display.height
  depth : m'.stack.size = m.stack.size
  same : ∀ p, ¬ C p → m.Same m' p

/-- The outcomes have the same answer, and their machines agree off `C`. -/
def Alike {α : Type} (C : Part → Prop) (o o' : Outcome α) : Prop :=
  o'.1 = o.1 ∧ AgreeOff C o.2 o'.2

namespace AgreeOff

/-- The parts make up the machine: those that differ in no part are equal. -/
theorem eq (h : AgreeOff (fun _ => False) m m') : m' = m := by
  have hsame : ∀ p, m.Same m' p := fun p => h.same p id
  have hmemory : m'.memory = m.memory := Memory.ext fun a => hsame (.byte a)
  have hv : m'.v = m.v := Registers.ext fun x hx => hsame (.register ⟨x, hx⟩)
  have hstack : m'.stack = m.stack := CallStack.ext fun k => hsame (.saved k)
  have hkeypad : m'.keypad = m.keypad := Keypad.ext fun k => hsame (.key k)
  have hdialect : m'.dialect = m.dialect :=
    (Dialect.mk.injEq ..).mpr ⟨hsame .shiftRule, hsame .offsetRule⟩
  exact (Machine.mk.injEq ..).mpr ⟨hdialect, hmemory, hv, hsame .index, h.pc, hsame .delay,
    hsame .sound, hstack, hsame .pixels, hkeypad, hsame .random⟩

/-! ### The same change to both machines -/

theorem setPc (h : AgreeOff C m m') (pc : Int) :
    AgreeOff C { m with pc } { m' with pc } :=
  { h with pc := rfl, same := h.same }

theorem advance (h : AgreeOff C m m') (n : Int) : AgreeOff C (m.advance n) (m'.advance n) := by
  unfold Machine.advance
  rw [h.pc]
  exact h.setPc _

/-- Each of the parts that hold one value may get a new one, which has to be the same in both
machines only outside of `C`. -/
theorem setValues (h : AgreeOff C m m') {index index' : Int} {delay delay' sound sound' : UInt8}
    {random random' : RandomSource} (hindex : ¬ C .index → index' = index)
    (hdelay : ¬ C .delay → delay' = delay) (hsound : ¬ C .sound → sound' = sound)
    (hrandom : ¬ C .random → random' = random) :
    AgreeOff C { m with index, delay, sound, random }
      { m' with index := index', delay := delay', sound := sound', random := random' } := by
  refine { h with same := fun p hp => ?_ }
  cases p with
  | index => exact hindex hp
  | delay => exact hdelay hp
  | sound => exact hsound hp
  | random => exact hrandom hp
  | _ => exact h.same _ hp

theorem setIndex (h : AgreeOff C m m') (index : Int) :
    AgreeOff C { m with index } { m' with index } :=
  h.setValues (fun _ => rfl) (h.same .delay) (h.same .sound) (h.same .random)

theorem setDelay (h : AgreeOff C m m') (delay : UInt8) :
    AgreeOff C { m with delay } { m' with delay } :=
  h.setValues (h.same .index) (fun _ => rfl) (h.same .sound) (h.same .random)

theorem setSound (h : AgreeOff C m m') (sound : UInt8) :
    AgreeOff C { m with sound } { m' with sound } :=
  h.setValues (h.same .index) (h.same .delay) (fun _ => rfl) (h.same .random)

theorem setRandom (h : AgreeOff C m m') (random : RandomSource) :
    AgreeOff C { m with random } { m' with random } :=
  h.setValues (h.same .index) (h.same .delay) (h.same .sound) fun _ => rfl

theorem setDisplay (h : AgreeOff C m m') (display : Display) :
    AgreeOff C { m with display } { m' with display } := by
  refine { h with width := rfl, height := rfl, same := fun p hp => ?_ }
  cases p with
  | pixels => rfl
  | _ => exact h.same _ hp

theorem setStack (h : AgreeOff C m m') {stack stack' : CallStack stackCapacity}
    (hdepth : stack'.size = stack.size)
    (hsaved : ∀ k, ¬ C (.saved k) → stack'.toList[k]? = stack.toList[k]?) :
    AgreeOff C { m with stack } { m' with stack := stack' } := by
  refine { h with depth := hdepth, same := fun p hp => ?_ }
  cases p with
  | saved k => exact hsaved k hp
  | _ => exact h.same _ hp

theorem setMemory (h : AgreeOff C m m') (start : Nat) (data : List UInt8) :
    AgreeOff C { m with memory := m.memory.write start data }
      { m' with memory := m'.memory.write start data } := by
  refine { h with same := fun p hp => ?_ }
  cases p with
  | byte a =>
      simp only [Same, Memory.read_write]
      split
      · rfl
      · exact h.same (.byte a) hp
  | _ => exact h.same _ hp

theorem setRegisters (h : AgreeOff C m m') {v v' : Registers}
    (hv : ∀ z : Fin 16, ¬ C (.register z) → v'.read z = v.read z) :
    AgreeOff C { m with v } { m' with v := v' } := by
  refine { h with same := fun p hp => ?_ }
  cases p with
  | register z => exact hv z hp
  | _ => exact h.same _ hp

theorem writeRegister (h : AgreeOff C m m') (x : Nat) (b : UInt8) :
    AgreeOff C { m with v := m.v.write x b } { m' with v := m'.v.write x b } := by
  refine h.setRegisters fun z hz => ?_
  rw [Registers.read_write, Registers.read_write, h.same (.register z) hz]

theorem setFlag (h : AgreeOff C m m') (on : Bool) :
    AgreeOff C { m with v := m.v.setFlag on } { m' with v := m'.v.setFlag on } :=
  h.writeRegister Registers.flag _

theorem writeRegisters (h : AgreeOff C m m') (x : Nat) (bytes : List UInt8) :
    AgreeOff C { m with v := m.v.writeFrom x bytes } { m' with v := m'.v.writeFrom x bytes } := by
  induction bytes generalizing m m' x with
  | nil => exact h
  | cons b bytes ih => exact ih (h.writeRegister x b) (x + 1)

theorem setRegister (h : AgreeOff C m m') (x : Nat) (b : UInt8) :
    AgreeOff C (m.setRegister x b) (m'.setRegister x b) :=
  (h.writeRegister x b).advance 2

theorem setResult (h : AgreeOff C m m') (x : Nat) (flag : Bool) (b : UInt8) :
    AgreeOff C (m.setResult x flag b) (m'.setResult x flag b) :=
  ((h.setFlag flag).writeRegister x b).advance 2

/-! ### What an instruction reads is the same -/

theorem register (h : AgreeOff C m m') (hread : ∀ p, C p → ¬ m.reads i p) {x : Nat}
    (hx : x ∈ i.sources) : m'.v.read x = m.v.read x := by
  have hz : x % 16 < 16 := Nat.mod_lt x (by decide)
  have hfree : ¬ C (.register ⟨x % 16, hz⟩) := by
    intro hC
    exact hread _ hC (reads_register.mpr ⟨x, hx, rfl⟩)
  have hsame : m'.v.read (x % 16) = m.v.read (x % 16) := h.same _ hfree
  rwa [Registers.read_mod, Registers.read_mod] at hsame

theorem slice (h : AgreeOff C m m') {n : Nat} (hlow : 0 ≤ m.index)
    (hfree : ∀ a : Nat, m.index ≤ a → a < m.index + n → ¬ C (.byte a)) :
    m'.memory.slice m.index.toNat n = m.memory.slice m.index.toNat n := by
  refine List.map_congr_left fun k hk => ?_
  have hkn : k < n := List.mem_range.mp hk
  exact h.same (.byte _) (hfree _ (by omega) (by omega))

theorem isDown (h : AgreeOff C m m') {x : Nat} (hx : m'.v.read x = m.v.read x)
    (hfree : ¬ C (.key (m.keyOf x))) :
    m'.keypad.isDown (m'.keyOf x) = m.keypad.isDown (m.keyOf x) := by
  have hkey : m'.keyOf x = m.keyOf x := by simp only [keyOf, hx]
  rw [hkey]
  exact h.same (.key _) hfree

theorem shiftSource (h : AgreeOff C m m') {x y : Nat} (hx : m'.v.read x = m.v.read x)
    (hy : m'.v.read y = m.v.read y) (hrule : C .shiftRule → m.v.read x = m.v.read y) :
    m'.shiftSource x y = m.shiftSource x y := by
  unfold Machine.shiftSource
  rw [hx, hy]
  by_cases hC : C .shiftRule
  · rw [hrule hC, ite_self, ite_self]
  · rw [show m'.dialect.shiftInPlace = m.dialect.shiftInPlace from h.same _ hC]

theorem offsetBase (h : AgreeOff C m m') {x : Nat} (hx : m'.v.read x = m.v.read x)
    (h0 : m'.v.read 0 = m.v.read 0) (hrule : C .offsetRule → m.v.read x = m.v.read 0) :
    m'.v.read (if m'.dialect.offsetFromVx then x else 0) =
      m.v.read (if m.dialect.offsetFromVx then x else 0) := by
  rw [apply_ite m'.v.read, apply_ite m.v.read, hx, h0]
  by_cases hC : C .offsetRule
  · rw [hrule hC, ite_self, ite_self]
  · rw [show m'.dialect.offsetFromVx = m.dialect.offsetFromVx from h.same _ hC]

theorem pop (h : AgreeOff C m m') (htop : ∀ k, k + 1 = m.stack.size → ¬ C (.saved k)) :
    (∃ f, m.stack.pop = .error f ∧ m'.stack.pop = .error f) ∨
      ∃ a s s', m.stack.pop = .ok (a, s) ∧ m'.stack.pop = .ok (a, s') ∧ s'.size = s.size ∧
        ∀ k, ¬ C (.saved k) → s'.toList[k]? = s.toList[k]? := by
  have hdepth : m'.stack.entries.length = m.stack.entries.length := h.depth
  have hsaved : ∀ k, ¬ C (.saved k) → m'.stack.toList[k]? = m.stack.toList[k]? :=
    fun k hk => h.same (.saved k) hk
  unfold CallStack.size at htop
  unfold CallStack.pop CallStack.size
  cases hs : m.stack.entries with
  | nil =>
      rw [hs, List.length_nil, List.length_eq_zero_iff] at hdepth
      rw [hdepth]
      exact Or.inl ⟨_, rfl, rfl⟩
  | cons a rest =>
      rw [hs] at hdepth htop
      obtain ⟨a', rest', hs'⟩ := List.exists_cons_of_length_eq_add_one hdepth
      have hlength : rest'.length = rest.length := by simpa [hs'] using hdepth
      have hentry : ∀ k, ¬ C (.saved k) →
          (if k = rest.length then some a' else rest'.reverse[k]?) =
            if k = rest.length then some a else rest.reverse[k]? := by
        intro k hk
        have hk' := hsaved k hk
        rwa [CallStack.getElem?_toList hs, CallStack.getElem?_toList hs', hlength] at hk'
      have ha : a' = a := by simpa using hentry rest.length (htop _ rfl)
      rw [hs', ha]
      refine Or.inr ⟨a, ⟨rest⟩, ⟨rest'⟩, rfl, rfl, hlength, fun k hk => ?_⟩
      by_cases hlast : k = rest.length
      · simp [CallStack.toList, hlength, hlast]
      · have hk' := hentry k hk
        rwa [if_neg hlast, if_neg hlast] at hk'

theorem push (h : AgreeOff C m m') (a : Int) :
    (∃ f, m.stack.push a = .error f ∧ m'.stack.push a = .error f) ∨
      ∃ s s', m.stack.push a = .ok s ∧ m'.stack.push a = .ok s' ∧ s'.size = s.size ∧
        ∀ k, ¬ C (.saved k) → s'.toList[k]? = s.toList[k]? := by
  have hdepth : m'.stack.entries.length = m.stack.entries.length := h.depth
  unfold CallStack.push
  rw [h.depth]
  by_cases hfits : 0 ≤ a ∧ a ≤ 0xFFFF
  · rw [if_pos hfits, if_pos hfits]
    by_cases hfull : (m.stack.size : Int) ≥ stackCapacity
    · rw [if_pos hfull, if_pos hfull]
      exact Or.inl ⟨_, rfl, rfl⟩
    · rw [if_neg hfull, if_neg hfull]
      refine Or.inr ⟨_, _, rfl, rfl, congrArg (· + 1) hdepth, fun k hk => ?_⟩
      have hk' : m'.stack.entries.reverse[k]? = m.stack.entries.reverse[k]? := h.same (.saved k) hk
      rw [CallStack.getElem?_toList rfl, CallStack.getElem?_toList rfl, hk', hdepth]
  · rw [if_neg hfits, if_neg hfits]
    exact Or.inl ⟨_, rfl, rfl⟩

/-! ### One instruction -/

theorem withBlock (h : AgreeOff C m m') {n : Nat} {action action' : Nat → Outcome Unit}
    (hindex : m'.index = m.index)
    (haction : Memory.Holds m.index n →
      Alike C (action m.index.toNat) (action' m.index.toNat)) :
    Alike C (m.withBlock n action) (m'.withBlock n action') := by
  by_cases hn : Memory.Holds m.index n
  · have hn' : Memory.Holds m'.index n := by rwa [hindex]
    rw [withBlock_of_holds hn, withBlock_of_holds hn', hindex]
    exact haction hn
  · have hn' : ¬ Memory.Holds m'.index n := by rwa [hindex]
    rw [withBlock_of_not_holds hn, withBlock_of_not_holds hn', hindex]
    exact ⟨rfl, h⟩

theorem drawSprite (h : AgreeOff C m m') {x y n : Nat} (hindex : m'.index = m.index)
    (hdisplay : m'.display = m.display) (hx : m'.v.read x = m.v.read x)
    (hy : m'.v.read y = m.v.read y)
    (hfree : ∀ a : Nat, m.index ≤ a → a < m.index + n → ¬ C (.byte a)) :
    Alike C (m.drawSprite x y n) (m'.drawSprite x y n) := by
  refine h.withBlock hindex fun hn => ?_
  rw [hdisplay, hx, hy, h.slice hn.1 hfree]
  dsimp only
  split
  · exact ⟨rfl, h⟩
  · split
    · exact ⟨rfl, (((h.setFlag false).setFlag _).setDisplay _).advance 2⟩
    · exact ⟨rfl, (h.setFlag false).setDisplay _⟩

/-- An instruction that reads no part of `C` does the same on machines that agree off `C`. -/
theorem execute (h : AgreeOff C m m') (hread : ∀ p, C p → ¬ m.reads i p) :
    Alike C (m.execute i) (m'.execute i) := by
  have hregister : ∀ x ∈ i.sources, m'.v.read x = m.v.read x := fun x hx => h.register hread hx
  cases i with
  | clearDisplay =>
      have hclear : m'.display.clear false = m.display.clear false :=
        Display.clear_eq_clear h.width h.height false
      simp only [Machine.execute, hclear]
      exact ⟨rfl, (h.setDisplay _).advance 2⟩
  | ret =>
      have htop : ∀ k, k + 1 = m.stack.size → ¬ C (.saved k) :=
        fun k hk hC => hread _ hC (decide_eq_true hk)
      simp only [Machine.execute]
      rcases h.pop htop with ⟨f, hs, hs'⟩ | ⟨a, s, s', hs, hs', hdepth, hsaved⟩
      · rw [hs, hs']
        exact ⟨rfl, h⟩
      · rw [hs, hs']
        exact ⟨rfl, (h.setStack hdepth hsaved).setPc a⟩
  | jump a => exact ⟨rfl, h.setPc a⟩
  | call a =>
      simp only [Machine.execute, h.pc]
      rcases h.push (m.pc + 2) with ⟨f, hs, hs'⟩ | ⟨s, s', hs, hs', hdepth, hsaved⟩
      · rw [hs, hs']
        exact ⟨rfl, h⟩
      · rw [hs, hs']
        exact ⟨rfl, (h.setStack hdepth hsaved).setPc a⟩
  | skipEqValue x n | skipNeValue x n =>
      simp only [Machine.execute, hregister x List.mem_cons_self]
      exact ⟨rfl, h.advance _⟩
  | skipEq x y | skipNe x y =>
      have hy : m'.v.read y = m.v.read y :=
        hregister y (List.mem_cons_of_mem _ List.mem_cons_self)
      simp only [Machine.execute, hregister x List.mem_cons_self, hy]
      exact ⟨rfl, h.advance _⟩
  | skipKeyDown x | skipKeyUp x | waitKey x =>
      have hkey : m'.keypad.isDown (m'.keyOf x) = m.keypad.isDown (m.keyOf x) :=
        h.isDown (hregister x List.mem_cons_self) fun hC => hread _ hC (decide_eq_true rfl)
      simp only [Machine.execute, hkey]
      exact ⟨rfl, h.advance _⟩
  | loadValue x n => exact ⟨rfl, h.setRegister x _⟩
  | addValue x n =>
      simp only [Machine.execute, hregister x List.mem_cons_self]
      exact ⟨rfl, h.setRegister x _⟩
  | move x y =>
      simp only [Machine.execute, hregister y List.mem_cons_self]
      exact ⟨rfl, h.setRegister x _⟩
  | bitOr x y | bitAnd x y | bitXor x y =>
      have hy : m'.v.read y = m.v.read y :=
        hregister y (List.mem_cons_of_mem _ List.mem_cons_self)
      simp only [Machine.execute, hregister x List.mem_cons_self, hy]
      exact ⟨rfl, h.setRegister x _⟩
  | add x y | sub x y | subFrom x y =>
      have hy : m'.v.read y = m.v.read y :=
        hregister y (List.mem_cons_of_mem _ List.mem_cons_self)
      simp only [Machine.execute, hregister x List.mem_cons_self, hy]
      exact ⟨rfl, h.setResult x _ _⟩
  | shiftRight x y | shiftLeft x y =>
      have hx : m'.v.read x = m.v.read x := hregister x List.mem_cons_self
      have hy : m'.v.read y = m.v.read y :=
        hregister y (List.mem_cons_of_mem _ List.mem_cons_self)
      have hrule : C .shiftRule → m.v.read x = m.v.read y :=
        fun hC => Decidable.not_not.mp fun hne => hread _ hC (decide_eq_true hne)
      simp only [Machine.execute, hx, h.shiftSource hx hy hrule]
      exact ⟨rfl, h.setResult x _ _⟩
  | loadIndex a => exact ⟨rfl, (h.setIndex a).advance 2⟩
  | jumpOffset x a =>
      have hbase : m'.v.read (if m'.dialect.offsetFromVx then x else 0) =
          m.v.read (if m.dialect.offsetFromVx then x else 0) :=
        h.offsetBase (hregister x List.mem_cons_self)
          (hregister 0 (List.mem_cons_of_mem _ List.mem_cons_self))
          fun hC => Decidable.not_not.mp fun hne => hread _ hC (decide_eq_true hne)
      simp only [Machine.execute, hbase]
      exact ⟨rfl, h.setPc _⟩
  | random x n =>
      have hrandom : m'.random = m.random := h.same .random fun hC => hread _ hC rfl
      simp only [Machine.execute, hrandom]
      exact ⟨rfl, (h.setRandom _).setRegister x _⟩
  | draw x y n =>
      have hindex : m'.index = m.index := h.same .index fun hC => hread _ hC rfl
      have hdisplay : m'.display = m.display := h.same .pixels fun hC => hread _ hC rfl
      have hy : m'.v.read y = m.v.read y :=
        hregister y (List.mem_cons_of_mem _ List.mem_cons_self)
      exact h.drawSprite hindex hdisplay (hregister x List.mem_cons_self) hy
        fun a hlow hhigh hC => hread _ hC (decide_eq_true ⟨hlow, hhigh⟩)
  | readDelay x =>
      have hdelay : m'.delay = m.delay := h.same .delay fun hC => hread _ hC rfl
      simp only [Machine.execute, hdelay]
      exact ⟨rfl, h.setRegister x _⟩
  | setDelay x =>
      simp only [Machine.execute, hregister x List.mem_cons_self]
      exact ⟨rfl, (h.setDelay _).advance 2⟩
  | setSound x =>
      simp only [Machine.execute, hregister x List.mem_cons_self]
      exact ⟨rfl, (h.setSound _).advance 2⟩
  | addIndex x =>
      have hindex : m'.index = m.index := h.same .index fun hC => hread _ hC rfl
      simp only [Machine.execute, hregister x List.mem_cons_self, hindex]
      exact ⟨rfl, ((h.setFlag _).setIndex _).advance 2⟩
  | loadGlyph x =>
      simp only [Machine.execute, hregister x List.mem_cons_self]
      exact ⟨rfl, (h.setIndex _).advance 2⟩
  | storeDecimal x =>
      have hindex : m'.index = m.index := h.same .index fun hC => hread _ hC rfl
      simp only [Machine.execute, hregister x List.mem_cons_self]
      exact h.withBlock hindex fun _ => ⟨rfl, (h.setMemory _ _).advance 2⟩
  | storeRegisters x =>
      have hindex : m'.index = m.index := h.same .index fun hC => hread _ hC rfl
      have hfirsts : m'.v.firsts (x + 1) = m.v.firsts (x + 1) := List.map_congr_left hregister
      simp only [Machine.execute, hfirsts]
      exact h.withBlock hindex fun _ => ⟨rfl, (h.setMemory _ _).advance 2⟩
  | loadRegisters x =>
      have hindex : m'.index = m.index := h.same .index fun hC => hread _ hC rfl
      refine h.withBlock hindex fun hn => ?_
      have hfree : ∀ a : Nat, m.index ≤ a → a < m.index + (x + 1 : Nat) → ¬ C (.byte a) :=
        fun a hlow hhigh hC => hread _ hC (decide_eq_true ⟨hlow, hhigh⟩)
      rw [h.slice hn.1 hfree]
      exact ⟨rfl, (h.writeRegisters 0 _).advance 2⟩

end AgreeOff

/-! ### A tick -/

/-- The parts that the next tick may read: the two bytes it fetches, and what the fetched
instruction reads. -/
def TickReads (m : Machine) (p : Part) : Prop :=
  (∃ a : Nat, p = .byte a ∧ m.pc ≤ a ∧ a < m.pc + 2) ∨ ∃ i, m.fetch = .ok i ∧ m.reads i p

theorem AgreeOff.fetch (h : AgreeOff C m m')
    (hfree : ∀ a : Nat, m.pc ≤ a → a < m.pc + 2 → ¬ C (.byte a)) : m'.fetch = m.fetch := by
  unfold Machine.fetch Memory.check
  rw [h.pc]
  by_cases hpc : Memory.Holds m.pc 2
  · obtain ⟨hlow, _⟩ := hpc
    have hhi : m'.memory.read m.pc.toNat = m.memory.read m.pc.toNat :=
      h.same (.byte _) (hfree _ (by omega) (by omega))
    have hlo : m'.memory.read (m.pc.toNat + 1) = m.memory.read (m.pc.toNat + 1) :=
      h.same (.byte _) (hfree _ (by omega) (by omega))
    unfold Memory.word
    rw [hhi, hlo]
  · rw [if_neg hpc]
    simp only [bind, Except.bind]

/-- **A tick depends on nothing but what it reads.**  If two machines can differ only in parts which
the next tick does not read, then the tick has the same answer on both, be it an instruction or a
fault, and behind it they differ at most in these parts again. -/
theorem tick_noninterference (h : AgreeOff C m m') (hread : ∀ p, C p → ¬ m.TickReads p) :
    m'.tick.1 = m.tick.1 ∧ AgreeOff C m.tick.2 m'.tick.2 := by
  have hfetch : m'.fetch = m.fetch :=
    h.fetch fun a hlow hhigh hC => hread _ hC (Or.inl ⟨a, rfl, hlow, hhigh⟩)
  cases hf : m.fetch with
  | error f =>
      rw [tick_of_fetch_error hf, tick_of_fetch_error (hfetch.trans hf)]
      exact ⟨rfl, h⟩
  | ok i =>
      have hi : ∀ p, C p → ¬ m.reads i p := fun p hC hp => hread p hC (Or.inr ⟨i, hf, hp⟩)
      obtain ⟨hanswer, hagree⟩ := h.execute hi
      rw [tick_eq_execute hf, tick_eq_execute (hfetch.trans hf)]
      exact ⟨congrArg (Except.map fun _ => i) hanswer, hagree⟩

/-- A return on machines that differ in a deeper address, in the sound timer, in the pixels and in a
byte that is not fetched. -/
theorem tick_noninterference_below_top :
    let m := { ((new {} (.cycling #[])).load [0x00, 0xEE]).2 with stack := ⟨[0x300, 0x400]⟩ }
    let m' := { m with
      stack := ⟨[0x300, 0x500]⟩
      sound := 7
      display := m.display.clear true
      memory := m.memory.write 0x202 [1] }
    let C : Part → Prop := (· ∈ [.saved 0, .sound, .pixels, .byte 0x202])
    (AgreeOff C m m' ∧ ∀ p, C p → ¬ m.TickReads p) ∧
      m'.tick.1 = .ok .ret ∧ m'.tick.2.pc = 0x300 ∧ AgreeOff C m.tick.2 m'.tick.2 := by
  intro m m' C
  have hagree : AgreeOff C m m' := by
    refine ⟨rfl, rfl, rfl, rfl, fun p hp => ?_⟩
    cases p with
    | byte a =>
        have ha : a ≠ 0x202 := by
          rintro rfl
          exact hp (by simp [C])
        have hout : ¬ (0x202 ≤ a ∧ a - 0x202 < [(1 : UInt8)].length ∧ a < 4096) := by
          simp only [List.length_cons, List.length_nil]
          omega
        exact (Memory.read_write _ _ _ _).trans (dif_neg hout)
    | saved k =>
        match k with
        | 0 => exact absurd (by simp [C]) hp
        | 1 => rfl
        | k + 2 => rfl
    | sound | pixels => exact absurd (by simp [C]) hp
    | _ => rfl
  obtain ⟨hfetch, hfree⟩ : m.fetch = .ok .ret ∧
      ∀ p ∈ [Part.saved 0, .sound, .pixels, .byte 0x202], ¬ m.reads .ret p := by
    decide +kernel
  have hread : ∀ p, C p → ¬ m.TickReads p := by
    rintro p hC (⟨a, rfl, _, hhigh⟩ | ⟨i, hi, hp⟩)
    · obtain rfl : a = 0x202 := by simpa [C] using hC
      exact absurd hhigh (by decide)
    · obtain rfl : Instruction.ret = i := Except.ok.inj (hfetch.symm.trans hi)
      exact hfree p hC hp
  obtain ⟨hret, hpc⟩ : m.tick.1 = .ok .ret ∧ m.tick.2.pc = 0x300 := by decide +kernel
  obtain ⟨hanswer, hbehind⟩ := tick_noninterference hagree hread
  exact ⟨⟨hagree, hread⟩, hanswer.trans hret, hbehind.pc.trans hpc, hbehind⟩

end Machine

end Chip8
