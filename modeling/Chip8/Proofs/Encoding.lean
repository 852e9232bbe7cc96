import Chip8.Proofs.Decoding

/-! # Words and instructions

`Instruction.encode` writes an instruction as a word.  It is linked to the decoder from both sides:

* the word of an instruction in range is decoded to this instruction (`ofWord?_encode`), so every
  instruction in range has a word;
* the word written for a decoded instruction is the word that was decoded, except that the last
  digit of the groups `5` and `9`, which the decoder ignores, has become zero (`encode_of_ofWord?`).
  So two words with the same instruction differ in such a digit at most.

`InFamily` lists the words that stand for instructions by their group and their last digits.  That
the decoder accepts exactly these is `isSome_ofWord?_iff`.  The main statement puts the three
together for all integers. -/

namespace Chip8.Instruction

variable {i : Instruction} {w g x y n a : Nat}

/-- The word of a group with an address. -/
def addressWord (group address : Nat) : Nat := group * 0x1000 + address

/-- The word of a group with a register and two more digits. -/
def valueWord (group x value : Nat) : Nat := group * 0x1000 + x * 0x100 + value

/-- The word of a group with two registers and one more digit. -/
def digitWord (group x y digit : Nat) : Nat := group * 0x1000 + x * 0x100 + y * 0x10 + digit

/-- The word that stands for an instruction, with zero for a digit that the decoder ignores. -/
def encode : Instruction → Nat
  | clearDisplay => 0x00E0
  | ret => 0x00EE
  | jump a => addressWord 0x1 a
  | call a => addressWord 0x2 a
  | skipEqValue x n => valueWord 0x3 x n
  | skipNeValue x n => valueWord 0x4 x n
  | skipEq x y => digitWord 0x5 x y 0x0
  | loadValue x n => valueWord 0x6 x n
  | addValue x n => valueWord 0x7 x n
  | move x y => digitWord 0x8 x y 0x0
  | bitOr x y => digitWord 0x8 x y 0x1
  | bitAnd x y => digitWord 0x8 x y 0x2
  | bitXor x y => digitWord 0x8 x y 0x3
  | add x y => digitWord 0x8 x y 0x4
  | sub x y => digitWord 0x8 x y 0x5
  | shiftRight x y => digitWord 0x8 x y 0x6
  | subFrom x y => digitWord 0x8 x y 0x7
  | shiftLeft x y => digitWord 0x8 x y 0xE
  | skipNe x y => digitWord 0x9 x y 0x0
  | loadIndex a => addressWord 0xA a
  | jumpOffset _ a => addressWord 0xB a
  | random x n => valueWord 0xC x n
  | draw x y n => digitWord 0xD x y n
  | skipKeyDown x => valueWord 0xE x 0x9E
  | skipKeyUp x => valueWord 0xE x 0xA1
  | readDelay x => valueWord 0xF x 0x07
  | waitKey x => valueWord 0xF x 0x0A
  | setDelay x => valueWord 0xF x 0x15
  | setSound x => valueWord 0xF x 0x18
  | addIndex x => valueWord 0xF x 0x1E
  | loadGlyph x => valueWord 0xF x 0x29
  | storeDecimal x => valueWord 0xF x 0x33
  | storeRegisters x => valueWord 0xF x 0x55
  | loadRegisters x => valueWord 0xF x 0x65

/-- Whether the decoder ignores the last digit of the words of a group. -/
def IgnoresLast (group : Nat) : Prop := group = 0x5 ∨ group = 0x9

instance (group : Nat) : Decidable (IgnoresLast group) := inferInstanceAs (Decidable (_ ∨ _))

/-- The word with zero for a digit that the decoder ignores. -/
def essential (w : Nat) : Nat := if IgnoresLast (w / 0x1000) then w / 0x10 * 0x10 else w

/-- The families of words that stand for instructions: two words of group `0`, all words of the
groups `1` to `7` and `9` to `D`, and those words of the other groups whose last digits select an
instruction. -/
def InFamily (w : Nat) : Prop :=
  w ∈ [0x00E0, 0x00EE] ∨
    w / 0x1000 ∈ [0x1, 0x2, 0x3, 0x4, 0x5, 0x6, 0x7, 0x9, 0xA, 0xB, 0xC, 0xD] ∨
    (w / 0x1000 = 0x8 ∧ w % 0x10 ∈ [0x0, 0x1, 0x2, 0x3, 0x4, 0x5, 0x6, 0x7, 0xE]) ∨
    (w / 0x1000 = 0xE ∧ w % 0x100 ∈ [0x9E, 0xA1]) ∨
    (w / 0x1000 = 0xF ∧ w % 0x100 ∈ [0x07, 0x0A, 0x15, 0x18, 0x1E, 0x29, 0x33, 0x55, 0x65])

instance (w : Nat) : Decidable (InFamily w) := inferInstanceAs (Decidable (_ ∨ _))

/-- The integers that stand for instructions. -/
def Documented (a : Int) : Prop := (0 ≤ a ∧ a ≤ 0xFFFF) ∧ InFamily a.toNat

instance (a : Int) : Decidable (Documented a) := inferInstanceAs (Decidable (_ ∧ _))

/-! ### From an instruction to its word and back -/

theorem addressWord_fields (ha : a < 0x1000) :
    addressWord g a / 0x1000 = g ∧ addressWord g a % 0x1000 = a ∧
      addressWord g a / 0x100 % 0x10 = a / 0x100 := by
  unfold addressWord
  omega

theorem valueWord_fields (hx : x < 0x10) (hn : n < 0x100) :
    valueWord g x n / 0x1000 = g ∧ valueWord g x n / 0x100 % 0x10 = x ∧
      valueWord g x n % 0x100 = n := by
  unfold valueWord
  omega

theorem digitWord_fields (hx : x < 0x10) (hy : y < 0x10) (hn : n < 0x10) :
    digitWord g x y n / 0x1000 = g ∧ digitWord g x y n / 0x100 % 0x10 = x ∧
      digitWord g x y n / 0x10 % 0x10 = y ∧ digitWord g x y n % 0x10 = n := by
  unfold digitWord
  omega

theorem ofWord?_encode (hi : i.InRange) : ofWord? i.encode = some i := by
  obtain ⟨hoperands, hoffset⟩ := hi
  -- One case for each layout of the operands: the decoder reads the fields of the packed word.
  cases i with
  | clearDisplay | ret => rfl
  | jump a | call a | loadIndex a =>
      have ha : a < 0x1000 := hoperands (.address, a) List.mem_cons_self
      have hw := fun g => addressWord_fields (g := g) ha
      simp only [encode, ofWord?, hw]
  | jumpOffset x a =>
      have ha : a < 0x1000 := hoperands (.address, a) (List.mem_cons_of_mem _ List.mem_cons_self)
      have hx : x = a / 0x100 := hoffset x a rfl
      have hw := fun g => addressWord_fields (g := g) ha
      simp only [encode, ofWord?, hw, hx]
  | skipEqValue x n | skipNeValue x n | loadValue x n | addValue x n | random x n =>
      have hx : x < 0x10 := hoperands (.x, x) List.mem_cons_self
      have hn : n < 0x100 := hoperands (.value, n) (List.mem_cons_of_mem _ List.mem_cons_self)
      have hw := fun g => valueWord_fields (g := g) hx hn
      simp only [encode, ofWord?, hw]
  | skipEq x y | skipNe x y | move x y | bitOr x y | bitAnd x y | bitXor x y | add x y | sub x y
  | shiftRight x y | subFrom x y | shiftLeft x y =>
      have hx : x < 0x10 := hoperands (.x, x) List.mem_cons_self
      have hy : y < 0x10 := hoperands (.y, y) (List.mem_cons_of_mem _ List.mem_cons_self)
      have hw := fun g n (hn : n < 0x10) => digitWord_fields (g := g) hx hy hn
      simp (disch := decide) only [encode, ofWord?, hw, arithmetic?]
  | draw x y n =>
      have hx : x < 0x10 := hoperands (.x, x) List.mem_cons_self
      have hy : y < 0x10 := hoperands (.y, y) (List.mem_cons_of_mem _ List.mem_cons_self)
      have hn : n < 0x10 := hoperands (.height, n) (by simp [operands])
      have hw := fun g => digitWord_fields (g := g) hx hy hn
      simp only [encode, ofWord?, hw]
  | skipKeyDown x | skipKeyUp x | readDelay x | waitKey x | setDelay x | setSound x | addIndex x
  | loadGlyph x | storeDecimal x | storeRegisters x | loadRegisters x =>
      have hx : x < 0x10 := hoperands (.x, x) List.mem_cons_self
      have hw := fun g n (hn : n < 0x100) => valueWord_fields (g := g) hx hn
      simp (disch := decide) only [encode, ofWord?, hw, keyTest?, transfer?]

/-! ### From a word to its instruction and back -/

theorem encode_of_arithmetic? {s : Nat} (h : arithmetic? s x y = some i) :
    i.encode = digitWord 0x8 x y s := by
  unfold arithmetic? at h
  split at h
  case h_10 => cases h
  all_goals
    obtain rfl := Option.some.inj h
    rfl

theorem encode_of_keyTest? {s : Nat} (h : keyTest? s x = some i) :
    i.encode = valueWord 0xE x s := by
  unfold keyTest? at h
  split at h
  case h_3 => cases h
  all_goals
    obtain rfl := Option.some.inj h
    rfl

theorem encode_of_transfer? {s : Nat} (h : transfer? s x = some i) :
    i.encode = valueWord 0xF x s := by
  unfold transfer? at h
  split at h
  case h_10 => cases h
  all_goals
    obtain rfl := Option.some.inj h
    rfl

theorem encode_of_ofWord? (h : ofWord? w = some i) : i.encode = essential w := by
  -- Every word is put together from the fields that the decoder reads, in each of the layouts.
  have haddress : addressWord (w / 0x1000) (w % 0x1000) = w := by
    unfold addressWord
    omega
  have hvalue : valueWord (w / 0x1000) (w / 0x100 % 0x10) (w % 0x100) = w := by
    unfold valueWord
    omega
  have hdigit : digitWord (w / 0x1000) (w / 0x100 % 0x10) (w / 0x10 % 0x10) (w % 0x10) = w := by
    unfold digitWord
    omega
  have hzero : digitWord (w / 0x1000) (w / 0x100 % 0x10) (w / 0x10 % 0x10) 0x0 =
      w / 0x10 * 0x10 := by
    unfold digitWord
    omega
  unfold essential
  unfold ofWord? at h
  dsimp only at h
  split at h
  case h_17 => cases h
  all_goals
    rename_i hg
    rw [hg] at haddress hvalue hdigit hzero ⊢
  case h_1 =>
    by_cases hcls : w = 0xE0
    · rw [if_pos hcls] at h
      obtain rfl := Option.some.inj h
      exact hcls.symm
    · rw [if_neg hcls] at h
      by_cases hret : w = 0xEE
      · rw [if_pos hret] at h
        obtain rfl := Option.some.inj h
        exact hret.symm
      · rw [if_neg hret] at h
        cases h
  case h_6 | h_10 =>
    obtain rfl := Option.some.inj h
    exact hzero
  case h_9 => exact (encode_of_arithmetic? h).trans hdigit
  case h_15 => exact (encode_of_keyTest? h).trans hvalue
  case h_16 => exact (encode_of_transfer? h).trans hvalue
  case h_14 =>
    obtain rfl := Option.some.inj h
    exact hdigit
  case h_2 | h_3 | h_11 | h_12 =>
    obtain rfl := Option.some.inj h
    exact haddress
  case h_4 | h_5 | h_7 | h_8 | h_13 =>
    obtain rfl := Option.some.inj h
    exact hvalue

theorem essential_eq_iff {v w : Nat} :
    essential v = essential w ↔
      v = w ∨ (IgnoresLast (v / 0x1000) ∧ v / 0x1000 = w / 0x1000 ∧ v / 0x10 = w / 0x10) := by
  unfold essential
  by_cases hv : IgnoresLast (v / 0x1000)
  · simp only [hv, if_true, true_and]
    by_cases hw : IgnoresLast (w / 0x1000)
    all_goals
      simp only [hw, if_true, if_false]
      unfold IgnoresLast at hv hw
      omega
  · simp only [hv, if_false, false_and, or_false]
    by_cases hw : IgnoresLast (w / 0x1000)
    · simp only [hw, if_true]
      unfold IgnoresLast at hv hw
      omega
    · simp only [hw, if_false]

/-- The decoder reads nothing of a word but its essential digits. -/
theorem ofWord?_essential (w : Nat) : ofWord? (essential w) = ofWord? w := by
  unfold essential
  by_cases hg : IgnoresLast (w / 0x1000)
  · rw [if_pos hg]
    have hgroup : w / 0x10 * 0x10 / 0x1000 = w / 0x1000 := by omega
    have hx : w / 0x10 * 0x10 / 0x100 = w / 0x100 := by omega
    have hy : w / 0x10 * 0x10 / 0x10 = w / 0x10 := by omega
    rcases hg with hg | hg <;> simp only [ofWord?, hgroup, hg, hx, hy]
  · rw [if_neg hg]

theorem eq_iff_essential_eq {v w : Nat} {i j : Instruction} (hv : ofWord? v = some i)
    (hw : ofWord? w = some j) : i = j ↔ essential v = essential w := by
  constructor
  · rintro rfl
    rw [← encode_of_ofWord? hv, encode_of_ofWord? hw]
  · intro he
    have hsame : ofWord? v = ofWord? w := by
      rw [← ofWord?_essential v, he, ofWord?_essential]
    rw [hv, hw] at hsame
    exact Option.some.inj hsame

/-! ### The words with an instruction -/

theorem isSome_arithmetic?_iff {s : Nat} :
    (arithmetic? s x y).isSome ↔ s ∈ [0x0, 0x1, 0x2, 0x3, 0x4, 0x5, 0x6, 0x7, 0xE] := by
  unfold arithmetic?
  split <;> simp_all

theorem isSome_keyTest?_iff {s : Nat} : (keyTest? s x).isSome ↔ s ∈ [0x9E, 0xA1] := by
  unfold keyTest?
  split <;> simp_all

theorem isSome_transfer?_iff {s : Nat} :
    (transfer? s x).isSome ↔ s ∈ [0x07, 0x0A, 0x15, 0x18, 0x1E, 0x29, 0x33, 0x55, 0x65] := by
  unfold transfer?
  split <;> simp_all

theorem isSome_ofWord?_iff : (ofWord? w).isSome ↔ InFamily w := by
  unfold ofWord? InFamily
  dsimp only
  split
  case h_1 hg =>
    by_cases hcls : w = 0xE0
    · simp [hcls]
    · by_cases hret : w = 0xEE
      · simp [hret]
      · simp [hcls, hret, hg]
  case h_17 =>
    have hlarge : 0x10 ≤ w / 0x1000 := by
      simp only [imp_false] at *
      omega
    simp only [Option.isSome_none, Bool.false_eq_true, List.mem_cons, List.not_mem_nil, or_false,
      false_iff]
    omega
  all_goals
    rename_i hg
    have hne : w ≠ 0xE0 ∧ w ≠ 0xEE := by omega
    simp [hg, hne, isSome_arithmetic?_iff, isSome_keyTest?_iff, isSome_transfer?_iff]

theorem InFamily.le (h : InFamily w) : w ≤ 0xFFFF := by
  have hgroup : w / 0x1000 ≤ 0xF := by
    rcases h with h | h | h | h | h
    all_goals
      simp only [List.mem_cons, List.not_mem_nil, or_false] at h
      omega
  omega

/-! ### All integers -/

theorem decode_eq_ok_iff {a : Int} : decode a = .ok i ↔ 0 ≤ a ∧ ofWord? a.toNat = some i := by
  unfold decode
  by_cases ha : 0 ≤ a
  · rw [if_pos ha]
    cases h : ofWord? a.toNat <;> simp [ha]
  · rw [if_neg ha]
    simp [ha]

theorem exists_decode_eq_ok_iff {a : Int} : (∃ i, decode a = .ok i) ↔ Documented a := by
  have hsome : (∃ i, decode a = .ok i) ↔ 0 ≤ a ∧ InFamily a.toNat := by
    simp only [decode_eq_ok_iff, exists_and_left, ← isSome_ofWord?_iff, Option.isSome_iff_exists]
  rw [hsome]
  unfold Documented
  constructor
  · rintro ⟨ha, hfamily⟩
    have hle := hfamily.le
    exact ⟨⟨ha, by omega⟩, hfamily⟩
  · rintro ⟨⟨ha, -⟩, hfamily⟩
    exact ⟨ha, hfamily⟩

theorem decode_eq_error {a : Int} {f : Fault} (h : decode a = .error f) : f = .unknownOpcode a := by
  unfold decode at h
  split at h
  · cases h
  · exact (Except.error.inj h).symm

/-- **Decoding is one-to-one up to the ignored digit.**  An integer is decoded if and only if it is
documented; any other one is reported unchanged.  Two integers are decoded to the same instruction
if and only if they are equal, or lie both in group `5` or both in group `9` and agree in all but
the last digit.  And an instruction is decoded from some integer if and only if it is in range. -/
theorem decode_bijective_up_to_ignored_digit (a b : Int) :
    ((Documented a → ∃ i, decode a = .ok i) ∧
        (¬ Documented a → decode a = .error (.unknownOpcode a))) ∧
      (∀ i j, decode a = .ok i → decode b = .ok j →
        (i = j ↔ a = b ∨
          ((a / 0x1000 = 0x5 ∧ b / 0x1000 = 0x5) ∨ (a / 0x1000 = 0x9 ∧ b / 0x1000 = 0x9)) ∧
            a / 0x10 = b / 0x10)) ∧
      ∀ i : Instruction, (∃ w, decode w = .ok i) ↔ i.InRange := by
  refine ⟨⟨exists_decode_eq_ok_iff.mpr, ?_⟩, ?_, ?_⟩
  · intro hno
    cases h : decode a with
    | ok i => exact absurd (exists_decode_eq_ok_iff.mp ⟨i, h⟩) hno
    | error f => rw [decode_eq_error h]
  · intro i j hi hj
    obtain ⟨ha, hi⟩ := decode_eq_ok_iff.mp hi
    obtain ⟨hb, hj⟩ := decode_eq_ok_iff.mp hj
    rw [eq_iff_essential_eq hi hj, essential_eq_iff]
    unfold IgnoresLast
    omega
  · intro i
    constructor
    · rintro ⟨w, hw⟩
      exact inRange_of_ofWord? (decode_eq_ok_iff.mp hw).2
    · intro hi
      exact ⟨i.encode, decode_natCast_eq_ok_iff.mpr (ofWord?_encode hi)⟩

/-- Two words of group `5` that differ in the ignored digit, and a number below zero. -/
theorem decode_bijective_at_ignored_digit :
    (decode 0x5121 = .ok (.skipEq 1 2) ∧ decode 0x512F = .ok (.skipEq 1 2)) ∧
      ((0x5121 : Int) / 0x1000 = 0x5 ∧ (0x5121 : Int) / 0x10 = 0x512F / 0x10) ∧
      decode (-0x5121) = .error (.unknownOpcode (-0x5121)) := by
  have hfirst : decode 0x5121 = .ok (.skipEq 1 2) := rfl
  have hsecond : decode 0x512F = .ok (.skipEq 1 2) := rfl
  obtain ⟨-, hsame, -⟩ := decode_bijective_up_to_ignored_digit 0x5121 0x512F
  have hdigits : (0x5121 : Int) / 0x10 = 0x512F / 0x10 := by
    rcases (hsame _ _ hfirst hsecond).mp rfl with heq | ⟨-, hdigits⟩
    · exact absurd heq (by decide)
    · exact hdigits
  obtain ⟨⟨-, hrefused⟩, -⟩ := decode_bijective_up_to_ignored_digit (-0x5121) 0
  exact ⟨⟨hfirst, hsecond⟩, ⟨by decide, hdigits⟩, hrefused (by decide)⟩

end Chip8.Instruction
