import Chip8.Host.CommandLine.Argument
import Chip8.Text.Integer

/-! # Decimal numerals are read back

`Writes text n` says that a text writes an integer in decimal digits, with a minus sign in front if
need be, and with no more digits than can be read.  What the library prints for an integer of that
size writes it (`writes_toString`), and zeros may be put in front.  Such a text has no blanks to
trim and no underscores to skip, so it is read as the integer that it writes
(`Writes.read?_eq`). -/

namespace Chip8.Text.Integer

/-- The digits of a numeral that can be read. -/
structure IsDigits (digits : List Char) : Prop where
  ne_nil : digits ≠ []
  isDigit : ∀ c ∈ digits, c.isDigit = true
  length_le : digits.length ≤ 4300

/-- The text writes the integer in decimal digits. -/
inductive Writes : String → Int → Prop where
  | natural {digits : List Char} (h : IsDigits digits) :
      Writes (.ofList digits) (Nat.ofDigitChars 10 digits 0)
  | negative {digits : List Char} (h : IsDigits digits) :
      Writes (.ofList ('-' :: digits)) (-Nat.ofDigitChars 10 digits 0)

variable {c : Char} {text : List Char} {n : Int} {s : String}

theorem isDigits_toDigits {n : Nat} (h : (toString n).length ≤ 4300) :
    IsDigits (Nat.toDigits 10 n) where
  ne_nil := Nat.toDigits_ne_nil
  isDigit _ hc := Nat.isDigit_of_mem_toDigits (by decide) (by decide) hc
  length_le := by rwa [Nat.toString_eq_ofList_toDigits, String.length_ofList] at h

theorem writes_toString (h : (toString n.natAbs).length ≤ 4300) : Writes (toString n) n := by
  have hw := isDigits_toDigits h
  cases n with
  | ofNat n =>
      have hnatural := Writes.natural hw
      rw [Nat.ofDigitChars_ten_toDigits] at hnatural
      exact hnatural
  | negSucc n =>
      have hnegative := Writes.negative hw
      have htext : toString (Int.negSucc n) = .ofList ('-' :: Nat.toDigits 10 (n + 1)) := by
        apply String.toList_inj.mp
        show ("-" ++ Nat.repr (n + 1)).toList = _
        rw [String.toList_append, Nat.toList_repr, String.toList_ofList, String.toList_ofList]
        rfl
      rw [Nat.ofDigitChars_ten_toDigits] at hnegative
      rw [htext]
      exact hnegative

/-! ### Characters -/

theorem toNat_of_isDigit (h : c.isDigit = true) : 48 ≤ c.toNat ∧ c.toNat ≤ 57 := by
  simpa [Char.isDigit, UInt32.le_iff_toNat_le] using h

theorem value?_of_isDigit (h : c.isDigit = true) : DecimalDigit.value? c = some (c.toNat - 48) := by
  have hc := toNat_of_isDigit h
  rw [DecimalDigit.value?, DecimalDigit.zeros, List.find?_cons_of_pos (by simp; omega)]
  rfl

theorem isBlank_of_isDigit (h : c.isDigit = true) : isBlank c = false := by
  have hc := toNat_of_isDigit h
  simp [isBlank]
  omega

/-! ### Reading -/

theorem dropWhile_isBlank (h : ∀ c ∈ text, isBlank c = false) : text.dropWhile isBlank = text := by
  cases text with
  | nil => rfl
  | cons c text => rw [List.dropWhile_cons, if_neg (by simp [h c List.mem_cons_self])]

theorem trim_of_not_blank (h : ∀ c ∈ text, isBlank c = false) : trim text = text := by
  have hreverse : ∀ c ∈ text.reverse, isBlank c = false := fun c hc => h c (List.mem_reverse.mp hc)
  rw [trim, dropWhile_isBlank h, dropWhile_isBlank hreverse, List.reverse_reverse]

theorem digits?_of_isDigit (hne : text ≠ []) (h : ∀ c ∈ text, c.isDigit = true) :
    digits? text = some (text.map (·.toNat - 48)) := by
  induction text using digits?.induct with
  | case1 => exact absurd rfl hne
  | case2 c => rw [digits?, value?_of_isDigit (h c List.mem_cons_self)]; rfl
  | case3 c rest ih => exact absurd (h '_' (by simp)) (by decide)
  | case4 c rest hone hscore ih =>
      rw [digits?, value?_of_isDigit (h c List.mem_cons_self),
        ih hone fun c' hc' => h c' (List.mem_cons_of_mem c hc')]
      · rfl
      · exact hone
      · exact hscore

theorem IsDigits.magnitude?_eq (h : IsDigits text) :
    magnitude? text = some (Nat.ofDigitChars 10 text 0) := by
  have hvalue : ofDigits (text.map (·.toNat - 48)) = Nat.ofDigitChars 10 text 0 := by
    rw [ofDigits, List.foldl_map]
    rfl
  have hlength : (text.map (·.toNat - 48)).length ≤ maxDigits := by
    rw [List.length_map]
    exact h.length_le
  rw [magnitude?, digits?_of_isDigit h.ne_nil h.isDigit]
  show (if _ then some _ else none) = _
  rw [if_pos hlength, hvalue]

theorem Writes.read?_eq (h : Writes s n) : read? s = some n := by
  cases h with
  | @natural digits h =>
      have htrim := trim_of_not_blank fun c hc => isBlank_of_isDigit (h.isDigit c hc)
      rw [read?, String.toList_ofList, htrim]
      split
      · exact absurd (h.isDigit '-' List.mem_cons_self) (by decide)
      · exact absurd (h.isDigit '+' List.mem_cons_self) (by decide)
      · rw [h.magnitude?_eq]
        rfl
  | @negative digits h =>
      have htrim : trim ('-' :: digits) = '-' :: digits :=
        trim_of_not_blank (List.forall_mem_cons.mpr
          ⟨by decide, fun c hc => isBlank_of_isDigit (h.isDigit c hc)⟩)
      rw [read?, String.toList_ofList, htrim]
      simp only [h.magnitude?_eq]
      rfl

end Chip8.Text.Integer
