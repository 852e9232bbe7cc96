/-! # Hexadecimal numerals

Numerals in base sixteen with the capital digits `0` to `9` and `A` to `F`, most significant
digit first.

* `Hex.digits n` is the shortest numeral of `n`; zero has the one digit `0`.
* `Hex.padded w n` fills the numeral with zeros on the left up to `w` characters.  A wider
  numeral is never cut.
* `Hex.paddedInt w z` does the same for an integer.  The sign stands in front of the zeros and
  counts as one of the `w` characters, so `-1` at width four is `-001`.
* `Hex.spaced w z` fills with blanks on the left of the sign, for columns of a table.
* `Hex.literal z` is the small-letter form with its marker, `0x1f` or `-0x1`. -/

namespace Chip8.Text.Hex

/-- The digit of value `d`, for `d < 16`. -/
def digit (d : Nat) : Char :=
  if d < 10 then Char.ofNat (48 + d) else Char.ofNat (55 + d)

/-- The shortest numeral of `n`. -/
def digits (n : Nat) : List Char :=
  if n < 16 then [digit n] else digits (n / 16) ++ [digit (n % 16)]

theorem digits_of_lt {n : Nat} (h : n < 16) : digits n = [digit n] := by
  rw [digits, if_pos h]

theorem digits_of_ge {n : Nat} (h : 16 ≤ n) : digits n = digits (n / 16) ++ [digit (n % 16)] := by
  rw [digits, if_neg (by omega)]

theorem digits_ne_nil (n : Nat) : digits n ≠ [] := by
  rw [digits]
  split <;> simp

theorem exists_digit_of_mem_digits {n : Nat} {c : Char} (h : c ∈ digits n) :
    ∃ d < 16, c = digit d := by
  induction n using digits.induct with
  | case1 n hn =>
      rw [digits_of_lt hn, List.mem_singleton] at h
      exact ⟨n, hn, h⟩
  | case2 n hn ih =>
      rw [digits_of_ge (by omega), List.mem_append, List.mem_singleton] at h
      rcases h with h | h
      · exact ih h
      · exact ⟨n % 16, Nat.mod_lt n (by decide), h⟩

/-- The numeral of an integer, a minus sign in front of a negative one. -/
def signed : Int → List Char
  | .ofNat n => digits n
  | .negSucc n => '-' :: digits (n + 1)

/-- The numeral of `n`, filled with zeros up to `width` characters. -/
def padded (width n : Nat) : String :=
  String.ofList ((digits n).leftpad width '0')

theorem toList_padded (width n : Nat) :
    (padded width n).toList = List.replicate (width - (digits n).length) '0' ++ digits n := by
  rw [padded, String.toList_ofList, List.leftpad]

theorem toList_padded_ne_nil (width n : Nat) : (padded width n).toList ≠ [] := by
  rw [toList_padded]
  exact List.append_ne_nil_of_right_ne_nil _ (digits_ne_nil n)

theorem exists_digit_of_mem_padded {width n : Nat} {c : Char} (h : c ∈ (padded width n).toList) :
    ∃ d < 16, c = digit d := by
  rw [toList_padded] at h
  rcases List.mem_append.mp h with h | h
  · exact ⟨0, by decide, (List.mem_replicate.mp h).2⟩
  · exact exists_digit_of_mem_digits h

/-- The numeral of an integer, filled with zeros behind the sign up to `width` characters. -/
def paddedInt (width : Nat) : Int → String
  | .ofNat n => padded width n
  | .negSucc n => "-" ++ padded (width - 1) (n + 1)

/-- The numeral of an integer, filled with blanks up to `width` characters. -/
def spaced (width : Nat) (z : Int) : String :=
  String.ofList ((signed z).leftpad width ' ')

/-- The numeral in small letters behind the marker `0x`. -/
def literal (z : Int) : String :=
  (if z < 0 then "-0x" else "0x") ++ String.ofList ((digits z.natAbs).map Char.toLower)

end Chip8.Text.Hex
