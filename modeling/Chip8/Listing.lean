import Chip8.Instruction.Decode

/-! # Listings of a program image

`Listing.ofBytes data offset` walks an image that stands at `offset`, two bytes at a time, and
decodes each word.  Data that happens to lie between the instructions yields entries without an
instruction.  An odd byte at the end belongs to no word and is left out.

Entry `k` is the word of the bytes `2 k` and `2 k + 1` (`Listing.getElem?_ofBytes`), and an image
may be cut between any two words (`Listing.ofBytes_append`). -/

namespace Chip8

/-- One word of an image. -/
structure Listing.Entry where
  address : Int
  /-- The word itself, high byte first. -/
  word : Nat
  instruction : Option Instruction
deriving DecidableEq, Repr

/-- The words of an image, in order. -/
def Listing.ofBytes : List UInt8 → Int → List Listing.Entry
  | high :: low :: rest, offset =>
      let word := Instruction.word high low
      ⟨offset, word, Instruction.ofWord? word⟩ :: Listing.ofBytes rest (offset + 2)
  | _, _ => []

namespace Listing

theorem length_lt_two {data : List UInt8}
    (short : ∀ high low rest, data = high :: low :: rest → False) : data.length < 2 := by
  rcases data with _ | ⟨b, _ | ⟨c, rest⟩⟩
  · exact Nat.zero_lt_two
  · exact Nat.one_lt_two
  · exact absurd rfl (short b c rest)

theorem ofBytes_of_lt {data : List UInt8} (few : data.length < 2) (offset : Int) :
    ofBytes data offset = [] := by
  rw [ofBytes]
  rintro high low rest rfl
  simp only [List.length_cons] at few
  omega

theorem getElem?_ofBytes (data : List UInt8) (offset : Int) (k : Nat) :
    (ofBytes data offset)[k]? =
      if h : 2 * k + 1 < data.length then
        let word := Instruction.word data[2 * k] data[2 * k + 1]
        some ⟨offset + 2 * k, word, Instruction.ofWord? word⟩
      else none := by
  induction data, offset using ofBytes.induct generalizing k with
  | case1 high low rest offset ih =>
      rw [ofBytes]
      cases k with
      | zero => simp
      | succ k =>
          rw [List.getElem?_cons_succ, ih]
          have step : 2 * (k + 1) = 2 * k + 1 + 1 := by omega
          by_cases h : 2 * k + 1 < rest.length
          · have succ : 2 * (k + 1) + 1 < (high :: low :: rest).length := by
              simp only [List.length_cons]
              omega
            have next : offset + 2 + 2 * (k : Int) = offset + 2 * ((k + 1 : Nat) : Int) := by
              omega
            rw [dif_pos h, dif_pos succ, next]
            simp only [step, List.getElem_cons_succ]
          · have succ : ¬ 2 * (k + 1) + 1 < (high :: low :: rest).length := by
              simp only [List.length_cons]
              omega
            rw [dif_neg h, dif_neg succ]
  | case2 data offset short =>
      have few := length_lt_two short
      rw [ofBytes_of_lt few, dif_neg (by omega), List.getElem?_nil]

theorem length_ofBytes (data : List UInt8) (offset : Int) :
    (ofBytes data offset).length = data.length / 2 := by
  induction data, offset using ofBytes.induct with
  | case1 high low rest offset ih =>
      simp only [ofBytes, List.length_cons, ih]
      omega
  | case2 data offset short =>
      have few := length_lt_two short
      rw [ofBytes_of_lt few, List.length_nil]
      omega

theorem ofBytes_append {a : List UInt8} (even : 2 ∣ a.length) (b : List UInt8) (offset : Int) :
    ofBytes (a ++ b) offset = ofBytes a offset ++ ofBytes b (offset + a.length) := by
  induction a, offset using ofBytes.induct with
  | case1 high low rest offset ih =>
      have rest_even : 2 ∣ rest.length := by
        simp only [List.length_cons] at even
        omega
      have behind : offset + 2 + (rest.length : Int)
          = offset + ((high :: low :: rest).length : Int) := by
        simp only [List.length_cons]
        omega
      rw [List.cons_append, List.cons_append, ofBytes, ofBytes, ih rest_even, behind,
        List.cons_append]
  | case2 a offset short =>
      -- A single byte would make a word with the first byte of `b`, so none is left.
      have few := length_lt_two short
      have empty : a = [] := List.length_eq_zero_iff.mp (by omega)
      subst empty
      rw [ofBytes_of_lt few, List.length_nil, Int.natCast_zero, Int.add_zero, List.nil_append,
        List.nil_append]

/-- A byte behind the last whole word belongs to no entry. -/
theorem ofBytes_append_singleton {data : List UInt8} (even : 2 ∣ data.length) (b : UInt8)
    (offset : Int) : ofBytes (data ++ [b]) offset = ofBytes data offset := by
  have few : [b].length < 2 := Nat.one_lt_two
  rw [ofBytes_append even, ofBytes_of_lt few, List.append_nil]

end Listing

end Chip8
