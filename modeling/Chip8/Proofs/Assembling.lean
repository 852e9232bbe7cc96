import Chip8.Listing
import Chip8.Proofs.Trace

/-! # Mnemonics are read back

The pieces of a text are its longest stretches of letters and digits; blanks, commas, brackets and
signs only keep them apart (`Text.pieces_append_between`).  The first piece of a mnemonic is its
head, and each of the others is a `Symbol`: a register, a numeral or a name.  A piece tells by its
letters which of the three it is, since no register begins like a numeral, and the names have
letters that are no digits.  So the head and the symbols of a mnemonic, whatever the size of its
operands, name one instruction, and `Instruction.ofMnemonic?` finds it (`ofMnemonic?_mnemonic`).

A line of a trace has the pieces of its mnemonic behind one piece and in front of two
(`pieces_text`), so it tells its instruction as well. -/

namespace Chip8

/-! ### Numerals are read back -/

namespace Text.Hex

/-- Whether a character is a digit of base sixteen. -/
def isDigit (c : Char) : Bool := ('0' ≤ c && c ≤ '9') || ('A' ≤ c && c ≤ 'F')

/-- The value of a digit. -/
def digitValue (c : Char) : Nat := if c ≤ '9' then c.toNat - 48 else c.toNat - 55

/-- The number that digits stand for. -/
def ofDigits (text : List Char) : Nat := text.foldl (fun n c => 16 * n + digitValue c) 0

theorem digitValue_digit : ∀ d < 16, digitValue (digit d) = d := by decide

theorem ofDigits_digits (n : Nat) : ofDigits (digits n) = n := by
  induction n using digits.induct with
  | case1 n hn =>
      rw [digits_of_lt hn, ofDigits, List.foldl_cons, List.foldl_nil, digitValue_digit n hn]
      omega
  | case2 n hn ih =>
      rw [ofDigits] at ih
      rw [digits_of_ge (by omega), ofDigits, List.foldl_append, ih, List.foldl_cons,
        List.foldl_nil, digitValue_digit _ (Nat.mod_lt n (by decide))]
      exact Nat.div_add_mod n 16

theorem ofDigits_padded (w n : Nat) : ofDigits (padded w n).toList = n := by
  have hzeros : ∀ k, (List.replicate k '0').foldl (fun n c => 16 * n + digitValue c) 0 = 0 := by
    intro k
    induction k with
    | zero => rfl
    | succ k ih => exact ih
  have hdigits := ofDigits_digits n
  rw [ofDigits] at hdigits
  rw [toList_padded, ofDigits, List.foldl_append, hzeros, hdigits]

end Text.Hex

/-! ### The pieces of a text -/

namespace Text

variable {s t u : String}

/-- Whether a character keeps pieces apart. -/
def isSeparator (c : Char) : Bool := !c.isAlphanum

/-- The longest stretches of letters and digits, in order. -/
def pieces (text : String) : List String :=
  ((text.toList.splitOnP isSeparator).filter (!·.isEmpty)).map String.ofList

/-- A separator at the beginning keeps the pieces of a text apart from those in front of it. -/
def StartsApart (text : String) : Prop := text.toList.head?.any isSeparator = true

/-- A separator at the end keeps the pieces of a text apart from those behind it. -/
def EndsApart (text : String) : Prop := text.toList.getLast?.any isSeparator = true

instance (text : String) : Decidable (StartsApart text) := inferInstanceAs (Decidable (_ = _))

instance (text : String) : Decidable (EndsApart text) := inferInstanceAs (Decidable (_ = _))

theorem pieces_of_append_cons {a b : List Char} {c : Char} (hc : isSeparator c = true)
    (hu : u.toList = a ++ c :: b) : pieces u = pieces (.ofList a) ++ pieces (.ofList b) := by
  simp only [pieces, hu, String.toList_ofList, List.splitOnP_append_cons a b hc,
    List.filter_append, List.map_append]

theorem pieces_nil : pieces (.ofList []) = [] := rfl

theorem pieces_append_of_startsApart (h : StartsApart t) :
    pieces (s ++ t) = pieces s ++ pieces t := by
  obtain ⟨c, hfirst, hc⟩ := (Option.any_eq_true ..).mp h
  obtain ⟨b, hb⟩ := List.head?_eq_some_iff.mp hfirst
  have hst : (s ++ t).toList = s.toList ++ c :: b := by rw [String.toList_append, hb]
  have ht : t.toList = [] ++ c :: b := hb
  rw [pieces_of_append_cons hc hst, pieces_of_append_cons hc ht, pieces_nil, List.nil_append,
    String.ofList_toList]

theorem pieces_append_of_endsApart (h : EndsApart s) : pieces (s ++ t) = pieces s ++ pieces t := by
  obtain ⟨c, hlast, hc⟩ := (Option.any_eq_true ..).mp h
  obtain ⟨a, ha⟩ := List.getLast?_eq_some_iff.mp hlast
  have hst : (s ++ t).toList = a ++ c :: t.toList := by
    rw [String.toList_append, ha, List.append_assoc, List.singleton_append]
  rw [pieces_of_append_cons hc hst, pieces_of_append_cons hc ha, pieces_nil, List.append_nil,
    String.ofList_toList]

theorem pieces_append_between (hstarts : StartsApart u) (hends : EndsApart u) :
    pieces (s ++ u ++ t) = pieces s ++ pieces u ++ pieces t := by
  have hlast : EndsApart (s ++ u) := by
    obtain ⟨c, hc, hapart⟩ := (Option.any_eq_true ..).mp hends
    rw [EndsApart, String.toList_append, List.getLast?_append, hc]
    exact hapart
  rw [pieces_append_of_endsApart hlast, pieces_append_of_startsApart hstarts]

theorem pieces_blanks (k : Nat) : pieces (.ofList (List.replicate k ' ')) = [] := by
  induction k with
  | zero => rfl
  | succ k ih =>
      have hlist : (String.ofList (List.replicate (k + 1) ' ')).toList =
          [] ++ ' ' :: List.replicate k ' ' := String.toList_ofList
      rw [pieces_of_append_cons rfl hlist, ih]
      rfl

theorem pieces_append_blanks (s : String) (k : Nat) :
    pieces (s ++ .ofList (List.replicate k ' ')) = pieces s := by
  cases k with
  | zero => exact congrArg pieces String.append_empty
  | succ k =>
      have hstarts : StartsApart (.ofList (List.replicate (k + 1) ' ')) := by
        rw [StartsApart, String.toList_ofList]
        rfl
      rw [pieces_append_of_startsApart hstarts, pieces_blanks, List.append_nil]

theorem pieces_of_isAlphanum (hne : s.toList ≠ []) (h : ∀ c ∈ s.toList, c.isAlphanum = true) :
    pieces s = [s] := by
  have hall : ∀ c ∈ s.toList, isSeparator c = false := fun c hc => by simp [isSeparator, h c hc]
  rw [pieces, List.splitOnP_eq_singleton hall]
  simp [hne]

theorem isAlphanum_of_mem_padded {w n : Nat} {c : Char} (h : c ∈ (Hex.padded w n).toList) :
    c.isAlphanum = true := by
  have hdigit : ∀ d < 16, (Hex.digit d).isAlphanum = true := by decide
  obtain ⟨d, hd, rfl⟩ := Hex.exists_digit_of_mem_padded h
  exact hdigit d hd

theorem pieces_padded (w n : Nat) : pieces (Hex.padded w n) = [Hex.padded w n] :=
  pieces_of_isAlphanum (Hex.toList_padded_ne_nil w n) fun _ => isAlphanum_of_mem_padded

theorem exists_pieces_paddedInt (w : Nat) (z : Int) : ∃ p, pieces (Hex.paddedInt w z) = [p] := by
  cases z with
  | ofNat n => exact ⟨_, pieces_padded w n⟩
  | negSucc n =>
      refine ⟨Hex.padded (w - 1) (n + 1), ?_⟩
      rw [Hex.paddedInt, pieces_append_of_endsApart (by decide), pieces_padded]
      rfl

end Text

/-! ### Symbols -/

/-- What a piece of a mnemonic behind its head stands for. -/
inductive Symbol where
  | register (x : Nat)
  | number (n : Nat)
  | name (letters : String)
deriving DecidableEq, Repr

namespace Symbol

open Text

/-- What a piece stands for: a register behind a `V`, a number if it has digits only. -/
def ofPiece (piece : String) : Symbol :=
  match piece.toList with
  | 'V' :: digits => register (Hex.ofDigits digits)
  | text => if text.all Hex.isDigit then number (Hex.ofDigits text) else name piece

/-- The symbols of a text. -/
def ofText (text : String) : List Symbol := (pieces text).map ofPiece

variable {s t u : String} {x y n w : Nat}

theorem ofPiece_padded (w n : Nat) : ofPiece (Hex.padded w n) = number n := by
  have hdigit : ∀ d < 16, Hex.isDigit (Hex.digit d) = true ∧ Hex.digit d ≠ 'V' := by decide
  have hall : (Hex.padded w n).toList.all Hex.isDigit = true := by
    refine List.all_eq_true.mpr fun c hc => ?_
    obtain ⟨d, hd, rfl⟩ := Hex.exists_digit_of_mem_padded hc
    exact (hdigit d hd).1
  have hregister : ∀ digits, (Hex.padded w n).toList ≠ 'V' :: digits := by
    intro digits he
    have hmem : 'V' ∈ (Hex.padded w n).toList := he ▸ List.mem_cons_self
    obtain ⟨d, hd, hv⟩ := Hex.exists_digit_of_mem_padded hmem
    exact (hdigit d hd).2 hv.symm
  unfold ofPiece
  split
  · next digits he => exact absurd he (hregister digits)
  · rw [if_pos hall, Hex.ofDigits_padded]

theorem ofText_padded (w n : Nat) : ofText (Hex.padded w n) = [number n] := by
  rw [ofText, pieces_padded, List.map_singleton, ofPiece_padded]

theorem ofText_registerName (x : Nat) : ofText (Instruction.registerName x) = [register x] := by
  have hlist : (Instruction.registerName x).toList = 'V' :: (Hex.padded 1 x).toList :=
    String.toList_append
  have hall : ∀ c ∈ (Instruction.registerName x).toList, c.isAlphanum = true := by
    rw [hlist]
    exact List.forall_mem_cons.mpr ⟨by decide, fun _ => isAlphanum_of_mem_padded⟩
  rw [ofText, pieces_of_isAlphanum (hlist ▸ List.cons_ne_nil _ _) hall, List.map_singleton,
    ofPiece, hlist]
  simp only [Hex.ofDigits_padded]

theorem ofText_append_of_startsApart (h : StartsApart t) :
    ofText (s ++ t) = ofText s ++ ofText t := by
  rw [ofText, pieces_append_of_startsApart h, List.map_append]
  rfl

theorem ofText_append_between (hstarts : StartsApart u) (hends : EndsApart u)
    (hu : pieces u = []) : ofText (s ++ u ++ t) = ofText s ++ ofText t := by
  rw [ofText, pieces_append_between hstarts hends, hu, List.append_nil, List.map_append]
  rfl

theorem ofText_registerPair (x y : Nat) :
    ofText (Instruction.registerPair x y) = [register x, register y] := by
  rw [Instruction.registerPair, ofText_append_between (by decide) (by decide) rfl,
    ofText_registerName, ofText_registerName]
  rfl

theorem ofText_registerValue (x n : Nat) :
    ofText (Instruction.registerValue x n) = [register x, number n] := by
  rw [Instruction.registerValue, ofText_append_between (by decide) (by decide) rfl,
    ofText_registerName, ofText_padded]
  rfl

end Symbol

/-! ### Reading mnemonics -/

namespace Instruction

open Text

variable {head lit rest : String} {front : List String} {symbols : List Symbol}
  {i j : Instruction}

open Chip8.Symbol in
/-- The instruction with the given head and symbols. -/
def ofSymbols? (head : String) (symbols : List Symbol) : Option Instruction :=
  match head, symbols with
  | "CLS", [] => some clearDisplay
  | "RTS", [] => some ret
  | "JUMP", [number a] => some (jump a)
  | "JUMP", [register x, number a] => some (jumpOffset x a)
  | "CALL", [number a] => some (call a)
  | "SKE", [register x, number n] => some (skipEqValue x n)
  | "SKE", [register x, register y] => some (skipEq x y)
  | "SKNE", [register x, number n] => some (skipNeValue x n)
  | "SKNE", [register x, register y] => some (skipNe x y)
  | "LOAD", [register x, number n] => some (loadValue x n)
  | "LOAD", [register x, register y] => some (move x y)
  | "LOAD", [register x, name "DELAY"] => some (readDelay x)
  | "LOAD", [register x, name "I"] => some (loadRegisters x)
  | "LOAD", [name "I", number a] => some (loadIndex a)
  | "LOAD", [name "I", name "SPRITE", register x] => some (loadGlyph x)
  | "LOAD", [name "DELAY", register x] => some (setDelay x)
  | "LOAD", [name "SOUND", register x] => some (setSound x)
  | "ADD", [register x, number n] => some (addValue x n)
  | "ADD", [register x, register y] => some (add x y)
  | "ADD", [name "I", register x] => some (addIndex x)
  | "OR", [register x, register y] => some (bitOr x y)
  | "AND", [register x, register y] => some (bitAnd x y)
  | "XOR", [register x, register y] => some (bitXor x y)
  | "SUB", [register x, register y] => some (sub x y)
  | "SHR", [register x, register y] => some (shiftRight x y)
  | "SUBN", [register x, register y] => some (subFrom x y)
  | "SHL", [register x, register y] => some (shiftLeft x y)
  | "RAND", [register x, number n] => some (random x n)
  | "DRAW", [register x, register y, number h] => some (draw x y h)
  | "SKPR", [register x] => some (skipKeyDown x)
  | "SKUP", [register x] => some (skipKeyUp x)
  | "KEYD", [register x] => some (waitKey x)
  | "BCD", [register x] => some (storeDecimal x)
  | "STOR", [name "I", register x] => some (storeRegisters x)
  | _, _ => none

/-- The instruction with the given pieces. -/
def ofPieces? : List String → Option Instruction
  | [] => none
  | head :: operands => ofSymbols? head (operands.map Symbol.ofPiece)

/-- The instruction with the given mnemonic. -/
def ofMnemonic? (text : String) : Option Instruction := ofPieces? (pieces text)

/-- A fixed text in front gives the head and perhaps some names, the rest the other symbols. -/
theorem ofMnemonic?_append (hlit : pieces lit = head :: front)
    (hends : EndsApart lit) (hrest : Symbol.ofText rest = symbols) :
    ofMnemonic? (lit ++ rest) = ofSymbols? head (front.map Symbol.ofPiece ++ symbols) := by
  rw [ofMnemonic?, pieces_append_of_endsApart hends, hlit, ← hrest, List.cons_append, ofPieces?,
    List.map_append]
  rfl

theorem ofMnemonic?_load_append {x : Nat} (hrest : StartsApart rest) :
    ofMnemonic? ("LOAD " ++ registerName x ++ rest) =
      ofSymbols? "LOAD" (.register x :: Symbol.ofText rest) := by
  have hsymbols : Symbol.ofText (registerName x ++ rest) = .register x :: Symbol.ofText rest := by
    rw [Symbol.ofText_append_of_startsApart hrest, Symbol.ofText_registerName]
    rfl
  rw [String.append_assoc]
  exact (ofMnemonic?_append rfl (by decide) hsymbols).trans rfl

/-- Every mnemonic is read back, whatever the size of the operands. -/
theorem ofMnemonic?_mnemonic (i : Instruction) : ofMnemonic? i.mnemonic = some i := by
  -- One case for each way in which operands are written.
  cases i with
  | clearDisplay | ret => rfl
  | jump a | call a | loadIndex a =>
      exact (ofMnemonic?_append rfl (by decide) (Symbol.ofText_padded 3 a)).trans rfl
  | skipEqValue x n | skipNeValue x n | loadValue x n | addValue x n | random x n =>
      exact (ofMnemonic?_append rfl (by decide) (Symbol.ofText_registerValue x n)).trans rfl
  | skipEq x y | skipNe x y | move x y | bitOr x y | bitAnd x y | bitXor x y | add x y | sub x y
  | shiftRight x y | subFrom x y | shiftLeft x y =>
      exact (ofMnemonic?_append rfl (by decide) (Symbol.ofText_registerPair x y)).trans rfl
  | skipKeyDown x | skipKeyUp x | waitKey x | setDelay x | setSound x | addIndex x | loadGlyph x
  | storeDecimal x | storeRegisters x =>
      exact (ofMnemonic?_append rfl (by decide) (Symbol.ofText_registerName x)).trans rfl
  | jumpOffset x a =>
      have hrest : Symbol.ofText (registerName x ++ ("] + " ++ Hex.padded 3 a)) =
          [.register x, .number a] := by
        rw [← String.append_assoc, Symbol.ofText_append_between (by decide) (by decide) rfl,
          Symbol.ofText_registerName, Symbol.ofText_padded]
        rfl
      show ofMnemonic? ("JUMP [" ++ registerName x ++ "] + " ++ Hex.padded 3 a) = _
      rw [String.append_assoc, String.append_assoc]
      exact (ofMnemonic?_append rfl (by decide) hrest).trans rfl
  | draw x y h =>
      have hrest : Symbol.ofText (registerPair x y ++ (", " ++ Hex.padded 1 h)) =
          [.register x, .register y, .number h] := by
        rw [← String.append_assoc, Symbol.ofText_append_between (by decide) (by decide) rfl,
          Symbol.ofText_registerPair, Symbol.ofText_padded]
        rfl
      show ofMnemonic? ("DRAW " ++ registerPair x y ++ ", " ++ Hex.padded 1 h) = _
      rw [String.append_assoc, String.append_assoc]
      exact (ofMnemonic?_append rfl (by decide) hrest).trans rfl
  | readDelay x | loadRegisters x =>
      exact (ofMnemonic?_load_append (by decide)).trans rfl

theorem mnemonic_injective (h : i.mnemonic = j.mnemonic) : i = j := by
  have hi := ofMnemonic?_mnemonic i
  rw [h, ofMnemonic?_mnemonic] at hi
  exact (Option.some.inj hi).symm

end Instruction

/-! ### Lines of a trace -/

namespace TraceEntry

open Text

variable {t t' : TraceEntry}

/-- A line of a trace has the pieces of its mnemonic behind one piece and in front of two. -/
theorem pieces_text (t : TraceEntry) :
    ∃ pc newPc, pieces t.text = pc :: (pieces t.instruction.mnemonic ++ ["PC", newPc]) := by
  obtain ⟨pc, hpc⟩ := exists_pieces_paddedInt 3 t.pc
  obtain ⟨newPc, hnewPc⟩ := exists_pieces_paddedInt 3 t.newPc
  have hmnemonic : pieces (.ofList (t.instruction.mnemonic.toList.rightpad 20 ' ')) =
      pieces t.instruction.mnemonic := by
    rw [List.rightpad, String.ofList_append, String.ofList_toList, pieces_append_blanks]
  refine ⟨pc, newPc, ?_⟩
  rw [text, pieces_append_between (by decide) (by decide),
    pieces_append_between (by decide) (by decide), hpc, hmnemonic, hnewPc, List.append_assoc]
  rfl

theorem instruction_eq_of_text_eq (h : t.text = t'.text) : t.instruction = t'.instruction := by
  obtain ⟨pc, newPc, ht⟩ := pieces_text t
  obtain ⟨pc', newPc', ht'⟩ := pieces_text t'
  rw [h, ht'] at ht
  obtain ⟨-, htail⟩ := List.cons.inj ht
  have hpieces : pieces t'.instruction.mnemonic = pieces t.instruction.mnemonic :=
    (List.append_inj' htail rfl).1
  have hi := Instruction.ofMnemonic?_mnemonic t.instruction
  rw [Instruction.ofMnemonic?, ← hpieces] at hi
  exact (Option.some.inj ((Instruction.ofMnemonic?_mnemonic t'.instruction).symm.trans hi)).symm

end TraceEntry

/-! ### What listings and traces determine -/

theorem map_eq_map_of_determined {α β γ : Type} {f : α → β} {g : α → γ}
    (h : ∀ a b, f a = f b → g a = g b) {xs ys : List α} (he : xs.map f = ys.map f) :
    xs.map g = ys.map g := by
  induction xs generalizing ys with
  | nil =>
      obtain rfl : ys = [] := List.map_eq_nil_iff.mp he.symm
      rfl
  | cons x xs ih =>
      cases ys with
      | nil => cases he
      | cons y ys =>
          obtain ⟨hhead, htail⟩ := List.cons.inj he
          rw [List.map_cons, List.map_cons, h x y hhead, ih htail]

/-- **Mnemonics are unambiguous.**  Two instructions with one mnemonic are the same instruction with
the same operands, of whatever size.  So two words that stand for instructions have one mnemonic
exactly if they stand for the same instruction, and a listing or a trace tells the instructions that
it shows. -/
theorem mnemonics_unambiguous :
    (∀ i j : Instruction, i.mnemonic = j.mnemonic → i = j) ∧
      (∀ a b i j, Instruction.decode a = .ok i → Instruction.decode b = .ok j →
        (i.mnemonic = j.mnemonic ↔ i = j)) ∧
      (∀ listing listing' : List Listing.Entry,
        listing.map (fun e => e.instruction.map (·.mnemonic)) =
            listing'.map (fun e => e.instruction.map (·.mnemonic)) →
          listing.map (·.instruction) = listing'.map (·.instruction)) ∧
      ∀ trace trace' : List TraceEntry, trace.map (·.text) = trace'.map (·.text) →
        trace.map (·.instruction) = trace'.map (·.instruction) := by
  have hentry : ∀ e e' : Listing.Entry,
      e.instruction.map (·.mnemonic) = e'.instruction.map (·.mnemonic) →
        e.instruction = e'.instruction :=
    fun _ _ => (Option.map_inj_right fun _ _ => Instruction.mnemonic_injective).mp
  exact ⟨fun i j => Instruction.mnemonic_injective,
    fun a b i j _ _ => ⟨Instruction.mnemonic_injective, congrArg _⟩,
    fun _ _ => map_eq_map_of_determined hentry,
    fun _ _ => map_eq_map_of_determined fun _ _ => TraceEntry.instruction_eq_of_text_eq⟩

-- Names, registers and numerals are told apart, and a numeral may have any width.
example : Instruction.ofMnemonic? "LOAD VDEAD, DELAY" = some (.readDelay 0xDEAD) ∧
    Instruction.ofMnemonic? "LOAD VDEAD, DE1A" = some (.loadValue 0xDEAD 0xDE1A) := by
  decide

end Chip8
