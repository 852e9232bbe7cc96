import Chip8.Proofs.Disassembly

/-! # A listing and the machine read the same words

A listing reads its words off the image, two bytes at a time; a machine reads them off memory, at
whatever address its program counter shows.  Once the image is loaded both see the same bytes
(`Machine.fetch_load`), up to the last word that fits before the end of memory, and so the listing
says of each of its words what the machine will answer there.

Listings of parts put together are the listing of the whole, as long as the cut does not fall
between the two bytes of a word (`Listing.ofBytes_append`). -/

namespace Chip8.Machine

variable {m : Machine} {data : List UInt8} {off : Int}

theorem fetch_load (hload : (m.load data off).1 = .ok ()) {p : Nat} (hp : p + 1 < data.length) :
    { (m.load data off).2 with pc := off + p }.fetch =
      Instruction.decode (Instruction.word data[p] data[p + 1]) := by
  obtain ⟨⟨hlow, hhigh⟩, he⟩ := load_eq_ok hload
  have hholds : Memory.Holds (off + p) 2 := by
    unfold Memory.Holds
    omega
  have haddress : (off + p).toNat = off.toNat + p := by omega
  rw [he, fetch, Memory.check, if_pos hholds]
  simp only [haddress]
  rw [Memory.word_write_add (by omega) hp]
  rfl

/-- **Listing and fetch agree.**  The listing of an image that was loaded has an entry for every
word of it, and a machine that stands at the address of an entry fetches its instruction, or blames
its word if there is none.  Of any image whatever, loaded or not, the listing may be cut between two
words, and an odd byte at the end does not show in it. -/
theorem listing_agrees_with_fetch :
    (∀ (m : Machine) data off, (m.load data off).1 = .ok () →
      (Listing.ofBytes data off).length = data.length / 2 ∧
      ∀ (k : Nat) entry, (Listing.ofBytes data off)[k]? = some entry →
        entry.address = off + 2 * k ∧
        (∃ high low, data[2 * k]? = some high ∧ data[2 * k + 1]? = some low ∧
          entry.word = 256 * high.toNat + low.toNat) ∧
        let now := { (m.load data off).2 with pc := entry.address }
        (∀ i, entry.instruction = some i → now.fetch = .ok i) ∧
        (entry.instruction = none → now.fetch = .error (.unknownOpcode entry.word))) ∧
    (∀ a b off, 2 ∣ a.length →
      Listing.ofBytes (a ++ b) off = Listing.ofBytes a off ++ Listing.ofBytes b (off + a.length)) ∧
    ∀ data b off, 2 ∣ data.length →
      Listing.ofBytes (data ++ [b]) off = Listing.ofBytes data off := by
  refine ⟨?_, fun a b off heven => Listing.ofBytes_append heven b off,
    fun data b off heven => Listing.ofBytes_append_singleton heven b off⟩
  intro m data off hload
  refine ⟨Listing.length_ofBytes data off, fun k entry hentry => ?_⟩
  rw [Listing.getElem?_ofBytes] at hentry
  by_cases hk : 2 * k + 1 < data.length
  · rw [dif_pos hk] at hentry
    obtain rfl := Option.some.inj hentry
    have hfetch := fetch_load hload hk
    rw [Int.natCast_mul] at hfetch
    refine ⟨rfl, ⟨_, _, List.getElem?_eq_getElem (by omega), List.getElem?_eq_getElem hk, ?_⟩,
      fun i hi => ?_, fun hi => ?_⟩
    · simp only [Instruction.word]
      omega
    · exact hfetch.trans (Instruction.decode_natCast_eq_ok_iff.mpr hi)
    · exact hfetch.trans (Instruction.decode_natCast_eq_error_iff.mpr ⟨hi, rfl⟩)
  · rw [dif_neg hk] at hentry
    cases hentry

/-- An image that fills memory from an odd address on, with a byte too many for its words: the
listing shows data where the machine finds no instruction. -/
theorem listing_agrees_with_fetch_at_end_of_memory :
    let data : List UInt8 := [0x12, 0x34, 0xFF, 0xFF, 0xAB]
    let m := new {} (.cycling #[])
    ((m.load data 4091).1 = .ok () ∧
        (Listing.ofBytes data 4091)[1]? = some ⟨4093, 0xFFFF, none⟩ ∧ 2 ∣ (data.take 4).length) ∧
      (Listing.ofBytes data 4091).length = 2 ∧
      { (m.load data 4091).2 with pc := 4093 }.fetch = .error (.unknownOpcode 0xFFFF) ∧
      Listing.ofBytes data 4091 = Listing.ofBytes (data.take 4) 4091 := by
  intro data m
  have hload : (m.load data 4091).1 = .ok () := rfl
  have hsecond : (Listing.ofBytes data 4091)[1]? = some ⟨4093, 0xFFFF, none⟩ := by decide
  have heven : 2 ∣ (data.take 4).length := by decide
  obtain ⟨hlisting, -, hodd⟩ := listing_agrees_with_fetch
  obtain ⟨hlength, hentries⟩ := hlisting m data 4091 hload
  obtain ⟨-, -, -, hblame⟩ := hentries 1 _ hsecond
  exact ⟨⟨hload, hsecond, heven⟩, hlength.trans (by decide), hblame rfl,
    hodd (data.take 4) 0xAB 4091 heven⟩

end Chip8.Machine
