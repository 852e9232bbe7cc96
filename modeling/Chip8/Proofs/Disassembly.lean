import Chip8.Listing
import Chip8.Proofs.Effect
import Chip8.Proofs.History

/-! # Execution stays inside the listing

A listing walks an image from its first byte on, two bytes at a time; entry `k` is the word of the
bytes `2 k` and `2 k + 1` (`Listing.getElem?_ofBytes`).  A machine that has loaded the image at an
even offset fetches such words only as long as

* its program counter and all addresses on its call stack are even, and
* the bytes of the image stand in memory unchanged.

`Aligned` is this invariant, and `Confined` what a tick has to respect so that it is kept: the
word at the program counter lies in the image, jumps go to even addresses, and nothing is stored
over the image. -/

namespace Chip8.Machine

variable {m m' : Machine} {i : Instruction} {data : List UInt8} {off : Int}

/-- The image stands in memory, and nothing points between two of its words. -/
structure Aligned (data : List UInt8) (off : Int) (m : Machine) : Prop where
  pc : 2 ∣ m.pc
  saved : ∀ a ∈ m.stack.entries, 2 ∣ a
  image : ∀ k (h : k < data.length), m.memory.read (off.toNat + k) = data[k]

/-- What a tick has to respect in order to stay within the words of the image. -/
structure Confined (data : List UInt8) (off : Int) (m : Machine) : Prop where
  inside : off ≤ m.pc ∧ m.pc + 2 ≤ off + data.length
  jump : ∀ a, m.tick.1 = .ok (.jump a) → 2 ∣ a
  call : ∀ a, m.tick.1 = .ok (.call a) → 2 ∣ a
  jumpOffset : ∀ x a, m.tick.1 = .ok (.jumpOffset x a) → 2 ∣ m.tick.2.pc
  storeDecimal : ∀ x, m.tick.1 = .ok (.storeDecimal x) →
    ∀ a, m.index ≤ a → a < m.index + 3 → ¬ (off ≤ a ∧ a < off + data.length)
  storeRegisters : ∀ x, m.tick.1 = .ok (.storeRegisters x) →
    ∀ a, m.index ≤ a → a < m.index + (x + 1) → ¬ (off ≤ a ∧ a < off + data.length)

theorem nextPc_even (hpc : 2 ∣ m.pc) (hsaved : ∀ a ∈ m.stack.entries, 2 ∣ a)
    (hjump : ∀ a, i = .jump a → 2 ∣ a) (hcall : ∀ a, i = .call a → 2 ∣ a)
    (hoffset : ∀ x a, i = .jumpOffset x a → 2 ∣ m.nextPc i) : 2 ∣ m.nextPc i := by
  cases i with
  | ret =>
      cases hs : m.stack.entries with
      | nil => simp [nextPc, hs]
      | cons a rest =>
          rw [nextPc, hs]
          exact hsaved a (by rw [hs]; exact List.mem_cons_self)
  | jump a =>
      have := hjump a rfl
      simp only [nextPc]
      omega
  | call a =>
      have := hcall a rfl
      simp only [nextPc]
      omega
  | jumpOffset x a => exact hoffset x a rfl
  | _ =>
      simp only [nextPc]
      rcases increment_cases m _ with hk | hk | hk
      all_goals
        rw [hk]
        omega

theorem nextStack_even (hpc : 2 ∣ m.pc) (hsaved : ∀ a ∈ m.stack.entries, 2 ∣ a) :
    ∀ a ∈ (m.nextStack i).entries, 2 ∣ a := by
  cases i with
  | ret => exact fun a ha => hsaved a (List.mem_of_mem_tail ha)
  | call b =>
      intro a ha
      rcases List.mem_cons.mp ha with rfl | ha
      · omega
      · exact hsaved a ha
  | _ => exact hsaved

/-- No address that a confined tick stores to belongs to the image. -/
theorem Confined.stored_apart (hc : Confined data off m) (ht : m.tick.1 = .ok i) {a : Int}
    (hlow : m.index ≤ a) (hhigh : a < m.index + (m.stored i).length) :
    ¬ (off ≤ a ∧ a < off + data.length) := by
  cases i with
  | storeDecimal x => exact hc.storeDecimal x ht a hlow hhigh
  | storeRegisters x =>
      rw [length_stored_storeRegisters] at hhigh
      exact hc.storeRegisters x ht a hlow hhigh
  | _ =>
      simp only [stored, List.length_nil] at hhigh
      omega

theorem Aligned.tick (ha : Aligned data off m) (hoff : 0 ≤ off) (hc : Confined data off m) :
    Aligned data off m.tick.2 := by
  rcases ht : m.tick.1 with f | i
  · rcases tick_error ht with he | he <;> rw [he]
    · exact ha
    · exact { ha with }
  · obtain ⟨_, he⟩ := effect_of_tick ht
    refine ⟨?_, ?_, ?_⟩
    · rw [he.pc]
      refine nextPc_even ha.pc ha.saved ?_ ?_ ?_
      · rintro a rfl
        exact hc.jump a ht
      · rintro a rfl
        exact hc.call a ht
      · rintro x a rfl
        rw [← he.pc]
        exact hc.jumpOffset x a ht
    · rw [he.stack]
      exact nextStack_even ha.pc ha.saved
    · intro k hk
      rw [he.read_eq, ha.image k hk]
      rintro ⟨hlow, hhigh⟩
      exact hc.stored_apart ht hlow hhigh (by omega)

theorem Aligned.listing_pc (ha : Aligned data off m) (hoff : 0 ≤ off) (heven : 2 ∣ off)
    (hlow : off ≤ m.pc) (hhigh : m.pc + 2 ≤ off + data.length) :
    (Listing.ofBytes data off)[(m.pc - off).toNat / 2]? =
      some ⟨m.pc, m.memory.word m.pc.toNat,
        Instruction.ofWord? (m.memory.word m.pc.toNat)⟩ := by
  have hpc := ha.pc
  obtain ⟨k, hk⟩ : ∃ k : Nat, m.pc = off + 2 * k := ⟨(m.pc - off).toNat / 2, by omega⟩
  have hindex : (m.pc - off).toNat / 2 = k := by omega
  have hlen : 2 * k + 1 < data.length := by omega
  have hhi : m.memory.read m.pc.toNat = data[2 * k] := by
    rw [← ha.image (2 * k) (by omega)]
    congr 1
    omega
  have hlo : m.memory.read (m.pc.toNat + 1) = data[2 * k + 1] := by
    rw [← ha.image (2 * k + 1) hlen]
    congr 1
    omega
  rw [hindex, Listing.getElem?_ofBytes, dif_pos hlen, Memory.word, hhi, hlo, hk]

/-! ### A run behind the load -/

theorem load_eq_ok (hload : (m.load data off).1 = .ok ()) :
    Memory.Holds off data.length ∧
      (m.load data off).2 = { m with memory := m.memory.write off.toNat data } := by
  unfold load at hload ⊢
  by_cases h : Memory.Holds off data.length
  · rw [if_pos h]
    exact ⟨h, rfl⟩
  · rw [if_neg h] at hload
    cases hload

theorem Aligned.load (hload : (m.load data off).1 = .ok ()) (hpc : 2 ∣ (m.load data off).2.pc)
    (hsaved : ∀ a ∈ (m.load data off).2.stack.entries, 2 ∣ a) :
    Aligned data off (m.load data off).2 where
  pc := hpc
  saved := hsaved
  image := by
    obtain ⟨⟨hlow, hhigh⟩, he⟩ := load_eq_ok hload
    have hfits : off.toNat + data.length ≤ 4096 := by omega
    intro k hk
    rw [he]
    exact Memory.read_write_add hfits hk

/-- **Execution follows the listing.**  As long as the ticks behind a load at an even offset are
confined to the words of the image, the program counter and the saved addresses stay even, and
every tick fetches the instruction of the entry at the program counter; it blames a word exactly
where this entry has no instruction. -/
theorem execution_follows_listing {n : Nat} (hload : (m.load data off).1 = .ok ())
    (hoff : 2 ∣ off) (hpc : 2 ∣ (m.load data off).2.pc)
    (hsaved : ∀ a ∈ (m.load data off).2.stack.entries, 2 ∣ a)
    (hrun : ∀ k < n, Confined data off ((m.load data off).2.ticked k)) :
    (∀ k ≤ n, 2 ∣ ((m.load data off).2.ticked k).pc ∧
      ∀ a ∈ ((m.load data off).2.ticked k).stack.entries, 2 ∣ a) ∧
    ∀ k < n,
      let now := (m.load data off).2.ticked k
      ∃ entry, (Listing.ofBytes data off)[(now.pc - off).toNat / 2]? = some entry ∧
        entry.address = now.pc ∧
        (∀ i, entry.instruction = some i ↔ now.fetch = .ok i) ∧
        (entry.instruction = none ↔ now.tick.1 = .error (.unknownOpcode entry.word)) := by
  obtain ⟨hlow, hhigh⟩ := (load_eq_ok hload).1
  have haligned : ∀ k ≤ n, Aligned data off ((m.load data off).2.ticked k) :=
    ticked_keeps (fun k hk ha => ha.tick hlow (hrun k hk)) (.load hload hpc hsaved)
  refine ⟨fun k hk => ⟨(haligned k hk).pc, (haligned k hk).saved⟩, ?_⟩
  intro k hk now
  have hinside : off ≤ now.pc ∧ now.pc + 2 ≤ off + data.length := (hrun k hk).inside
  have hmemory : Memory.Holds now.pc 2 := by
    unfold Memory.Holds
    omega
  refine ⟨_, (haligned k (Nat.le_of_lt hk)).listing_pc hlow hoff hinside.1 hinside.2, rfl, ?_, ?_⟩
  · intro i
    rw [fetch_eq_ok_iff]
    exact ⟨fun hi => ⟨hmemory, hi⟩, fun hi => hi.2⟩
  · rw [tick_eq_unknownOpcode_iff, fetch_eq_error_iff]
    constructor
    · intro hi
      exact Or.inr ⟨hmemory, hi, rfl⟩
    · rintro (⟨hout, _⟩ | ⟨_, hi, _⟩)
      · exact absurd hmemory hout
      · exact hi

set_option maxRecDepth 20000 in
/-- A call over a word of data, and a return into it. -/
theorem execution_follows_listing_into_data :
    let data : List UInt8 := [0x22, 0x04, 0xFF, 0xFF, 0x00, 0xEE]
    let m := new {} (.cycling #[])
    let start := (m.load data).2
    ((m.load data).1 = .ok () ∧ (2 : Int) ∣ 0x200 ∧ 2 ∣ start.pc ∧
        (∀ a ∈ start.stack.entries, 2 ∣ a) ∧ ∀ k < 3, Confined data 0x200 (start.ticked k)) ∧
      2 ∣ (start.ticked 3).pc ∧
      (start.ticked 2).tick.1 = .error (.unknownOpcode 0xFFFF) := by
  intro data m start
  obtain ⟨⟨hpc₀, hcall⟩, ⟨hpc₁, hret⟩, ⟨hpc₂, hdata⟩⟩ :
      ((start.ticked 0).pc = 0x200 ∧ (start.ticked 0).tick.1 = .ok (.call 0x204)) ∧
        ((start.ticked 1).pc = 0x204 ∧ (start.ticked 1).tick.1 = .ok .ret) ∧
        ((start.ticked 2).pc = 0x202 ∧
          (start.ticked 2).tick.1 = .error (.unknownOpcode 0xFFFF)) := by
    decide +kernel
  have hload : (m.load data).1 = .ok () := rfl
  have hoff : (2 : Int) ∣ 0x200 := by decide
  have hpc : 2 ∣ start.pc := by decide
  have hsaved : ∀ a ∈ start.stack.entries, 2 ∣ a := nofun
  have hrun : ∀ k < 3, Confined data 0x200 (start.ticked k) := by
    rintro (_ | _ | _ | k) hk
    · constructor
      case inside =>
        rw [hpc₀]
        decide
      case call =>
        rw [hcall]
        rintro a ⟨⟩
        decide
      all_goals
        rw [hcall]
        nofun
    · constructor
      case inside =>
        rw [hpc₁]
        decide
      all_goals
        rw [hret]
        nofun
    · constructor
      case inside =>
        rw [hpc₂]
        decide
      all_goals
        rw [hdata]
        nofun
    · omega
  obtain ⟨heven, hentries⟩ := execution_follows_listing hload hoff hpc hsaved hrun
  obtain ⟨entry, hentry, _, _, hblame⟩ := hentries 2 (by omega)
  have hword : (Listing.ofBytes data 0x200)[1]? = some ⟨0x202, 0xFFFF, none⟩ := by decide
  have hsame : some (Listing.Entry.mk 0x202 0xFFFF none) = some entry := by
    rw [← hentry, hpc₂]
    exact hword.symm
  cases hsame
  exact ⟨⟨hload, hoff, hpc, hsaved, hrun⟩, (heven 3 (Nat.le_refl 3)).1, hblame.mp rfl⟩

end Chip8.Machine
