import Chip8.Proofs.History

/-! # What memory holds behind a history of loads

An image is loaded as a whole or not at all, and a load that is done replaces the bytes of memory
under the image by those of the image (`toList_perform_request`): none is inserted, and none falls
off the end.  So a load leaves every address alone that it does not reach
(`read_performAll_of_not_reaches`), and a byte of memory is known from the last image that was laid
over it (`getElem?_of_lastOver`).  Every address that was reached at all has such an image
(`exists_lastOver`); the others hold the bytes that stood there before.  Nothing but memory takes
part (`exists_memory_performAll`). -/

namespace Chip8

/-- An image and the address it is to be loaded at. -/
structure Image where
  data : List UInt8
  offset : Int
deriving DecidableEq, Repr

namespace Image

/-- The request to load an image. -/
def request (image : Image) : Request := .load image.data image.offset

/-- Whether all bytes of an image have a place in memory. -/
def Fits (image : Image) : Prop := Memory.Holds image.offset image.data.length

instance (image : Image) : Decidable image.Fits :=
  inferInstanceAs (Decidable (Memory.Holds image.offset image.data.length))

/-- Whether an image is loaded, and one of its bytes falls on an address. -/
def Reaches (image : Image) (a : Nat) : Prop :=
  image.Fits ∧ image.offset ≤ a ∧ a < image.offset + image.data.length

/-- The last one of some images that falls on an address. -/
structure LastOver (images : List Image) (a : Nat) (image : Image) : Prop where
  reaches : image.Reaches a
  last : ∃ before after, images = before ++ image :: after ∧ ∀ later ∈ after, ¬ later.Reaches a

variable {image : Image} {images : List Image} {a : Nat}

theorem not_fits_iff :
    ¬ image.Fits ↔ image.offset < 0 ∨ 4096 < image.offset + image.data.length := by
  unfold Fits Memory.Holds
  omega

theorem exists_lastOver (h : ∃ image ∈ images, image.Reaches a) :
    ∃ image, LastOver images a image := by
  induction images with
  | nil => simp at h
  | cons first images ih =>
      by_cases hlater : ∃ image ∈ images, image.Reaches a
      · obtain ⟨image, hreaches, before, after, rfl, hafter⟩ := ih hlater
        exact ⟨image, hreaches, first :: before, after, rfl, hafter⟩
      · obtain ⟨image, hmem, hreaches⟩ := h
        rcases List.mem_cons.mp hmem with rfl | hmem
        · exact ⟨image, hreaches, [], images, rfl, fun later hl hr => hlater ⟨later, hl, hr⟩⟩
        · exact absurd ⟨image, hmem, hreaches⟩ hlater

end Image

/-! ### Memory as a list -/

namespace Memory

theorem getElem_toList {m : Memory} {k : Nat} (h : k < m.bytes.toList.length) :
    m.bytes.toList[k] = m.read k := by
  have hk : k < 4096 := by simpa using h
  simp [read, hk]

/-- A write of bytes that fit replaces as many bytes as it is given, and keeps all others at their
addresses. -/
theorem toList_write {m : Memory} {start : Nat} {data : List UInt8}
    (fits : start + data.length ≤ 4096) :
    (m.write start data).bytes.toList =
      m.bytes.toList.take start ++ data ++ m.bytes.toList.drop (start + data.length) := by
  have hleft : (m.bytes.toList.take start).length = start := by
    rw [List.length_take, Vector.length_toList]
    omega
  have hmiddle : (m.bytes.toList.take start ++ data).length = start + data.length := by
    rw [List.length_append, hleft]
  refine List.ext_getElem ?_ fun k hk _ => ?_
  · rw [List.length_append, hmiddle, List.length_drop, Vector.length_toList, Vector.length_toList]
    omega
  · have hsize : k < 4096 := by simpa using hk
    rw [getElem_toList, read_write]
    by_cases hbefore : k < start
    · rw [dif_neg (by omega), List.getElem_append_left (by omega),
        List.getElem_append_left (by omega), List.getElem_take, getElem_toList]
    · by_cases hinside : k < start + data.length
      · rw [dif_pos ⟨by omega, by omega, hsize⟩, List.getElem_append_left (by omega),
          List.getElem_append_right (by omega)]
        simp only [hleft]
      · rw [dif_neg (by omega), List.getElem_append_right (by omega), List.getElem_drop,
          getElem_toList, hmiddle, Nat.add_sub_cancel' (by omega)]

end Memory

namespace Machine

open Image

variable {m : Machine} {image : Image} {images : List Image} {a : Nat} {f : Fault}

/-! ### One load -/

theorem perform_request_of_fits (h : image.Fits) (m : Machine) :
    m.perform image.request =
      (.ok none, { m with memory := m.memory.write image.offset.toNat image.data }) := by
  unfold Fits at h
  simp only [request, perform, perform.silent, load, if_pos h, Except.map]

theorem perform_request_of_not_fits (h : ¬ image.Fits) (m : Machine) :
    m.perform image.request = (.error (.imageTooLarge image.data.length image.offset), m) := by
  unfold Fits at h
  simp only [request, perform, perform.silent, load, if_neg h, Except.map]

theorem perform_request_eq_error_iff :
    (m.perform image.request).1 = .error f ↔
      (image.offset < 0 ∨ 4096 < image.offset + image.data.length) ∧
        f = .imageTooLarge image.data.length image.offset := by
  rw [← not_fits_iff]
  by_cases h : image.Fits
  · simp [perform_request_of_fits h, h]
  · simp [perform_request_of_not_fits h, h, eq_comm]

theorem perform_request_of_error (h : (m.perform image.request).1 = .error f) :
    (m.perform image.request).2 = m := by
  have hfits : ¬ image.Fits := not_fits_iff.mpr (perform_request_eq_error_iff.mp h).1
  rw [perform_request_of_not_fits hfits]

theorem toList_perform_request (h : (m.perform image.request).1 = .ok none) :
    (m.perform image.request).2.memory.bytes.toList =
      m.memory.bytes.toList.take image.offset.toNat ++ image.data ++
        m.memory.bytes.toList.drop (image.offset.toNat + image.data.length) := by
  by_cases hfits : image.Fits
  · rw [perform_request_of_fits hfits]
    obtain ⟨hlow, hhigh⟩ := hfits
    exact Memory.toList_write (by omega)
  · rw [perform_request_of_not_fits hfits] at h
    cases h

theorem read_perform_of_not_reaches (h : ¬ image.Reaches a) (m : Machine) :
    (m.perform image.request).2.memory.read a = m.memory.read a := by
  by_cases hfits : image.Fits
  · obtain ⟨hlow, hhigh⟩ := hfits
    have hout : ¬ (image.offset ≤ a ∧ a < image.offset + image.data.length) :=
      fun hin => h ⟨⟨hlow, hhigh⟩, hin⟩
    rw [perform_request_of_fits ⟨hlow, hhigh⟩]
    show (m.memory.write image.offset.toNat image.data).read a = _
    rw [Memory.read_write, dif_neg (by omega)]
  · rw [perform_request_of_not_fits hfits]

theorem getElem?_of_reaches (h : image.Reaches a) (m : Machine) :
    image.data[(a - image.offset).toNat]? =
      some ((m.perform image.request).2.memory.read a) := by
  obtain ⟨⟨hlow, hhigh⟩, hin⟩ := h
  have hindex : (a - image.offset).toNat = a - image.offset.toNat := by omega
  rw [perform_request_of_fits ⟨hlow, hhigh⟩, hindex, List.getElem?_eq_getElem (by omega)]
  show _ = some ((m.memory.write image.offset.toNat image.data).read a)
  rw [Memory.read_write, dif_pos ⟨by omega, by omega, by omega⟩]

/-! ### A history of loads -/

theorem performAll_request_keeps {P : Machine → Prop}
    (hkeep : ∀ image ∈ images, ∀ m, P m → P (m.perform image.request).2) (h : P m) :
    P (m.performAll (images.map request)).2 := by
  have hrequests : ∀ r ∈ images.map request, ∃ image ∈ images, r = image.request := by
    intro r hr
    obtain ⟨image, hmem, rfl⟩ := List.mem_map.mp hr
    exact ⟨image, hmem, rfl⟩
  refine performAll_keeps ?_ hrequests h
  rintro m _ ⟨image, hmem, rfl⟩
  exact hkeep image hmem m

theorem exists_memory_performAll (m : Machine) (images : List Image) :
    ∃ memory, (m.performAll (images.map request)).2 = { m with memory } := by
  refine performAll_request_keeps (P := fun now => ∃ memory, now = { m with memory }) ?_
    ⟨m.memory, rfl⟩
  rintro image - _ ⟨memory, rfl⟩
  exact exists_memory_load { m with memory } image.data image.offset

theorem read_performAll_of_not_reaches (h : ∀ image ∈ images, ¬ image.Reaches a) (m : Machine) :
    (m.performAll (images.map request)).2.memory.read a = m.memory.read a :=
  performAll_request_keeps (P := fun now => now.memory.read a = m.memory.read a)
    (fun image hmem now hnow => (read_perform_of_not_reaches (h image hmem) now).trans hnow) rfl

/-- The last image that falls on an address tells the byte that stands there. -/
theorem getElem?_of_lastOver (h : LastOver images a image) (m : Machine) :
    image.data[(a - image.offset).toNat]? =
      some ((m.performAll (images.map request)).2.memory.read a) := by
  obtain ⟨hreaches, before, after, rfl, hafter⟩ := h
  rw [List.map_append, List.map_cons, performAll_append_snd, performAll_cons_snd,
    read_performAll_of_not_reaches hafter]
  exact getElem?_of_reaches hreaches _

/-- **Loads are all or nothing, and the last one wins.**  A load is refused exactly if its image
does not fit at its address, and then changes nothing; otherwise the bytes under the image are
replaced, one for one.  Behind any loads, refused ones among them, each byte is that of the last
image that falls on it, or else as before, and nothing but memory has changed. -/
theorem loads_all_or_nothing (m : Machine) (images : List Image) :
    let now := (m.performAll (images.map request)).2
    (∀ image : Image,
        (∀ f, (now.perform image.request).1 = .error f ↔
          (image.offset < 0 ∨ 4096 < image.offset + image.data.length) ∧
            f = .imageTooLarge image.data.length image.offset) ∧
        (∀ f, (now.perform image.request).1 = .error f → (now.perform image.request).2 = now) ∧
        ((now.perform image.request).1 = .ok none →
          (now.perform image.request).2.memory.bytes.toList =
            now.memory.bytes.toList.take image.offset.toNat ++ image.data ++
              now.memory.bytes.toList.drop (image.offset.toNat + image.data.length))) ∧
      now.memory.bytes.toList.length = 4096 ∧
      (∀ a image, LastOver images a image →
        image.data[(a - image.offset).toNat]? = some (now.memory.read a)) ∧
      (∀ a, (¬ ∃ image, LastOver images a image) → now.memory.read a = m.memory.read a) ∧
      ∃ memory, now = { m with memory } := by
  intro now
  refine ⟨fun image => ⟨fun f => perform_request_eq_error_iff, fun f => perform_request_of_error,
    toList_perform_request⟩, Vector.length_toList, fun a image h => getElem?_of_lastOver h m,
    fun a hnone => ?_, exists_memory_performAll m images⟩
  have hout : ∀ image ∈ images, ¬ image.Reaches a := fun image hmem hreaches =>
    hnone (exists_lastOver ⟨image, hmem, hreaches⟩)
  exact read_performAll_of_not_reaches hout m

-- Nothing at all still fits behind the last byte of memory.
example : Image.Fits ⟨[], 4096⟩ ∧ ¬ Image.Fits ⟨[7], 4096⟩ ∧ ¬ Image.Fits ⟨[], -1⟩ := by
  decide

set_option maxRecDepth 20000 in
-- Of the images on address 1 the second one is the last, since the third is refused.
example :
    let images : List Image := [⟨[1, 2, 3, 4], 0⟩, ⟨[5, 6], 1⟩, ⟨[7, 8], -1⟩]
    (((new {} (.cycling #[])).performAll (images.map request)).2.memory.slice 0 4) =
      [1, 5, 6, 4] := by
  decide +kernel

end Machine

end Chip8
