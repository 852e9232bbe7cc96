import Chip8.Fault

/-! # The keypad

Sixteen keys, numbered `0` to `15`, each up or down.  The host writes the keys and the machine
reads them.  A key number from outside is any integer and is refused unless it names a key. -/

namespace Chip8

/-- The state of the sixteen keys. -/
structure Keypad where
  keys : Vector Bool 16
deriving DecidableEq

namespace Keypad

/-- The number of keys. -/
def size : Nat := 16

/-- The keypad with all keys up. -/
def released : Keypad := ⟨Vector.replicate 16 false⟩

/-- Whether the key is down. -/
def isDown (p : Keypad) (key : Fin 16) : Bool := p.keys[key]

/-- Moves a key. -/
def set (p : Keypad) (key : Fin 16) (down : Bool) : Keypad := ⟨p.keys.set key down⟩

/-- The key of a number. -/
def key (number : Int) : Except Fault (Fin 16) :=
  if h : 0 ≤ number ∧ number < size then .ok ⟨number.toNat, (Int.toNat_lt h.1).mpr h.2⟩
  else .error (.unknownKey number)

/-- Moves the key of a number. -/
def set? (p : Keypad) (number : Int) (down : Bool) : Except Fault Keypad :=
  (key number).map fun k => p.set k down

/-- Whether the key of a number is down. -/
def isDown? (p : Keypad) (number : Int) : Except Fault Bool := (key number).map p.isDown

/-- The keys that are down, lowest first. -/
def pressed (p : Keypad) : List (Fin 16) := (List.finRange 16).filter p.isDown

theorem key_eq_ok_iff {number : Int} {k : Fin 16} : key number = .ok k ↔ number = (k : Nat) := by
  unfold key
  split
  · next h =>
    rw [Except.ok.injEq, Fin.ext_iff]
    show number.toNat = (k : Nat) ↔ _
    omega
  · next h =>
    have hk : ((k : Nat) : Int) < size := Int.ofNat_lt.mpr k.isLt
    simp only [reduceCtorEq, false_iff]
    omega

theorem key_eq_error_iff {number : Int} {f : Fault} :
    key number = .error f ↔ ¬ (0 ≤ number ∧ number < 16) ∧ f = .unknownKey number := by
  show (if h : 0 ≤ number ∧ number < 16 then _ else _) = _ ↔ _
  split <;> simp_all [eq_comm]

@[ext] theorem ext {p p' : Keypad} (eq : ∀ k, p.isDown k = p'.isDown k) : p = p' := by
  obtain ⟨keys⟩ := p
  obtain ⟨keys'⟩ := p'
  congr 1
  apply Vector.ext
  intro k hk
  exact eq ⟨k, hk⟩

theorem isDown_set (p : Keypad) (k j : Fin 16) (down : Bool) :
    (p.set k down).isDown j = if j = k then down else p.isDown j := by
  simp only [isDown, set, Fin.getElem_fin, Vector.getElem_set, Fin.ext_iff, eq_comm]

end Keypad

end Chip8
