import Chip8.Proofs.Effect
import Chip8.Proofs.History

/-! # The order of ticks and host calls

Between ticks a host counts the timers down and moves keys.  Timers and keypad are the *panel* of a
machine, and an instruction takes little notice of it: `execute_withPanel` says that a machine with
another panel executes an instruction to the same result, unless it reads the delay timer or tests
a key, and that the panel behind it is the other panel, with the timer set that the instruction
sets.

`Interferes` lists the instructions that do have something in common with a host call.  Apart from
these a host call and a tick can change places (`tick_perform_comm`), and by moving calls one by one
behind all ticks, any two interleavings of the same calls with the same number of ticks come to the
same end (`Interleaves.interchangeable`). -/

namespace Chip8

/-- The register whose key an instruction tests. -/
def Instruction.key? : Instruction → Option Nat
  | .skipKeyDown x | .skipKeyUp x | .waitKey x => some x
  | _ => none

/-- The calls of a host between ticks: counting the timers down, and moving a key that exists. -/
def Request.IsHostCall : Request → Prop
  | .decrementTimers => True
  | .setKey key _ => 0 ≤ key ∧ key ≤ 15
  | _ => False

theorem Request.IsHostCall.cases {h : Request} (hh : h.IsHostCall) :
    h = .decrementTimers ∨ ∃ (k : Fin 16) (down : Bool), h = .setKey k down := by
  cases h with
  | decrementTimers => exact Or.inl rfl
  | setKey key down =>
      obtain ⟨hlow, hhigh⟩ := hh
      refine Or.inr ⟨⟨key.toNat, by omega⟩, down, ?_⟩
      congr 1
      show key = (key.toNat : Int)
      omega
  | _ => exact absurd hh id

theorem Keypad.set?_fin (p : Keypad) (k : Fin 16) (down : Bool) :
    p.set? k down = .ok (p.set k down) := by
  rw [Keypad.set?, Keypad.key_eq_ok_iff.mpr rfl]
  rfl

namespace Machine

variable {m : Machine} {h g : Request} {i : Instruction} {calls rs rs' rs'' : List Request}
  {n : Nat}

/-! ### The panel -/

/-- The machine with other timers and another keypad. -/
def withPanel (m : Machine) (delay sound : UInt8) (keypad : Keypad) : Machine :=
  { m with delay, sound, keypad }

/-- An instruction that neither reads the delay timer nor tests a key with another state does the
same under another panel. -/
theorem execute_withPanel (m : Machine) (i : Instruction) (delay sound : UInt8) (keypad : Keypad)
    (hdelay : ∀ x, i = .readDelay x → delay = m.delay)
    (hkey : ∀ x, i.key? = some x → keypad.isDown (m.keyOf x) = m.keypad.isDown (m.keyOf x)) :
    let other := m.withPanel delay sound keypad
    other.execute i =
      ((m.execute i).1,
        (m.execute i).2.withPanel (other.nextDelay i) (other.nextSound i) keypad) := by
  intro other
  cases i with
  | ret =>
      simp only [execute, other, withPanel]
      cases m.stack.pop <;> rfl
  | call a =>
      simp only [execute, other, withPanel]
      cases m.stack.push (m.pc + 2) <;> rfl
  | draw x y height =>
      simp only [execute, drawSprite, withBlock, other, withPanel]
      cases Memory.check m.index height with
      | error f => rfl
      | ok u =>
          dsimp only
          by_cases hempty : m.display.width = 0 ∨ m.display.height = 0
          · rw [if_pos hempty, if_pos hempty]
            rfl
          · rw [if_neg hempty, if_neg hempty]
            cases Display.plot _ m.display <;> rfl
  | storeDecimal x =>
      simp only [execute, withBlock, other, withPanel]
      cases Memory.check m.index 3 <;> rfl
  | storeRegisters x | loadRegisters x =>
      simp only [execute, withBlock, other, withPanel]
      cases Memory.check m.index (x + 1) <;> rfl
  | skipKeyDown x | skipKeyUp x | waitKey x =>
      have hsame : other.keypad.isDown (other.keyOf x) = m.keypad.isDown (m.keyOf x) := hkey x rfl
      simp only [execute, hsame]
      rfl
  | readDelay x =>
      obtain rfl := hdelay x rfl
      rfl
  | _ => rfl

theorem panel_execute (m : Machine) (i : Instruction) :
    (m.execute i).2.delay = m.nextDelay i ∧ (m.execute i).2.sound = m.nextSound i ∧
      (m.execute i).2.keypad = m.keypad := by
  -- The machine under its own panel is the machine itself.
  have hself := execute_withPanel m i m.delay m.sound m.keypad (fun _ _ => rfl) (fun _ _ => rfl)
  have hmachine := congrArg Prod.snd hself
  have hdelay := congrArg Machine.delay hmachine
  have hsound := congrArg Machine.sound hmachine
  have hkeypad := congrArg Machine.keypad hmachine
  exact ⟨hdelay, hsound, hkeypad⟩

theorem panel_tick (hf : m.fetch = .ok i) :
    m.tick.2.delay = m.nextDelay i ∧ m.tick.2.sound = m.nextSound i ∧
      m.tick.2.keypad = m.keypad := by
  rw [tick_eq_execute hf]
  exact panel_execute m i

/-- Fetching takes no notice of the panel, so a tick takes no more than its instruction. -/
theorem tick_withPanel (hf : m.fetch = .ok i) (delay sound : UInt8) (keypad : Keypad)
    (hdelay : ∀ x, i = .readDelay x → delay = m.delay)
    (hkey : ∀ x, i.key? = some x → keypad.isDown (m.keyOf x) = m.keypad.isDown (m.keyOf x)) :
    let other := m.withPanel delay sound keypad
    other.tick =
      (m.tick.1, m.tick.2.withPanel (other.nextDelay i) (other.nextSound i) keypad) := by
  intro other
  have hother : other.fetch = .ok i := hf
  rw [tick_eq_execute hother, tick_eq_execute hf,
    execute_withPanel m i delay sound keypad hdelay hkey]

/-! ### One tick and one host call -/

/-- The host call writes what the instruction reads, or reads what it writes. -/
def Interferes (m : Machine) : Request → Instruction → Prop
  | .decrementTimers, .readDelay _ => True
  | .decrementTimers, .setDelay _ => True
  | .decrementTimers, .setSound _ => True
  | .setKey key _, .skipKeyDown x => ((m.v.read x).toNat % 16 : Nat) = key
  | .setKey key _, .skipKeyUp x => ((m.v.read x).toNat % 16 : Nat) = key
  | .setKey key _, .waitKey x => ((m.v.read x).toNat % 16 : Nat) = key
  | _, _ => False

instance (m : Machine) (h : Request) (i : Instruction) : Decidable (m.Interferes h i) := by
  unfold Interferes
  split <;> infer_instance

/-- The next tick carries out no instruction that interferes with the host call. -/
def Apart (m : Machine) (h : Request) : Prop := ∀ i, m.tick.1 = .ok i → ¬ m.Interferes h i

instance (m : Machine) (h : Request) : Decidable (m.Apart h) :=
  match ht : m.tick.1 with
  | .error _ => isTrue fun i hi => by rw [ht] at hi; cases hi
  | .ok i =>
      if hi : m.Interferes h i then isFalse fun hapart => hapart i ht hi
      else isTrue fun j hj => by rw [ht] at hj; cases hj; exact hi

theorem tick_of_interferes (hf : m.fetch = .ok i) (hi : m.Interferes h i) : m.tick.1 = .ok i := by
  unfold Interferes at hi
  split at hi
  case h_7 => exact hi.elim
  all_goals
    rw [tick_of_execute_ok hf rfl]

/-- What the next tick carries out can be told from the word it fetches. -/
theorem apart_iff : m.Apart h ↔ ∀ i, m.fetch = .ok i → ¬ m.Interferes h i := by
  constructor
  · intro hapart i hf hi
    exact hapart i (tick_of_interferes hf hi) hi
  · intro hfetch i ht
    exact hfetch i (effect_of_tick ht).1

theorem perform_setKey (m : Machine) (k : Fin 16) (down : Bool) :
    m.perform (.setKey k down) =
      (.ok none, m.withPanel m.delay m.sound (m.keypad.set k down)) := by
  simp only [perform, perform.silent, setKey, Keypad.set?_fin]
  rfl

/-- A tick and a host call that it has nothing in common with can change places. -/
theorem tick_perform_comm (hh : h.IsHostCall) (hapart : m.Apart h) :
    (m.perform h).2.tick = (m.tick.1, (m.tick.2.perform h).2) := by
  cases hf : m.fetch with
  | error f =>
      have hother : (m.perform h).2.fetch = .error f := by
        rcases hh.cases with rfl | ⟨k, down, rfl⟩
        · exact hf
        · rw [perform_setKey]
          exact hf
      rw [tick_of_fetch_error hother, tick_of_fetch_error hf]
  | ok i =>
      have hfree : ¬ m.Interferes h i := apart_iff.mp hapart i hf
      obtain ⟨hdelay, hsound, hkeypad⟩ := panel_tick hf
      rcases hh.cases with rfl | ⟨k, down, rfl⟩
      · show (m.withPanel (countDown m.delay) (countDown m.sound) m.keypad).tick =
          (m.tick.1, m.tick.2.withPanel (countDown m.tick.2.delay) (countDown m.tick.2.sound)
            m.tick.2.keypad)
        rw [tick_withPanel hf _ _ _ ?_ (fun _ _ => rfl), hdelay, hsound, hkeypad]
        · cases i with
          | setDelay x | setSound x => exact absurd trivial hfree
          | _ => rfl
        · rintro x rfl
          exact absurd trivial hfree
      · rw [perform_setKey, perform_setKey, hdelay, hsound, hkeypad]
        rw [tick_withPanel hf _ _ _ (fun _ _ => rfl) ?_]
        · rfl
        · intro x hx
          have hne : m.keyOf x ≠ k := by
            rintro rfl
            refine hfree ?_
            cases i with
            | skipKeyDown y | skipKeyUp y | waitKey y =>
                cases hx
                rfl
            | _ => cases hx
          rw [Keypad.isDown_set, if_neg hne]

/-! ### A run of ticks and a list of host calls -/

/-- A history that consists of the host calls `calls`, in order, and of `n` ticks. -/
inductive Interleaves : List Request → Nat → List Request → Prop
  | nil : Interleaves [] 0 []
  | tick {calls rs : List Request} {n : Nat} :
      Interleaves calls n rs → Interleaves calls (n + 1) (.tick :: rs)
  | call {h : Request} {calls rs : List Request} {n : Nat} :
      h.IsHostCall → Interleaves calls n rs → Interleaves (h :: calls) n (h :: rs)

/-- What came of the ticks of a history. -/
def tickAnswers : Machine → List Request → List (Except Fault Instruction)
  | _, [] => []
  | m, .tick :: rs => m.tick.1 :: tickAnswers m.tick.2 rs
  | m, r :: rs => tickAnswers (m.perform r).2 rs

/-- Along a history no tick carries out an instruction that interferes with one of the calls. -/
def RunsApart (calls : List Request) : Machine → List Request → Prop
  | _, [] => True
  | m, r :: rs => (r = .tick → ∀ h ∈ calls, m.Apart h) ∧ RunsApart calls (m.perform r).2 rs

instance decidableRunsApart (calls : List Request) :
    (m : Machine) → (rs : List Request) → Decidable (RunsApart calls m rs)
  | _, [] => isTrue trivial
  | m, r :: rs =>
      have := decidableRunsApart calls (m.perform r).2 rs
      inferInstanceAs (Decidable ((r = .tick → ∀ h ∈ calls, m.Apart h) ∧ _))

/-- Two histories of which one may stand for the other, as long as their ticks do not interfere with
the calls. -/
structure Interchangeable (calls rs rs' : List Request) : Prop where
  apart : ∀ m, RunsApart calls m rs ↔ RunsApart calls m rs'
  answers : ∀ m, RunsApart calls m rs → tickAnswers m rs = tickAnswers m rs'
  final : ∀ m, RunsApart calls m rs → (m.performAll rs).2 = (m.performAll rs').2

theorem tickAnswers_of_ne_tick (m : Machine) {r : Request} (hr : r ≠ .tick) :
    tickAnswers m (r :: rs) = tickAnswers (m.perform r).2 rs := by
  cases r with
  | tick => exact absurd rfl hr
  | _ => rfl

theorem tickAnswers_call (m : Machine) (hh : h.IsHostCall) :
    tickAnswers m (h :: rs) = tickAnswers (m.perform h).2 rs := by
  apply tickAnswers_of_ne_tick
  rintro rfl
  exact hh

theorem runsApart_call (m : Machine) (hh : h.IsHostCall) :
    RunsApart calls m (h :: rs) ↔ RunsApart calls (m.perform h).2 rs := by
  have hne : h ≠ .tick := by
    rintro rfl
    exact hh
  simp only [RunsApart, hne, false_implies, true_and]

theorem runsApart_tick (m : Machine) :
    RunsApart calls m (.tick :: rs) ↔
      (∀ h ∈ calls, m.Apart h) ∧ RunsApart calls m.tick.2 rs := by
  simp only [RunsApart, true_implies, perform]

namespace Interchangeable

theorem refl (rs : List Request) : Interchangeable calls rs rs :=
  ⟨fun _ => Iff.rfl, fun _ _ => rfl, fun _ _ => rfl⟩

theorem symm (hi : Interchangeable calls rs rs') : Interchangeable calls rs' rs where
  apart m := (hi.apart m).symm
  answers m hm := (hi.answers m ((hi.apart m).mpr hm)).symm
  final m hm := (hi.final m ((hi.apart m).mpr hm)).symm

theorem trans (hi : Interchangeable calls rs rs') (hi' : Interchangeable calls rs' rs'') :
    Interchangeable calls rs rs'' where
  apart m := (hi.apart m).trans (hi'.apart m)
  answers m hm := (hi.answers m hm).trans (hi'.answers m ((hi.apart m).mp hm))
  final m hm := (hi.final m hm).trans (hi'.final m ((hi.apart m).mp hm))

theorem tick (hi : Interchangeable calls rs rs') :
    Interchangeable calls (.tick :: rs) (.tick :: rs') where
  apart m := by
    rw [runsApart_tick, runsApart_tick]
    exact and_congr_right fun _ => hi.apart m.tick.2
  answers m hm := congrArg (m.tick.1 :: ·) (hi.answers m.tick.2 hm.2)
  final m hm := hi.final m.tick.2 hm.2

theorem call (hh : h.IsHostCall) (hi : Interchangeable calls rs rs') :
    Interchangeable calls (h :: rs) (h :: rs') where
  apart m := by
    rw [runsApart_call m hh, runsApart_call m hh]
    exact hi.apart _
  answers m hm := by
    rw [tickAnswers_call m hh, tickAnswers_call m hh]
    exact hi.answers _ ((runsApart_call m hh).mp hm)
  final m hm := hi.final _ ((runsApart_call m hh).mp hm)

end Interchangeable

theorem apart_perform_iff (m : Machine) (hh : h.IsHostCall) :
    (m.perform h).2.Apart g ↔ m.Apart g := by
  rw [apart_iff, apart_iff]
  rcases hh.cases with rfl | ⟨k, down, rfl⟩
  · exact Iff.rfl
  · rw [perform_setKey]
    exact Iff.rfl

theorem interchangeable_swap (hh : h.IsHostCall) (hmem : h ∈ calls) :
    Interchangeable calls (h :: .tick :: rs) (.tick :: h :: rs) := by
  have hcomm : ∀ m : Machine, (∀ g ∈ calls, m.Apart g) →
      (m.perform h).2.tick = (m.tick.1, (m.tick.2.perform h).2) :=
    fun m hm => tick_perform_comm hh (hm h hmem)
  have hsame : ∀ m : Machine, (∀ g ∈ calls, (m.perform h).2.Apart g) ↔ ∀ g ∈ calls, m.Apart g := by
    intro m
    simp only [apart_perform_iff m hh]
  have hapart : ∀ m, RunsApart calls m (h :: .tick :: rs) ↔
      (∀ g ∈ calls, m.Apart g) ∧ RunsApart calls (m.tick.2.perform h).2 rs := by
    intro m
    rw [runsApart_call m hh, runsApart_tick, hsame m]
    refine and_congr_right fun hm => ?_
    rw [hcomm m hm]
  constructor
  · intro m
    rw [hapart m, runsApart_tick, runsApart_call _ hh]
  · intro m hm
    rw [tickAnswers_call m hh, tickAnswers, tickAnswers, tickAnswers_call _ hh,
      hcomm m ((hapart m).mp hm).1]
  · intro m hm
    show ((m.perform h).2.tick.2.performAll rs).2 = ((m.tick.2.perform h).2.performAll rs).2
    rw [hcomm m ((hapart m).mp hm).1]

/-- A call moves behind all ticks that follow it. -/
theorem interchangeable_move (hh : h.IsHostCall) (hmem : h ∈ calls) (n : Nat) :
    Interchangeable calls (h :: (List.replicate n .tick ++ rs))
      (List.replicate n .tick ++ h :: rs) := by
  induction n with
  | zero => exact .refl _
  | succ n ih => exact (interchangeable_swap hh hmem).trans ih.tick

/-- Every interleaving may be sorted: first all ticks, then all calls. -/
theorem Interleaves.interchangeable {sub : List Request} (hi : Interleaves sub n rs)
    (hsub : ∀ h ∈ sub, h ∈ calls) :
    Interchangeable calls rs (List.replicate n .tick ++ sub) := by
  induction hi with
  | nil => exact .refl _
  | tick _ ih => exact (ih hsub).tick
  | call hh _ ih =>
      have hrest := ih fun g hg => hsub g (List.mem_cons_of_mem _ hg)
      exact (hrest.call hh).trans (interchangeable_move hh (hsub _ List.mem_cons_self) _)

/-- **The order of ticks and host calls does not matter** where they have nothing in common.  A tick
and a host call change places, unless the tick carries out an instruction that interferes with the
call.  And if in one interleaving of host calls with ticks no tick carries out an instruction that
interferes with one of the calls, then in every interleaving of these calls with as many ticks, the
ticks have the same answers and the machine is the same in the end. -/
theorem tick_order_independent (m : Machine) :
    (∀ h, h.IsHostCall → (∀ i, m.tick.1 = .ok i → ¬ m.Interferes h i) →
      (m.perform h).2.tick = (m.tick.1, (m.tick.2.perform h).2)) ∧
    ∀ (calls : List Request) (n : Nat) (rs rs' : List Request),
      Interleaves calls n rs → Interleaves calls n rs' → RunsApart calls m rs →
      tickAnswers m rs' = tickAnswers m rs ∧ (m.performAll rs').2 = (m.performAll rs).2 := by
  constructor
  · intro h hh hapart
    exact tick_perform_comm hh hapart
  · intro calls n rs rs' hrs hrs' hruns
    have hsorted : Interchangeable calls rs rs' :=
      (hrs.interchangeable fun _ hg => hg).trans (hrs'.interchangeable fun _ hg => hg).symm
    exact ⟨(hsorted.answers m hruns).symm, (hsorted.final m hruns).symm⟩

set_option maxRecDepth 20000 in
/-- A run that tests key `0` and fails in the end, with the timers counted down and key `5` moved at
different times. -/
theorem tick_order_independent_of_other_key :
    let m := { ((new {} (.cycling #[])).load [0xE0, 0x9E, 0x60, 0x03, 0xFF, 0xFF]).2 with
      delay := 9 }
    let calls : List Request := [.decrementTimers, .setKey 5 true]
    let early : List Request := [.decrementTimers, .setKey 5 true, .tick, .tick, .tick]
    let late : List Request := [.tick, .decrementTimers, .tick, .tick, .setKey 5 true]
    (Interleaves calls 3 early ∧ Interleaves calls 3 late ∧ RunsApart calls m early) ∧
      tickAnswers m late =
        [.ok (.skipKeyDown 0), .ok (.loadValue 0 3), .error (.unknownOpcode 0xFFFF)] ∧
      (m.performAll late).2 = (m.performAll early).2 ∧
      (m.perform .decrementTimers).2.tick =
        (m.tick.1, (m.tick.2.perform .decrementTimers).2) := by
  intro m calls early late
  have hkey : (Request.setKey 5 true).IsHostCall := ⟨by decide, by decide⟩
  have hearly : Interleaves calls 3 early :=
    .call trivial (.call hkey (.tick (.tick (.tick .nil))))
  have hlate : Interleaves calls 3 late :=
    .tick (.call trivial (.tick (.tick (.call hkey .nil))))
  have hruns : RunsApart calls m early := by decide +kernel
  have hfirst : m.Apart .decrementTimers := by decide +kernel
  have hanswers : tickAnswers m early =
      [.ok (.skipKeyDown 0), .ok (.loadValue 0 3), .error (.unknownOpcode 0xFFFF)] := by
    decide +kernel
  obtain ⟨hcomm, hall⟩ := tick_order_independent m
  obtain ⟨hsame, hfinal⟩ := hall calls 3 early late hearly hlate hruns
  exact ⟨⟨hearly, hlate, hruns⟩, hsame.trans hanswers, hfinal, hcomm _ trivial hfirst⟩

end Machine

end Chip8
