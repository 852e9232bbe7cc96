import Chip8.Proofs.Effect
import Chip8.Proofs.History

/-! # Timers count down from their last start

A timer is started by its own instruction, which a tick has to complete, and by a reset
(`Machine.starts`).  A request that does not start it counts it down or leaves it
(`timer_of_not_starts`), and a countdown stops at zero, so behind a history without a start a timer
is what it was less the number of countdowns (`timer_performAll`).  Since every history can be cut
behind its last start (`exists_lastStart`), this tells what a timer shows behind any history of a
new machine. -/

namespace Chip8

/-- The two timers. -/
inductive Timer where
  | delay
  | sound
deriving DecidableEq

/-- The register that an instruction copies into a timer. -/
def Timer.source? : Timer → Instruction → Option Nat
  | .delay, .setDelay x => some x
  | .sound, .setSound x => some x
  | _, _ => none

/-- The requests that carry out one instruction of the program at most. -/
def Request.IsSingle : Request → Prop
  | .run _ | .execute _ => False
  | _ => True

namespace Machine

variable {m m' : Machine} {i : Instruction} {r : Request} {rs before after : List Request}
  {t : Timer} {a : UInt8}

/-- What a timer shows. -/
def timer (m : Machine) : Timer → UInt8
  | .delay => m.delay
  | .sound => m.sound

/-- The value that a request starts a timer with: a register, by a completed tick, or zero, by a
reset. -/
def starts (m : Machine) (t : Timer) : Request → Option UInt8
  | .tick =>
      match m.tick.1 with
      | .ok i => (t.source? i).map m.v.read
      | .error _ => none
  | .reset => some 0
  | _ => none

/-- The history `rs` of `m` is cut behind the last start of a timer, which was at `a`.  If there is
none, the cut lies before the history, and the timer stood at zero. -/
structure LastStart (t : Timer) (m : Machine) (rs before after : List Request) (a : UInt8) :
    Prop where
  cut : rs = before ++ after
  start : (before = [] ∧ a = 0) ∨
    ∃ earlier r, before = earlier ++ [r] ∧ (m.performAll earlier).2.starts t r = some a
  since : Along (fun m' r => m'.starts t r = none) (m.performAll before).2 after

/-! ### One request -/

theorem timer_of_effect (he : Effect m i m') (t : Timer) :
    m'.timer t = ((t.source? i).map m.v.read).getD (m.timer t) := by
  cases t with
  | delay =>
      apply he.delay.trans
      cases i <;> rfl
  | sound =>
      apply he.sound.trans
      cases i <;> rfl

theorem timer_tick (m : Machine) (t : Timer) :
    m.tick.2.timer t = (m.starts t .tick).getD (m.timer t) := by
  cases ht : m.tick.1 with
  | error f =>
      simp only [starts, ht, Option.getD_none]
      rcases tick_error ht with he | he <;> rw [he]
      cases t <;> rfl
  | ok i =>
      simp only [starts, ht]
      exact timer_of_effect (effect_of_tick ht).2 t

theorem timer_of_starts (h : m.starts t r = some a) : (m.perform r).2.timer t = a := by
  cases r with
  | tick =>
      apply (timer_tick m t).trans
      rw [h, Option.getD_some]
  | reset =>
      cases h
      cases t <;> rfl
  | _ => cases h

theorem timer_load (m : Machine) (data : List UInt8) (offset : Int) (t : Timer) :
    (m.load data offset).2.timer t = m.timer t := by
  obtain ⟨memory, he⟩ := exists_memory_load m data offset
  rw [he]
  cases t <;> rfl

theorem timer_of_not_starts (hr : r.IsSingle) (h : m.starts t r = none) :
    (m.perform r).2.timer t =
      if r = .decrementTimers then countDown (m.timer t) else m.timer t := by
  cases r with
  | tick =>
      apply (timer_tick m t).trans
      rw [h, Option.getD_none]
      rfl
  | decrementTimers => cases t <;> rfl
  | setKey key down =>
      obtain ⟨keypad, he⟩ := exists_keypad_setKey m key down
      show (m.setKey key down).2.timer t = m.timer t
      rw [he]
      cases t <;> rfl
  | load data offset => exact timer_load m data offset t
  | loadFont offset => exact timer_load m Font.glyphs offset t
  | fetch => rfl
  | reset => cases h
  | run _ | execute _ => exact hr.elim

/-! ### A history -/

theorem timer_performAll (hrs : ∀ r ∈ rs, r.IsSingle)
    (h : Along (fun m' r => m'.starts t r = none) m rs) :
    ((m.performAll rs).2.timer t).toNat = (m.timer t).toNat - rs.count .decrementTimers := by
  induction rs generalizing m with
  | nil => rfl
  | cons r rs ih =>
      obtain ⟨hr, hrest⟩ := List.forall_mem_cons.mp hrs
      obtain ⟨hfirst, hlater⟩ := h
      rw [performAll_cons_snd, ih hrest hlater, timer_of_not_starts hr hfirst]
      by_cases hcount : r = .decrementTimers
      · rw [if_pos hcount, hcount, List.count_cons_self, toNat_countDown]
        omega
      · rw [if_neg hcount, List.count_cons_of_ne hcount]

theorem exists_lastStart (t : Timer) (m : Machine) (rs : List Request) :
    ∃ before after a, LastStart t m rs before after a := by
  induction rs generalizing m with
  | nil => exact ⟨[], [], 0, rfl, Or.inl ⟨rfl, rfl⟩, trivial⟩
  | cons r rs ih =>
      obtain ⟨before, after, a, hcut, hstart, hsince⟩ := ih (m.perform r).2
      rcases hstart with ⟨rfl, rfl⟩ | ⟨earlier, r', rfl, hr'⟩
      · obtain rfl : rs = after := hcut
        -- The rest has no start, so the first request decides.
        cases hr : m.starts t r with
        | none => exact ⟨[], r :: rs, 0, rfl, Or.inl ⟨rfl, rfl⟩, hr, hsince⟩
        | some a => exact ⟨[r], rs, a, rfl, Or.inr ⟨[], r, rfl, hr⟩, hsince⟩
      · exact ⟨r :: (earlier ++ [r']), after, a, congrArg (r :: ·) hcut,
          Or.inr ⟨r :: earlier, r', rfl, hr'⟩, hsince⟩

/-- A timer that stood at zero has been counting down from its last start. -/
theorem LastStart.timer_eq (h : LastStart t m rs before after a) (hrs : ∀ r ∈ rs, r.IsSingle)
    (hzero : m.timer t = 0) :
    ((m.performAll rs).2.timer t).toNat = a.toNat - after.count .decrementTimers := by
  obtain ⟨rfl, hstart, hsince⟩ := h
  have hafter : ∀ r ∈ after, r.IsSingle := fun r hr => hrs r (List.mem_append_right _ hr)
  have hvalue : (m.performAll before).2.timer t = a := by
    rcases hstart with ⟨rfl, rfl⟩ | ⟨earlier, r, rfl, hr⟩
    · exact hzero
    · rw [performAll_append_snd]
      exact timer_of_starts hr
  rw [performAll_append_snd, timer_performAll hafter hsince, hvalue]

theorem read_of_readDelay {x : Nat} (h : m.tick.1 = .ok (.readDelay x)) :
    m.tick.2.v.read x = m.timer .delay := by
  obtain ⟨-, he⟩ := tick_eq_ok_iff.mp (tick_eq_of_fst h)
  have hv : m.tick.2 = m.setRegister x m.delay := (congrArg Prod.snd he).symm
  rw [hv]
  show (m.v.write x m.delay).read x = m.delay
  rw [Registers.read_write, if_pos rfl]

/-- **Timers count down from their last start.**  A new machine goes through ticks, countdowns,
moves of keys, loads and resets in any order.  The history can be cut behind the last start of a
timer, a completed tick that copied `a` from a register or a reset with `a = 0`, or before all
requests with `a = 0` if there is none; and at any such cut the timer shows `a` less the number of
countdowns since then, or zero if they are more.  A tick that reads the delay timer puts what it
shows into the register. -/
theorem timers_count_down_from_last_start (dialect : Dialect) (random : RandomSource)
    (display : Display) (keypad : Keypad) (rs : List Request) (hrs : ∀ r ∈ rs, r.IsSingle) :
    let start := new dialect random display keypad
    let m := (start.performAll rs).2
    (∀ t, (∃ before after a, LastStart t start rs before after a) ∧
      ∀ before after a, LastStart t start rs before after a →
        (m.timer t).toNat = a.toNat - after.count .decrementTimers) ∧
    ∀ x, m.tick.1 = .ok (.readDelay x) → m.tick.2.v.read x = m.timer .delay := by
  intro start m
  refine ⟨fun t => ⟨exists_lastStart t start rs, fun before after a h => ?_⟩, fun x hx => ?_⟩
  · apply h.timer_eq hrs
    cases t <;> rfl
  · exact read_of_readDelay hx

set_option maxRecDepth 20000 in
/-- The delay timer is started at five and counted down past a tick that fails; the sound timer is
started in between. -/
theorem timers_count_down_past_failure :
    let before : List Request :=
      [.load [0x60, 0x05, 0xF0, 0x15, 0xF0, 0x18, 0xFF, 0xFF] 0x200, .tick, .tick]
    let after : List Request := [.decrementTimers, .tick, .setKey 3 true, .tick, .decrementTimers,
      .load [0xF1, 0x07] 0x206]
    let start := new {} (.cycling #[])
    let m := (start.performAll (before ++ after)).2
    ((∀ r ∈ before ++ after, r.IsSingle) ∧
        LastStart .delay start (before ++ after) before after 5 ∧
        m.tick.1 = .ok (.readDelay 1)) ∧
      m.timer .delay = 3 ∧ m.tick.2.v.read 1 = 3 ∧
      ∃ before' after' a, LastStart .sound start (before ++ after) before' after' a ∧
        (m.timer .sound).toNat = a.toNat - after'.count .decrementTimers := by
  intro before after start m
  have hrs : ∀ r ∈ before ++ after, r.IsSingle := by simp [before, after, Request.IsSingle]
  have hlast : LastStart .delay start (before ++ after) before after 5 := {
    cut := rfl
    start := Or.inr ⟨before.take 2, .tick, rfl, by decide +kernel⟩
    since := by decide +kernel }
  have hread : m.tick.1 = .ok (.readDelay 1) := by decide +kernel
  obtain ⟨htimers, hstore⟩ :=
    timers_count_down_from_last_start {} (.cycling #[]) .standard .released (before ++ after) hrs
  have hthree : m.timer .delay = 3 := UInt8.toNat_inj.mp ((htimers .delay).2 before after 5 hlast)
  obtain ⟨⟨before', after', a, hsound⟩, hvalue⟩ := htimers .sound
  exact ⟨⟨hrs, hlast, hread⟩, hthree, (hstore 1 hread).trans hthree, before', after', a, hsound,
    hvalue before' after' a hsound⟩

end Machine

end Chip8
