import Chip8.Host.Session
import Chip8.Proofs.Reachable
import Chip8.Proofs.Rendering

/-! # What a session shows

A session is compared with the machine alone.  `afterTurns n m batches k` is the machine `m` behind
`k` turns, each of `n` instructions and a batch of events; behind the last batch the user quits.

* A turn whose instructions are carried out shows the machine behind it, and ends the session if
  the user quits (`turn_of_ok`); a turn in which an instruction fails shows nothing and ends the
  session (`turn_of_error`).
* Every machine between two turns has the bounds of a reachable one (`inBounds_afterTurn`).  So its
  display fits the window (`exists_picture`), and an instruction fails for a fault of the program
  or for a memory range (`fault_of_run`).
* By induction on the batches, the turns of a session follow the machine (`turns_follow`): picture
  `k` shows the machine behind turn `k`, up to the first turn in which the user quits or an
  instruction fails.

`run_follows_machine` puts the blank picture of the opened window in front.  It covers the scales
from 1 to 256; at a larger scale the window is too long to be opened
(`window_refused_at_scale_257`).  The timer is started exactly if the window is opened and the
program loaded (`timer_run_iff`). -/

namespace Chip8

open Machine (InBounds)

namespace Session

variable {o : Options} {n : Nat} {scale : Int} {w : Window} {m m' : Machine} {f : Fault}
  {events : List Event} {batches : List (List Event)}

/-! ### The machine alone -/

/-- The user quits in a batch of events. -/
def Quits (events : List Event) : Prop := ∃ e ∈ events, e.Quits

instance (events : List Event) : Decidable (Quits events) :=
  inferInstanceAs (Decidable (∃ e ∈ events, e.Quits))

/-- The events of turn `k`, counted from zero.  At the end of the batches the user quits. -/
def batch (batches : List (List Event)) (k : Nat) : List Event := batches.getD k [.quit]

/-- The machine behind `n` instructions and a batch of events. -/
def afterTurn (n : Nat) (m : Machine) (events : List Event) : Machine :=
  events.foldl Event.apply (m.run n).2

/-- The machine behind `k` turns. -/
def afterTurns (n : Nat) (m : Machine) (batches : List (List Event)) : Nat → Machine
  | 0 => m
  | k + 1 => afterTurn n (afterTurns n m batches k) (batch batches k)

theorem afterTurns_cons_succ (k : Nat) :
    afterTurns n m (events :: batches) (k + 1) = afterTurns n (afterTurn n m events) batches k := by
  induction k with
  | zero => rfl
  | succ k ih =>
      show afterTurn n (afterTurns n m (events :: batches) (k + 1)) (batch batches k) = _
      rw [ih]
      rfl

/-- The instructions of turn `k` are carried out, and the user does not quit in it. -/
def GoesOn (n : Nat) (m : Machine) (batches : List (List Event)) (k : Nat) : Prop :=
  ((afterTurns n m batches k).run n).1 = .ok () ∧ ¬ Quits (batch batches k)

/-- Turn `k` is the last one: how many pictures were shown in all turns, and how the session
ends. -/
inductive EndsIn (n : Nat) (m : Machine) (batches : List (List Event)) (k : Nat) :
    Nat → Except Failure Nat → Prop
  | quit : ((afterTurns n m batches k).run n).1 = .ok () → Quits (batch batches k) →
      EndsIn n m batches k (k + 1) (.ok 0)
  | program {f : Fault} : ((afterTurns n m batches k).run n).1 = .error f → f.IsProgramFault →
      EndsIn n m batches k k (.ok 1)
  | memory {a : Int} {size : Nat} :
      ((afterTurns n m batches k).run n).1 = .error (.memoryRange a size) →
      EndsIn n m batches k k (.error (.fault (.memoryRange a size)))

/-- The window has the size of a display of 64 by 32 pixels at some scale. -/
structure HasScale (scale : Int) (w : Window) : Prop where
  ratio : w.ratio = scale
  width : (w.width : Int) = 64 * scale
  height : (w.height : Int) = 32 * scale

/-- The window is the picture of a display of 64 by 32 pixels: the real pixels of each square, and
the corner through which it is read, have the state of the pixel. -/
structure IsPicture (scale : Int) (d : Display) (w : Window) : Prop extends HasScale scale w where
  shows : w.Shows d
  corner : ∀ x y : Nat, x < 64 → y < 32 → w.get x y = .ok (d.lit x y)

/-- The pictures and the end of a session follow the machine from turn to turn. -/
structure Follows (scale : Int) (n : Nat) (m : Machine) (batches : List (List Event))
    (frames : List Window) (status : Except Failure Nat) : Prop where
  pictures : ∀ k frame, frames[k]? = some frame →
    IsPicture scale (afterTurns n m batches (k + 1)).display frame
  ends : ∃ k, (∀ j < k, GoesOn n m batches j) ∧ EndsIn n m batches k frames.length status

/-! ### One turn -/

theorem quits_cons {e : Event} : Quits (e :: events) ↔ e.Quits ∨ Quits events := by
  simp [Quits]

theorem handle_eq (m : Machine) (events : List Event) :
    m.handle events = (!decide (Quits events), events.foldl Event.apply m) := by
  have hfold : ∀ (running : Bool) (m : Machine),
      events.foldl (fun r e => (r.1 && !decide e.Quits, Event.apply r.2 e)) (running, m) =
        (running && !decide (Quits events), events.foldl Event.apply m) := by
    induction events with
    | nil =>
        intro running m
        simp [Quits]
    | cons e events ih =>
        intro running m
        have hq : decide (Quits (e :: events)) = (decide e.Quits || decide (Quits events)) := by
          rw [← Bool.decide_or]
          exact decide_eq_decide.mpr quits_cons
        rw [List.foldl_cons, ih, List.foldl_cons, hq, Bool.not_or, Bool.and_assoc]
  exact hfold true m

/-- Records or not, the instructions of a turn are those of a run. -/
theorem exists_entries (o : Options) (n : Nat) (m : Machine) :
    ∃ entries, (if o.verbose then m.trace n else ([], m.run n)) = (entries, m.run n) := by
  by_cases hv : o.verbose
  · refine ⟨(m.trace n).1, ?_⟩
    rw [if_pos hv, ← Machine.trace_snd]
  · exact ⟨[], if_neg hv⟩

theorem turn_of_error (h : (m.run n).1 = .error f) :
    (turn o n w m events).frame = none ∧ (turn o n w m events).status =
      some (if f.IsProgramFault then .ok 1 else .error (.fault f)) := by
  obtain ⟨entries, he⟩ := exists_entries o n m
  have hrun : m.run n = (.error f, (m.run n).2) := Prod.ext h rfl
  unfold turn
  rw [he, hrun]
  by_cases hf : f.IsProgramFault
  · simp [hf]
  · simp [hf]

theorem turn_of_ok {w' : Window} (h : (m.run n).1 = .ok ())
    (hd : w.draw (afterTurn n m events).display = (.ok (), w')) :
    (turn o n w m events).machine = afterTurn n m events ∧
      (turn o n w m events).frame = some w' ∧
      (turn o n w m events).status = if Quits events then some (.ok 0) else none := by
  obtain ⟨entries, he⟩ := exists_entries o n m
  have hrun : m.run n = (.ok (), (m.run n).2) := Prod.ext h rfl
  have hhandle : (m.run n).2.handle events = (!decide (Quits events), afterTurn n m events) :=
    handle_eq _ _
  unfold turn
  rw [he, hrun]
  simp only [hhandle, hd]
  by_cases hq : Quits events
  · simp [hq]
  · simp [hq]

theorem turns_of_some {status : Except Failure Nat}
    (h : (turn o n w m (batch batches 0)).status = some status) :
    (turns o n w m batches).status = status ∧
      (turns o n w m batches).frames = (turn o n w m (batch batches 0)).frame.toList := by
  cases batches with
  | nil =>
      have ht : (turn o n w m [.quit]).status = some status := h
      rw [turns, ht]
      exact ⟨rfl, rfl⟩
  | cons events batches =>
      have ht : (turn o n w m events).status = some status := h
      rw [turns, ht]
      exact ⟨rfl, rfl⟩

theorem turns_of_none {w' : Window} (h : (turn o n w m events).status = none)
    (hm : (turn o n w m events).machine = m') (hw : (turn o n w m events).frame = some w') :
    (turns o n w m (events :: batches)).status = (turns o n w' m' batches).status ∧
      (turns o n w m (events :: batches)).frames = w' :: (turns o n w' m' batches).frames := by
  simp only [turns, h, hm, hw]
  exact ⟨rfl, rfl⟩

/-! ### Machines between two turns -/

theorem inBounds_apply (hm : InBounds 64 32 m) (e : Event) : InBounds 64 32 (e.apply m) := by
  cases e with
  | timer => exact { hm with }
  | key k down =>
      simp only [Event.apply]
      split
      · exact { hm with }
      · exact hm
  | quit | other => exact hm

theorem inBounds_afterTurn (hm : InBounds 64 32 m) (events : List Event) :
    InBounds 64 32 (afterTurn n m events) := by
  have hrun : InBounds 64 32 (m.run n).2 := Machine.run_keeps (fun _ hm => hm.tick) n hm
  unfold afterTurn
  refine List.foldlRecOn events Event.apply hrun ?_
  intro m hm e _
  exact inBounds_apply hm e

theorem fault_of_tick (hm : InBounds 64 32 m) (h : m.tick.1 = .error f) :
    f.IsProgramFault ∨ ∃ a size, f = .memoryRange a size := by
  have hw := hm.width
  have hh := hm.height
  obtain ⟨hfault, -⟩ := Machine.tickFault_of_tick hm.depth (by omega) (by omega) (Prod.ext h rfl)
  cases hfault with
  | range _ => exact Or.inr ⟨_, _, rfl⟩
  | word _ _ => exact Or.inl trivial
  | instruction _ _ hr =>
      cases hr with
      | ret _ | call _ _ => exact Or.inl trivial
      | block _ _ => exact Or.inr ⟨_, _, rfl⟩
      | draw x y size _ hempty => omega

theorem fault_of_run (hm : InBounds 64 32 m) (h : (m.run n).1 = .error f) :
    f.IsProgramFault ∨ ∃ a size, f = .memoryRange a size := by
  induction n generalizing m with
  | zero => cases h
  | succ n ih =>
      have htick := hm.tick
      rw [Machine.run] at h
      rcases ht : m.tick with ⟨r, m'⟩
      rw [ht] at h htick
      cases r with
      | error g =>
          cases h
          have hg : m.tick.1 = .error f := by rw [ht]
          exact fault_of_tick hm hg
      | ok i => exact ih htick h

/-! ### Pictures -/

theorem exists_picture {d : Display} (hlow : 1 ≤ scale) (hhigh : scale ≤ 256)
    (hw : HasScale scale w) (hwidth : d.width = 64) (hheight : d.height = 32) :
    ∃ frame, w.draw d = (.ok (), frame) ∧ IsPicture scale d frame := by
  obtain ⟨rfl, hcolumns, hrows⟩ := hw
  have hfitsw : d.width * w.ratio < 0x80000000 := by
    rw [hwidth]
    omega
  have hfitsh : d.height * w.ratio < 0x80000000 := by
    rw [hheight]
    omega
  obtain ⟨grid, hdraw, hshows⟩ := Window.draw_shows hlow hfitsw hfitsh
  refine ⟨_, hdraw, ⟨rfl, hcolumns, hrows⟩, hshows, ?_⟩
  intro x y hx hy
  have hinx : (x : Int) * w.ratio < 64 * w.ratio :=
    Int.mul_lt_mul_of_pos_right (by omega) (by omega)
  have hiny : (y : Int) * w.ratio < 32 * w.ratio :=
    Int.mul_lt_mul_of_pos_right (by omega) (by omega)
  refine hshows.get hlow ?_ ?_ ?_ ?_
  · show (w.width : Int) ≤ 16384
    omega
  · show (w.height : Int) ≤ 16384
    omega
  · exact hcolumns ▸ hinx
  · exact hrows ▸ hiny

/-! ### All turns -/

theorem EndsIn.succ {k count : Nat} {status : Except Failure Nat}
    (h : EndsIn n (afterTurn n m events) batches k count status) :
    EndsIn n m (events :: batches) (k + 1) (count + 1) status := by
  have hmachine : afterTurns n m (events :: batches) (k + 1) =
    afterTurns n (afterTurn n m events) batches k := afterTurns_cons_succ k
  cases h with
  | quit hrun hquits => exact .quit (hmachine ▸ hrun) hquits
  | program hrun hf => exact .program (hmachine ▸ hrun) hf
  | memory hrun => exact .memory (hmachine ▸ hrun)

theorem Follows.cons {frame : Window} {frames : List Window} {status : Except Failure Nat}
    (hgo : GoesOn n m (events :: batches) 0)
    (hframe : IsPicture scale (afterTurn n m events).display frame)
    (h : Follows scale n (afterTurn n m events) batches frames status) :
    Follows scale n m (events :: batches) (frame :: frames) status where
  pictures := by
    intro k picture hk
    cases k with
    | zero =>
        cases hk
        exact hframe
    | succ k =>
        rw [afterTurns_cons_succ]
        exact h.pictures k picture hk
  ends := by
    obtain ⟨k, hbefore, hend⟩ := h.ends
    refine ⟨k + 1, ?_, hend.succ⟩
    intro j hj
    cases j with
    | zero => exact hgo
    | succ j =>
        have hgo' : GoesOn n (afterTurn n m events) batches j := hbefore j (by omega)
        unfold GoesOn at hgo' ⊢
        rw [afterTurns_cons_succ]
        exact hgo'

theorem follows_of_error (hm : InBounds 64 32 m) (hrun : (m.run n).1 = .error f) :
    Follows scale n m batches (turns o n w m batches).frames (turns o n w m batches).status := by
  obtain ⟨hframe, hstatus⟩ : (turn o n w m (batch batches 0)).frame = none ∧ _ :=
    turn_of_error hrun
  obtain ⟨hend, hframes⟩ := turns_of_some hstatus
  rw [hend, hframes, hframe]
  refine ⟨nofun, 0, nofun, ?_⟩
  rcases fault_of_run hm hrun with hf | ⟨a, size, rfl⟩
  · rw [if_pos hf]
    exact .program hrun hf
  · have hno : ¬ (Fault.memoryRange a size).IsProgramFault := id
    rw [if_neg hno]
    exact .memory hrun

theorem follows_of_quits (hlow : 1 ≤ scale) (hhigh : scale ≤ 256) (hw : HasScale scale w)
    (hm : InBounds 64 32 m) (hrun : (m.run n).1 = .ok ()) (hquits : Quits (batch batches 0)) :
    Follows scale n m batches (turns o n w m batches).frames (turns o n w m batches).status := by
  have hm' : InBounds 64 32 (afterTurn n m (batch batches 0)) := inBounds_afterTurn hm _
  obtain ⟨frame, hdraw, hpicture⟩ := exists_picture hlow hhigh hw hm'.width hm'.height
  obtain ⟨-, hframe, hstatus⟩ := turn_of_ok (o := o) hrun hdraw
  rw [if_pos hquits] at hstatus
  obtain ⟨hend, hframes⟩ := turns_of_some hstatus
  rw [hend, hframes, hframe]
  refine ⟨?_, 0, nofun, .quit hrun hquits⟩
  intro k picture hk
  obtain ⟨rfl, rfl⟩ : k = 0 ∧ frame = picture := by
    cases k with
    | zero => exact ⟨rfl, Option.some.inj hk⟩
    | succ k => cases hk
  exact hpicture

theorem turns_follow (hlow : 1 ≤ scale) (hhigh : scale ≤ 256) (hw : HasScale scale w)
    (hm : InBounds 64 32 m) :
    Follows scale n m batches (turns o n w m batches).frames (turns o n w m batches).status := by
  induction batches generalizing m w with
  | nil =>
      rcases hrun : (m.run n).1 with f | u
      · exact follows_of_error hm hrun
      · have hquits : Quits (batch [] 0) := ⟨.quit, List.mem_cons_self, trivial⟩
        exact follows_of_quits hlow hhigh hw hm hrun hquits
  | cons events batches ih =>
      rcases hrun : (m.run n).1 with f | u
      · exact follows_of_error hm hrun
      · by_cases hquits : Quits events
        · exact follows_of_quits hlow hhigh hw hm hrun hquits
        · have hm' : InBounds 64 32 (afterTurn n m events) := inBounds_afterTurn hm events
          obtain ⟨frame, hdraw, hpicture⟩ := exists_picture hlow hhigh hw hm'.width hm'.height
          obtain ⟨hmachine, hframe, hstatus⟩ := turn_of_ok (o := o) hrun hdraw
          rw [if_neg hquits] at hstatus
          obtain ⟨hend, hframes⟩ : (turns o n w m (events :: batches)).status = _ ∧ _ :=
            turns_of_none hstatus hmachine hframe
          rw [hend, hframes]
          exact (ih hpicture.toHasScale hm').cons ⟨hrun, hquits⟩ hpicture

/-! ### A whole session -/

theorem hasScale_blank (hlow : 1 ≤ scale) :
    HasScale scale (.blank scale (64 * scale).toNat (32 * scale).toNat) where
  ratio := rfl
  width := by
    show ((64 * scale).toNat : Int) = _
    omega
  height := by
    show ((32 * scale).toNat : Int) = _
    omega

theorem openWindow_eq (hscale : o.scale = some scale) (hlow : 1 ≤ scale) (hhigh : scale ≤ 256) :
    openWindow o = .ok (.blank scale (64 * scale).toNat (32 * scale).toNat) := by
  have hwide : 64 * scale ≤ Window.maxSide := by
    show 64 * scale ≤ 16384
    omega
  have hhigh : 32 * scale ≤ Window.maxSide := by
    show 32 * scale ≤ 16384
    omega
  have hcreate : Window.create scale 64 32 =
      .ok (.blank scale (64 * scale).toNat (32 * scale).toNat) :=
    Window.create_eq_blank (by omega) hwide (by omega) hhigh
  unfold openWindow
  rw [hscale]
  show (Window.create scale 64 32).mapError Failure.window = _
  rw [hcreate]
  rfl

theorem load_program {rom : List UInt8} (m : Machine) (hrom : rom.length ≤ 0xE00) :
    m.load rom = (.ok (), (m.load rom).2) := by
  have hfits : Memory.Holds (Machine.programStart : Nat) rom.length := by
    show (0 : Int) ≤ 0x200 ∧ (0x200 : Int) + rom.length ≤ 4096
    omega
  rw [Machine.load, if_pos hfits]

theorem run_eq_turns {rom : List UInt8} {random : RandomSource} {ticks : Int}
    (hopen : openWindow o = .ok w) (hload : (machine o random).load rom = (.ok (), m))
    (hticks : o.ticks = some ticks) :
    (run o (.ok rom) random batches).frames = w :: (turns o ticks.toNat w m batches).frames ∧
      (run o (.ok rom) random batches).status = (turns o ticks.toNat w m batches).status := by
  simp only [run, hopen, hload, play, hticks]
  exact ⟨trivial, trivial⟩

theorem timer_run_iff {program : Except FileError (List UInt8)} {random : RandomSource} :
    (run o program random batches).timer = true ↔
      ∃ w bytes, openWindow o = .ok w ∧ program = .ok bytes ∧
        Memory.Holds (Machine.programStart : Nat) bytes.length := by
  unfold run
  cases openWindow o with
  | error e => simp [Report.timer]
  | ok w =>
      cases program with
      | error e => simp [Report.timer]
      | ok bytes =>
          by_cases hfits : Memory.Holds (Machine.programStart : Nat) bytes.length
          · simp [Machine.load, hfits, Report.timer]
          · simp [Machine.load, hfits, Report.timer]

/-- **A session shows what the machine does.**  The opened window is blank.  Then picture `k` shows
the machine behind `k` turns, each of as many instructions as the user chose, and its batch of
events.  The session ends in the first turn in which the user quits, behind the picture of that
turn, or in which an instruction fails, without a picture. -/
theorem run_follows_machine (o : Options) (scale ticks : Int) (rom : List UInt8)
    (random : RandomSource) (batches : List (List Event)) (hscale : o.scale = some scale)
    (hlow : 1 ≤ scale) (hhigh : scale ≤ 256) (hticks : o.ticks = some ticks)
    (hrom : rom.length ≤ 0xE00) :
    let start := ((Machine.new o.dialect random).loadFont.2.load rom).2
    let report := run o (.ok rom) random batches
    ∃ later, report.frames =
        Window.blank scale (64 * scale).toNat (32 * scale).toNat :: later ∧
      Follows scale ticks.toNat start batches later report.status := by
  intro start report
  have hstart : InBounds 64 32 start := by
    have hnew : InBounds 64 32 (Machine.new o.dialect random) := .reset rfl rfl
    exact (hnew.load Font.glyphs Font.address).load rom Machine.programStart
  obtain ⟨hframes, hstatus⟩ : report.frames = _ ∧ report.status = _ :=
    run_eq_turns (openWindow_eq hscale hlow hhigh) (load_program (machine o random) hrom) hticks
  refine ⟨_, hframes, ?_⟩
  rw [hstatus]
  exact turns_follow hlow hhigh (hasScale_blank hlow) hstart

set_option maxRecDepth 20000 in
/-- At the largest scale, and with a picture of the glyph of the digit zero in its first turn. -/
theorem run_follows_machine_at_largest_scale :
    let o : Options := { rom := "rom.ch8", scale := some 256, ticks := some 2, verbose := true }
    let rom : List UInt8 := [0xA0, 0x00, 0xD0, 0x05, 0x12, 0x04]
    let batches : List (List Event) := [[.timer, .key (.pad 3) true], [.quit, .timer]]
    let start := ((Machine.new o.dialect (.cycling #[])).loadFont.2.load rom).2
    let report := run o (.ok rom) (.cycling #[]) batches
    (o.scale = some 256 ∧ o.ticks = some 2 ∧ rom.length ≤ 0xE00) ∧
      (afterTurns 2 start batches 1).display.lit 0 0 = true ∧
      ∃ later, report.frames = Window.blank 256 16384 8192 :: later ∧
        Follows 256 2 start batches later report.status := by
  intro o rom batches start report
  have hrom : rom.length ≤ 0xE00 := by decide
  have hlit : (afterTurns 2 start batches 1).display.lit 0 0 = true := by decide +kernel
  exact ⟨⟨rfl, rfl, hrom⟩, hlit, run_follows_machine o 256 2 rom (.cycling #[]) batches rfl
    (by decide) (by decide) rfl hrom⟩

set_option maxRecDepth 20000 in
/-- At a scale of 257 there is no window, and so no picture of a turn that nothing else prevents. -/
theorem window_refused_at_scale_257 :
    let o : Options := { rom := "rom.ch8", scale := some 257, ticks := some 10 }
    let rom : List UInt8 := [0x12, 0x00]
    let start := ((Machine.new o.dialect (.cycling #[])).loadFont.2.load rom).2
    let report := run o (.ok rom) (.cycling #[]) []
    EndsIn 10 start [] 0 1 (.ok 0) ∧
      report.status = .error (.window .sizeOutOfRange) ∧ report.frames = [] ∧
      ¬ ∃ later, report.frames = Window.blank 257 16448 8224 :: later ∧
        Follows 257 10 start [] later report.status := by
  intro o rom start report
  have hrun : (start.run 10).1 = .ok () := by decide +kernel
  have hquits : Quits (batch [] 0) := by decide
  have hstatus : report.status = .error (.window .sizeOutOfRange) := rfl
  have hframes : report.frames = [] := rfl
  refine ⟨.quit hrun hquits, hstatus, hframes, ?_⟩
  rintro ⟨later, hlater, -⟩
  rw [hframes] at hlater
  cases hlater

end Session

end Chip8
