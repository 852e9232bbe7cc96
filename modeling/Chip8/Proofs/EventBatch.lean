import Chip8.Proofs.Interleaving
import Chip8.Proofs.Session
import Chip8.Proofs.Timers

/-! # A batch of events in closed form

Events are handled one after the other, yet what a batch does to the machine can be said without
going through it.  It moves the panel at most (`exists_withPanel_apply`): the timers lose the ticks
of the host's timer (`timer_foldl_apply`), and a key stands where its last move left it
(`isDown_foldl_apply`), since the sixteen keys of the machine stand for sixteen different keys of
the keyboard (`HostKey.target?_eq_some_iff`).  All other events, among them those that quit, might
as well be left out (`foldl_apply_filter`). -/

namespace Chip8

/-- The key of the keyboard that stands for a key of the machine. -/
def HostKey.ofKey (k : Fin 16) : HostKey :=
  if h : k.val < 10 then .pad ⟨k, h⟩ else .letter (Char.ofNat ('a'.toNat + (k - 10)))

theorem HostKey.target?_ofKey (k : Fin 16) : (HostKey.ofKey k).target? = some k := by
  revert k
  decide

/-- No two keys of the keyboard stand for one key of the machine. -/
theorem HostKey.target?_eq_some_iff {h : HostKey} {k : Fin 16} :
    h.target? = some k ↔ h = HostKey.ofKey k := by
  constructor
  · intro ht
    unfold target? at ht
    split at ht
    · cases ht
      simp [ofKey]
    all_goals cases ht <;> rfl
  · rintro rfl
    exact target?_ofKey k

namespace Event

/-- Where an event moves a key of the machine to, if it does. -/
def move? (k : Fin 16) : Event → Option Bool
  | key h down => if h = HostKey.ofKey k then some down else none
  | _ => none

/-- Whether an event does anything to the machine: a tick of the host's timer does, and a key that
stands for a key of the machine. -/
def acts : Event → Bool
  | timer => true
  | key h _ => h.target?.isSome
  | quit | other => false

end Event

theorem Event.move?_of_not_acts {e : Event} (he : e.acts = false) (k : Fin 16) :
    e.move? k = none := by
  cases e with
  | timer => cases he
  | key h down =>
      have hne : h ≠ HostKey.ofKey k := by
        rintro rfl
        rw [acts, HostKey.target?_ofKey] at he
        cases he
      exact if_neg hne
  | quit | other => rfl

/-- Where the last of the events that move a key of the machine moves it to. -/
def lastMove? (k : Fin 16) (events : List Event) : Option Bool :=
  (events.filterMap (Event.move? k)).getLast?

theorem lastMove?_cons (k : Fin 16) (e : Event) (events : List Event) :
    lastMove? k (e :: events) = (lastMove? k events).or (e.move? k) :=
  getLast?_filterMap_cons (Event.move? k) e events

theorem Session.quits_iff {events : List Event} :
    Quits events ↔ .quit ∈ events ∨ ∃ down, .key (.letter 'q') down ∈ events := by
  constructor
  · rintro ⟨e, he, hquits⟩
    cases e with
    | quit => exact Or.inl he
    | key h down =>
        obtain rfl : h = .letter 'q' := hquits
        exact Or.inr ⟨down, he⟩
    | timer | other => exact hquits.elim
  · rintro (he | ⟨down, he⟩)
    · exact ⟨_, he, trivial⟩
    · exact ⟨_, he, rfl⟩

theorem Session.quits_append {events later : List Event} :
    Quits (events ++ later) ↔ Quits events ∨ Quits later := by
  simp only [Quits, List.mem_append, or_and_right, exists_or]

namespace Machine

variable {m : Machine} {e : Event} {events : List Event} {t : Timer} {k : Fin 16}

/-! ### One event -/

theorem apply_of_target? {h : HostKey} (ht : h.target? = some k) (m : Machine) (down : Bool) :
    Event.apply m (.key h down) = { m with keypad := m.keypad.set k down } := by
  simp only [Event.apply, ht]

theorem apply_of_not_acts (he : e.acts = false) (m : Machine) : e.apply m = m := by
  cases e with
  | timer => cases he
  | key h down =>
      have hnone : h.target? = none := Option.not_isSome_iff_eq_none.mp (ne_true_of_eq_false he)
      simp only [Event.apply, hnone]
  | quit | other => rfl

/-- An event is a tick of the host's timer, moves one key of the machine, or does nothing. -/
theorem apply_cases (e : Event) :
    e = .timer ∨ (∃ h k down, e = .key h down ∧ h.target? = some k) ∨ e.acts = false := by
  cases e with
  | timer => exact Or.inl rfl
  | key h down =>
      cases ht : h.target? with
      | none => exact Or.inr (Or.inr (by rw [Event.acts, ht]; rfl))
      | some k => exact Or.inr (Or.inl ⟨h, k, down, rfl, ht⟩)
  | quit | other => exact Or.inr (Or.inr rfl)

theorem exists_withPanel_apply (m : Machine) (e : Event) :
    ∃ delay sound keypad, e.apply m = m.withPanel delay sound keypad := by
  rcases apply_cases e with rfl | ⟨h, k, down, rfl, ht⟩ | he
  · exact ⟨_, _, _, rfl⟩
  · rw [apply_of_target? ht]
    exact ⟨_, _, _, rfl⟩
  · rw [apply_of_not_acts he]
    exact ⟨_, _, _, rfl⟩

theorem timer_apply (m : Machine) (e : Event) (t : Timer) :
    (e.apply m).timer t = if e = .timer then countDown (m.timer t) else m.timer t := by
  rcases apply_cases e with rfl | ⟨h, k, down, rfl, ht⟩ | he
  · cases t <;> rfl
  · rw [apply_of_target? ht]
    cases t <;> rfl
  · rw [apply_of_not_acts he, if_neg]
    rintro rfl
    cases he

theorem isDown_apply (m : Machine) (e : Event) (k : Fin 16) :
    (e.apply m).keypad.isDown k = (e.move? k).getD (m.keypad.isDown k) := by
  rcases apply_cases e with rfl | ⟨h, k', down, rfl, ht⟩ | he
  · rfl
  · rw [apply_of_target? ht, Keypad.isDown_set]
    simp only [Event.move?, ← HostKey.target?_eq_some_iff, ht, Option.some.injEq, eq_comm]
    split <;> rfl
  · rw [apply_of_not_acts he, Event.move?_of_not_acts he, Option.getD_none]

/-! ### A batch -/

theorem exists_withPanel_foldl_apply (m : Machine) (events : List Event) :
    ∃ delay sound keypad, events.foldl Event.apply m = m.withPanel delay sound keypad := by
  refine List.foldlRecOn events Event.apply
    (motive := fun m' => ∃ delay sound keypad, m' = m.withPanel delay sound keypad)
    ⟨m.delay, m.sound, m.keypad, rfl⟩ ?_
  rintro _ ⟨delay, sound, keypad, rfl⟩ e _
  exact exists_withPanel_apply _ e

theorem timer_foldl_apply (m : Machine) (events : List Event) (t : Timer) :
    ((events.foldl Event.apply m).timer t).toNat =
      (m.timer t).toNat - events.count .timer := by
  induction events generalizing m with
  | nil => rfl
  | cons e events ih =>
      rw [List.foldl_cons, ih, timer_apply]
      by_cases he : e = .timer
      · rw [if_pos he, he, List.count_cons_self, toNat_countDown]
        omega
      · rw [if_neg he, List.count_cons_of_ne he]

theorem isDown_foldl_apply (m : Machine) (events : List Event) (k : Fin 16) :
    (events.foldl Event.apply m).keypad.isDown k =
      (lastMove? k events).getD (m.keypad.isDown k) := by
  induction events generalizing m with
  | nil => rfl
  | cons e events ih =>
      rw [List.foldl_cons, ih, isDown_apply, lastMove?_cons]
      cases lastMove? k events <;> rfl

theorem foldl_apply_filter (m : Machine) (events : List Event) :
    (events.filter Event.acts).foldl Event.apply m = events.foldl Event.apply m := by
  induction events generalizing m with
  | nil => rfl
  | cons e events ih =>
      by_cases he : e.acts = true
      · rw [List.filter_cons_of_pos he, List.foldl_cons, List.foldl_cons, ih]
      · rw [List.filter_cons_of_neg he, List.foldl_cons, ih,
          apply_of_not_acts (Bool.eq_false_iff.mpr he)]

/-- **What a batch of events does.**  It tells to stop exactly if the user closes the window or
moves the key `q` somewhere in it.  The timers lose one for each tick of the host's timer, down to
zero; a key stands where the last move of its key of the keyboard left it, or where it stood;
nothing else changes.  Events that quit, keys that stand for no key of the machine and other events
could be left out, so what stands behind them still counts.  Two batches one behind the other do
what one does, and go on if both do. -/
theorem batch_in_closed_form (m : Machine) (events : List Event) :
    let m' := (m.handle events).2
    ((m.handle events).1 = false ↔
      .quit ∈ events ∨ ∃ down, .key (.letter 'q') down ∈ events) ∧
    (∀ t, (m'.timer t).toNat = (m.timer t).toNat - events.count .timer) ∧
    (∀ k, m'.keypad.isDown k = (lastMove? k events).getD (m.keypad.isDown k)) ∧
    (∃ delay sound keypad, m' = m.withPanel delay sound keypad) ∧
    (m.handle (events.filter Event.acts)).2 = m' ∧
    ∀ later, m.handle (events ++ later) =
      ((m.handle events).1 && (m'.handle later).1, (m'.handle later).2) := by
  intro m'
  have hm' : m' = events.foldl Event.apply m := congrArg Prod.snd (Session.handle_eq m events)
  refine ⟨?_, ?_, ?_, ?_, ?_, fun later => ?_⟩
  · rw [Session.handle_eq, ← Session.quits_iff, Bool.not_eq_false', decide_eq_true_iff]
  · rw [hm']
    exact timer_foldl_apply m events
  · rw [hm']
    exact isDown_foldl_apply m events
  · rw [hm']
    exact exists_withPanel_foldl_apply m events
  · rw [hm', Session.handle_eq]
    exact foldl_apply_filter m events
  · simp only [Session.handle_eq, hm', List.foldl_append, Session.quits_append, Bool.decide_or,
      Bool.not_or]

/-- The key `b` goes up behind a quit, and down again behind another one. -/
example : lastMove? 0xB [.key (.letter 'b') true, .quit, .key (.letter 'b') false,
    .key (.letter 'q') true, .key (.letter 'b') true, .timer] = some true := by
  decide

end Machine

end Chip8
