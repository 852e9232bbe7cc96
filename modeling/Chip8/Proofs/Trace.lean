import Chip8.Proofs.Reset

/-! # Runs in parts, and their records

A run stops at its first fault, and the laws below follow its recursion: no ticks are left, the next
one is completed, or it fails.  A run may be cut behind every tick that it completes (`run_add`).
`FailsAt m k f` says that the ticks before tick `k` are completed and tick `k` is not.  Then all
longer runs fail in the same way (`FailsAt.run_eq`), and what the failed tick leaves is the machine
before it, but for the flag register on a display of negative size (`FailsAt.machine_eq`).

A run with records keeps one for each completed tick (`completes_trace`).  Record `j` tells what
tick `j` met in memory and did (`records_trace`), and each starts where the one before it went
(`linked_trace`).  In print a record is one line (`TraceEntry.newline_not_mem_text`). -/

namespace Chip8

/-! ### A record is one line -/

theorem newline_not_mem_append {s t : String} :
    '\n' ∉ (s ++ t).toList ↔ '\n' ∉ s.toList ∧ '\n' ∉ t.toList := by
  rw [String.toList_append, List.mem_append, not_or]

theorem Text.Hex.newline_not_mem_padded (width n : Nat) : '\n' ∉ (Hex.padded width n).toList := by
  have hdigit : ∀ d < 16, '\n' ≠ Hex.digit d := by decide
  intro h
  obtain ⟨d, hd, he⟩ := Hex.exists_digit_of_mem_padded h
  exact hdigit d hd he

theorem Text.Hex.newline_not_mem_paddedInt (width : Nat) (z : Int) :
    '\n' ∉ (Hex.paddedInt width z).toList := by
  cases z with
  | ofNat n => exact newline_not_mem_padded width n
  | negSucc n => exact newline_not_mem_append.mpr ⟨by decide, newline_not_mem_padded _ _⟩

theorem Instruction.newline_not_mem_registerName (x : Nat) : '\n' ∉ (registerName x).toList :=
  newline_not_mem_append.mpr ⟨by decide, Text.Hex.newline_not_mem_padded 1 x⟩

theorem Instruction.newline_not_mem_mnemonic (i : Instruction) : '\n' ∉ i.mnemonic.toList := by
  unfold mnemonic
  cases i <;>
    simp only [registerValue, registerPair, newline_not_mem_append,
      newline_not_mem_registerName, Text.Hex.newline_not_mem_padded, String.reduceToList,
      List.mem_cons, Char.reduceEq, List.not_mem_nil, or_self, not_false_eq_true, and_true]

theorem TraceEntry.newline_not_mem_text (t : TraceEntry) : '\n' ∉ t.text.toList := by
  have hmnemonic : '\n' ∉ (t.instruction.mnemonic.toList.rightpad 20 ' ') := by
    simp [List.rightpad, t.instruction.newline_not_mem_mnemonic]
  simp only [text, newline_not_mem_append, String.toList_ofList]
  exact ⟨⟨⟨⟨Text.Hex.newline_not_mem_paddedInt 3 t.pc, by decide⟩, hmnemonic⟩, by decide⟩,
    Text.Hex.newline_not_mem_paddedInt 3 t.newPc⟩

namespace Machine

variable {m m' : Machine} {i : Instruction} {f : Fault} {j k n : Nat} {t : TraceEntry}

/-- The first `k` ticks of a machine are completed, and the next one fails. -/
structure FailsAt (m : Machine) (k : Nat) (f : Fault) : Prop where
  completed : (run k m).1 = .ok ()
  failed : (run k m).2.tick.1 = .error f

/-- A run of `n` ticks completes `k` of them: all, or those before the one that fails. -/
inductive Completes (m : Machine) (n : Nat) : Nat → Prop
  | all : (run n m).1 = .ok () → Completes m n n
  | failing {k : Nat} {f : Fault} : k < n → FailsAt m k f → (run n m).1 = .error f →
      Completes m n k

/-- `t` is the record of tick `j` of a run: the program counter before it, the instruction of the
word that memory holds there at that moment, which the tick completes, and the program counter
behind it. -/
structure Records (m : Machine) (j : Nat) (t : TraceEntry) : Prop where
  pc : t.pc = (run j m).2.pc
  holds : Memory.Holds t.pc 2
  word : Instruction.ofWord? ((run j m).2.memory.word t.pc.toNat) = some t.instruction
  tick : (run j m).2.tick = (.ok t.instruction, (run (j + 1) m).2)
  newPc : t.newPc = (run (j + 1) m).2.pc

/-- The records lead from one program counter to another, each from where the one before it went. -/
def Linked : Int → List TraceEntry → Int → Prop
  | start, [], final => start = final
  | start, t :: ts, final => t.pc = start ∧ Linked t.newPc ts final

/-! ### Runs -/

theorem run_succ_of_ok (ht : m.tick = (.ok i, m')) (n : Nat) : run (n + 1) m = run n m' := by
  simp only [run, ht]

theorem run_succ_of_error (ht : m.tick = (.error f, m')) (n : Nat) :
    run (n + 1) m = (.error f, m') := by
  simp only [run, ht]

theorem run_add (h : (run n m).1 = .ok ()) (k : Nat) : run (n + k) m = run k (run n m).2 := by
  induction n, m using run.induct with
  | case1 m => rw [Nat.zero_add, run]
  | case2 n m i m' ht ih =>
      rw [run_succ_of_ok ht] at h ⊢
      rw [Nat.succ_add, run_succ_of_ok ht]
      exact ih h
  | case3 n m g m' ht =>
      rw [run_succ_of_error ht] at h
      cases h

theorem FailsAt.run_eq (h : FailsAt m k f) (hj : k < j) :
    run j m = (.error f, (run k m).2.tick.2) := by
  obtain ⟨d, rfl⟩ := Nat.exists_eq_add_of_lt hj
  rw [Nat.add_assoc, run_add h.completed, run_succ_of_error (Prod.ext h.failed rfl)]

theorem FailsAt.succ (ht : m.tick = (.ok i, m')) (h : FailsAt m' k f) : FailsAt m (k + 1) f where
  completed := by
    rw [run_succ_of_ok ht]
    exact h.completed
  failed := by
    rw [run_succ_of_ok ht]
    exact h.failed

theorem exists_failsAt (h : (run n m).1 = .error f) : ∃ k < n, FailsAt m k f := by
  induction n, m using run.induct with
  | case1 m => cases h
  | case2 n m i m' ht ih =>
      rw [run_succ_of_ok ht] at h
      obtain ⟨k, hk, hfails⟩ := ih h
      exact ⟨k + 1, Nat.succ_lt_succ hk, hfails.succ ht⟩
  | case3 n m g m' ht =>
      rw [run_succ_of_error ht] at h
      cases h
      exact ⟨0, Nat.zero_lt_succ n, rfl, congrArg Prod.fst ht⟩

theorem sameBuild_run (n : Nat) (m : Machine) : SameBuild m (run n m).2 :=
  run_keeps (P := SameBuild m) (fun m' h => h.trans (sameBuild_tick m')) n {}

/-- What a failed tick leaves: the machine behind the completed ticks, but for the flag register on
a display of negative size. -/
theorem FailsAt.machine_eq (h : FailsAt m k f) :
    (run k m).2.tick.2 = (run k m).2 ∨
      (m.display.width < 0 ∨ m.display.height < 0) ∧
        (run k m).2.tick.2 = { (run k m).2 with v := (run k m).2.v.setFlag false } := by
  have hbuild := sameBuild_run k m
  by_cases hsize : 0 ≤ m.display.width ∧ 0 ≤ m.display.height
  · refine Or.inl (tick_eq_of_error ?_ ?_ h.failed)
    · rw [hbuild.width]
      exact hsize.1
    · rw [hbuild.height]
      exact hsize.2
  · refine (tick_error h.failed).imp_right fun he => ⟨?_, he⟩
    omega

/-! ### Records -/

theorem trace_succ_of_ok (ht : m.tick = (.ok i, m')) (n : Nat) :
    (trace (n + 1) m).1 = ⟨m.pc, i, m'.pc⟩ :: (trace n m').1 := by
  simp only [trace, ht]

theorem trace_succ_of_error (ht : m.tick = (.error f, m')) (n : Nat) :
    (trace (n + 1) m).1 = [] := by
  simp only [trace, ht]

theorem Completes.succ (ht : m.tick = (.ok i, m')) (h : Completes m' n k) :
    Completes m (n + 1) (k + 1) := by
  have hrun := run_succ_of_ok ht n
  cases h with
  | all h => exact .all (hrun ▸ h)
  | failing hk hfails h => exact .failing (Nat.succ_lt_succ hk) (hfails.succ ht) (hrun ▸ h)

theorem completes_trace (n : Nat) (m : Machine) : Completes m n (trace n m).1.length := by
  induction n, m using run.induct with
  | case1 m => exact .all rfl
  | case2 n m i m' ht ih =>
      rw [trace_succ_of_ok ht]
      exact ih.succ ht
  | case3 n m f m' ht =>
      rw [trace_succ_of_error ht]
      exact .failing (Nat.zero_lt_succ n) ⟨rfl, congrArg Prod.fst ht⟩
        (congrArg Prod.fst (run_succ_of_error ht n))

theorem records_zero (ht : m.tick = (.ok i, m')) : Records m 0 ⟨m.pc, i, m'.pc⟩ := by
  have hrun : run (0 + 1) m = (.ok (), m') := run_succ_of_ok ht 0
  obtain ⟨hholds, hword⟩ := fetch_eq_ok_iff.mp (tick_eq_ok_iff.mp ht).1
  exact {
    pc := rfl
    holds := hholds
    word := hword
    tick := by rw [hrun]; exact ht
    newPc := by rw [hrun] }

theorem Records.succ (ht : m.tick = (.ok i, m')) (h : Records m' j t) : Records m (j + 1) t := by
  have hbefore : run (j + 1) m = run j m' := run_succ_of_ok ht j
  have hbehind : run (j + 1 + 1) m = run (j + 1) m' := run_succ_of_ok ht (j + 1)
  exact {
    pc := by rw [hbefore]; exact h.pc
    holds := h.holds
    word := by rw [hbefore]; exact h.word
    tick := by rw [hbefore, hbehind]; exact h.tick
    newPc := by rw [hbehind]; exact h.newPc }

theorem records_trace (h : (trace n m).1[j]? = some t) : Records m j t := by
  induction n, m using run.induct generalizing j with
  | case1 m => cases h
  | case2 n m i m' ht ih =>
      rw [trace_succ_of_ok ht] at h
      cases j with
      | zero =>
          cases h
          exact records_zero ht
      | succ j =>
          rw [List.getElem?_cons_succ] at h
          exact (ih h).succ ht
  | case3 n m f m' ht =>
      rw [trace_succ_of_error ht] at h
      cases h

theorem pc_of_tick_error (ht : m.tick = (.error f, m')) : m'.pc = m.pc := by
  obtain rfl : m.tick.2 = m' := congrArg Prod.snd ht
  rcases tick_error (congrArg Prod.fst ht) with he | he <;> rw [he]

/-- The records lead from the program counter before the run to the one behind it, also if the run
fails. -/
theorem linked_trace (n : Nat) (m : Machine) : Linked m.pc (trace n m).1 (run n m).2.pc := by
  induction n, m using run.induct with
  | case1 m => rfl
  | case2 n m i m' ht ih =>
      rw [trace_succ_of_ok ht, run_succ_of_ok ht]
      exact ⟨rfl, ih⟩
  | case3 n m f m' ht =>
      rw [trace_succ_of_error ht, run_succ_of_error ht]
      exact (pc_of_tick_error ht).symm

/-- **Runs and their records are faithful.**  Behind a run that succeeds, a second run goes on as
one long run would.  A run that fails, fails at one of its ticks; it leaves the machine behind the
completed ticks, but for the flag register on a display of negative size, and every run beyond that
tick ends in the same way.  A run with records is the run, with one record, of one line, for each
completed tick.  The records are linked from the program counter before the run to the one behind
it, and each tells the instruction of the word that memory held when its tick came. -/
theorem runs_and_records_faithful (m : Machine) :
    (∀ n k, (run n m).1 = .ok () → run (n + k) m = run k (run n m).2) ∧
    (∀ n f, (run n m).1 = .error f → ∃ k < n, FailsAt m k f ∧
      ((run n m).2 = (run k m).2 ∨
        (m.display.width < 0 ∨ m.display.height < 0) ∧
          (run n m).2 = { (run k m).2 with v := (run k m).2.v.setFlag false }) ∧
      ∀ j > k, run j m = run n m) ∧
    ∀ n, (trace n m).2 = run n m ∧
      Completes m n (trace n m).1.length ∧
      Linked m.pc (trace n m).1 (run n m).2.pc ∧
      ∀ (j : Nat) t, (trace n m).1[j]? = some t → Records m j t ∧ '\n' ∉ t.text.toList := by
  refine ⟨fun n k h => run_add h k, fun n f h => ?_, fun n => ?_⟩
  · obtain ⟨k, hk, hfails⟩ := exists_failsAt h
    have hrun := hfails.run_eq hk
    refine ⟨k, hk, hfails, ?_, fun j hj => (hfails.run_eq hj).trans hrun.symm⟩
    rw [hrun]
    exact hfails.machine_eq
  · exact ⟨trace_snd n m, completes_trace n m, linked_trace n m,
      fun j t ht => ⟨records_trace ht, t.newline_not_mem_text⟩⟩

set_option maxRecDepth 20000 in
/-- A program that writes an instruction over a word which is none, carries it out and then
fails. -/
theorem runs_and_records_faithful_on_rewritten_word :
    let m := ((new {} (.cycling #[])).load
      [0xA2, 0x06, 0x61, 0xE0, 0xF1, 0x55, 0xFF, 0xFF, 0xFF, 0xFF]).2
    let cleared : TraceEntry := ⟨0x206, .clearDisplay, 0x208⟩
    ((run 2 m).1 = .ok () ∧ (run 9 m).1 = .error (.unknownOpcode 0xFFFF) ∧
        (trace 9 m).1[3]? = some cleared) ∧
      m.memory.word 0x206 = 0xFFFF ∧ run 9 m = run 7 (run 2 m).2 ∧ Records m 3 cleared ∧
      ∃ k < 9, FailsAt m k (.unknownOpcode 0xFFFF) ∧ ∀ j > k, run j m = run 9 m := by
  intro m cleared
  obtain ⟨htwo, hnine, hthird, hword⟩ : (run 2 m).1 = .ok () ∧
      (run 9 m).1 = .error (.unknownOpcode 0xFFFF) ∧ (trace 9 m).1[3]? = some cleared ∧
      m.memory.word 0x206 = 0xFFFF := by
    decide +kernel
  obtain ⟨hparts, hfail, hrecords⟩ := runs_and_records_faithful m
  obtain ⟨k, hk, hfails, -, hbeyond⟩ := hfail 9 _ hnine
  obtain ⟨-, -, -, hentries⟩ := hrecords 9
  exact ⟨⟨htwo, hnine, hthird⟩, hword, hparts 2 7 htwo, (hentries 3 _ hthird).1, k, hk, hfails,
    hbeyond⟩

set_option maxRecDepth 20000 in
/-- On a display of negative width a sprite fails behind the clearing of the flag register, and the
failed run leaves none of the machines behind completed ticks. -/
theorem failed_run_clears_flag_on_negative_display :
    let m := ((new {} (.cycling #[]) (.blank (-1) 32)).loadFont.2.load [0x6F, 0x01, 0xD0, 0x01]).2
    (run 2 m).1 = .error (.pixelOutside 0 0 (-1) 32) ∧
      ∀ k, (run k m).1 = .ok () → (run 2 m).2 ≠ (run k m).2 := by
  intro m
  obtain ⟨hrun, hone, hfirst, hpc, hflag⟩ : (run 2 m).1 = .error (.pixelOutside 0 0 (-1) 32) ∧
      (run 1 m).1 = .ok () ∧ (run 1 m).2.tick.1 = .error (.pixelOutside 0 0 (-1) 32) ∧
      (run 2 m).2.pc ≠ (run 0 m).2.pc ∧
      (run 2 m).2.v.read 0xF ≠ (run 1 m).2.v.read 0xF := by
    decide +kernel
  have hfails : FailsAt m 1 (.pixelOutside 0 0 (-1) 32) := ⟨hone, hfirst⟩
  refine ⟨hrun, fun k hk he => ?_⟩
  match k with
  | 0 => exact hpc (congrArg Machine.pc he)
  | 1 => exact hflag (congrArg (fun m' => m'.v.read 0xF) he)
  | k + 2 =>
      rw [hfails.run_eq (by omega)] at hk
      cases hk

end Machine

end Chip8
