import Chip8.Host.CommandLine
import Chip8.Proofs.Numeral

/-! # The order of options on the command line

An `OptionGroup` is what a user writes to make one choice: a quantity with its numeral, in one
argument or in two, or a flag.  Each argument is classified by itself (`ofTexts?_arguments`), even
a numeral with a minus sign, which looks like an option but begins with none.  Going through the
arguments of a group makes its choice and goes on behind them (`read_classified`).  So the groups
around the program file make their choices as if it were not there (`ofArguments_groups`), and what
they choose together is known in closed form: of the groups that name a quantity the last one
counts, and a flag counts if it occurs at all.  This leaves no room for the order of groups that
make different choices (`ofGroups_of_rearranged`). -/

namespace Chip8

open Text.Integer

/-- Some arguments that belong together and make one choice. -/
inductive OptionGroup where
  /-- A quantity with a numeral, joined to its letter or as an argument of its own. -/
  | quantity (q : Quantity) (joined : Bool) (numeral : String) (n : Int) (writes : Writes numeral n)
  | flag (f : Flag) (ne_help : f ≠ .help)

namespace OptionGroup

/-- The arguments of a group. -/
def arguments : OptionGroup → List String
  | quantity q true numeral _ _ => [q.name ++ numeral]
  | quantity q false numeral _ _ => [q.name, numeral]
  | flag f _ => [f.name]

/-- What a group chooses. -/
def choice : OptionGroup → Switch
  | quantity q .. => .quantity q
  | flag f _ => .flag f

/-- The number that a group gives to a quantity, if it names this quantity. -/
def number? (q : Quantity) : OptionGroup → Option Int
  | quantity q' _ _ n _ => if q' = q then some n else none
  | flag _ _ => none

/-- The number of the last group that names a quantity. -/
def lastNumber? (groups : List OptionGroup) (q : Quantity) : Option Int :=
  groups.reverse.findSome? (·.number? q)

/-- Whether a flag occurs. -/
def occurs (groups : List OptionGroup) (f : Flag) : Bool := groups.any (·.choice = .flag f)

/-- What the arguments of a group are. -/
def classified : OptionGroup → List Argument
  | quantity q true numeral _ _ => [.letter (.quantity q) (some numeral.toList)]
  | quantity q false numeral _ _ => [.letter (.quantity q) none, .value numeral]
  | flag .verbose _ => [.letter (.flag .verbose) none]
  | flag f _ => [.name f none]

end OptionGroup

open OptionGroup

/-- The options that groups choose beside a program file. -/
def Options.ofGroups (rom : String) (groups : List OptionGroup) : Options where
  rom := rom
  scale := some ((lastNumber? groups .scale).getD 10)
  opDelay := some ((lastNumber? groups .opDelay).getD 1)
  ticks := some ((lastNumber? groups .ticks).getD 10)
  dialect := ⟨occurs groups .legacyShift, !occurs groups .fixedOffset⟩
  verbose := occurs groups .verbose

/-- Settings behind some groups. -/
def Settings.choose (s : Settings) (groups : List OptionGroup) : Settings :=
  { s with
    scale := (lastNumber? groups .scale).or s.scale
    opDelay := (lastNumber? groups .opDelay).or s.opDelay
    ticks := (lastNumber? groups .ticks).or s.ticks
    dialect := ⟨s.dialect.shiftInPlace || occurs groups .legacyShift,
      s.dialect.offsetFromVx && !occurs groups .fixedOffset⟩
    verbose := s.verbose || occurs groups .verbose }

variable {g : OptionGroup} {groups groups' : List OptionGroup} {s : Settings} {a : Argument}
  {args : List Argument} {rom text numeral : String} {n : Int} {texts : List String}
  {f : Flag} {q : Quantity}

/-! ### Classifying the arguments of a group -/

namespace Argument

theorem ofTexts?_cons (h : ofText? text = .ok a) (ha : a ≠ .separator) (texts : List String) :
    ofTexts? (text :: texts) = (ofTexts? texts).map (a :: ·) := by
  rw [ofTexts?, h]
  cases a with
  | separator => exact absurd rfl ha
  | _ => cases ofTexts? texts <;> rfl

theorem ofText?_of_head (h : text.toList.head? ≠ some '-') : ofText? text = .ok (.value text) := by
  unfold ofText?
  split
  · next he => exact absurd (congrArg List.head? he) h
  · next he => exact absurd (congrArg List.head? he) h
  · next he => exact absurd (congrArg List.head? he) h
  · rfl

theorem ofText?_of_dash {c : Char} {rest : List Char} (h : text.toList = '-' :: c :: rest)
    (hc : c ≠ '-') :
    ofText? text = .ok
      (match Switch.ofLetter? c with
      | some s => .letter s (joinedText rest)
      | none => ofUnknown text) := by
  unfold ofText?
  split
  · next he => exact absurd (List.cons.inj (List.cons.inj (h.symm.trans he)).2).1 hc
  · next he => exact absurd (List.cons.inj (List.cons.inj (h.symm.trans he)).2).1 hc
  · next he =>
    obtain ⟨rfl, rfl⟩ := List.cons.inj (List.cons.inj (h.symm.trans he)).2
    cases Switch.ofLetter? c <;> rfl
  · next hall => exact absurd h (hall c rest)

theorem isDigits_of_isDigit {digits : List Char} (hne : digits ≠ [])
    (h : ∀ c ∈ digits, c.isDigit = true) : isDigits digits = true := by
  have hfirst : ∀ c rest, (∀ c' ∈ c :: rest, c'.isDigit = true) →
      (Text.DecimalDigit.value? c).isSome = true := fun c rest hall => by
    rw [value?_of_isDigit (hall c List.mem_cons_self)]
    rfl
  induction digits using isDigits.induct with
  | case1 => exact absurd rfl hne
  | case2 c => exact hfirst c [] h
  | case3 c => exact hfirst c _ h
  | case4 c rest hone hbreak ih =>
      rw [isDigits, hfirst c rest h, ih hone fun c' hc' => h c' (List.mem_cons_of_mem c hc')]
      · rfl
      · exact hone
      · exact hbreak

theorem ofLetter?_of_isDigit {c : Char} (h : c.isDigit = true) : Switch.ofLetter? c = none := by
  unfold Switch.ofLetter?
  split
  all_goals first | rfl | cases h

/-- A numeral is a value, even with a minus sign in front. -/
theorem ofText?_numeral (h : Writes numeral n) : ofText? numeral = .ok (.value numeral) := by
  cases h with
  | @natural digits h =>
      apply ofText?_of_head
      rw [String.toList_ofList]
      intro he
      exact absurd (h.isDigit '-' (List.mem_of_head? he)) (by decide)
  | @negative digits h =>
      obtain ⟨c, rest, rfl⟩ := List.exists_cons_of_ne_nil h.ne_nil
      have hc := h.isDigit c List.mem_cons_self
      have hdash : c ≠ '-' := by
        rintro rfl
        cases hc
      rw [ofText?_of_dash String.toList_ofList hdash, ofLetter?_of_isDigit hc]
      simp only [ofUnknown, String.toList_ofList, List.drop_succ_cons, List.drop_zero, isNumber,
        isDigits_of_isDigit h.ne_nil h.isDigit, Bool.true_or, if_true]

theorem ofText?_joined (h : Writes numeral n) (q : Quantity) :
    ofText? (q.name ++ numeral) = .ok (.letter (.quantity q) (some numeral.toList)) := by
  obtain ⟨c, hname, hletter, hc⟩ : ∃ c, q.name.toList = ['-', c] ∧
      Switch.ofLetter? c = some (.quantity q) ∧ c ≠ '-' := by
    cases q with
    | scale => exact ⟨'s', rfl, rfl, by decide⟩
    | opDelay => exact ⟨'d', rfl, rfl, by decide⟩
    | ticks => exact ⟨'t', rfl, rfl, by decide⟩
  have htext : (q.name ++ numeral).toList = '-' :: c :: numeral.toList := by
    rw [String.toList_append, hname]
    rfl
  have hjoined : joinedText numeral.toList = some numeral.toList := by
    cases h with
    | @natural digits h =>
        rw [String.toList_ofList]
        unfold joinedText
        split
        · exact absurd rfl h.ne_nil
        · exact absurd (h.isDigit '=' List.mem_cons_self) (by decide)
        · rfl
    | @negative digits h =>
        rw [String.toList_ofList]
        rfl
  rw [ofText?_of_dash htext hc, hletter, hjoined]

/-- The arguments of a group are classified without the others. -/
theorem ofTexts?_arguments (g : OptionGroup) (texts : List String) :
    ofTexts? (g.arguments ++ texts) = (ofTexts? texts).map (g.classified ++ ·) := by
  cases g with
  | quantity q joined numeral n h =>
      cases joined with
      | true => exact ofTexts?_cons (ofText?_joined h q) nofun texts
      | false =>
          have hname : ofText? q.name = .ok (.letter (.quantity q) none) := by cases q <;> rfl
          refine (ofTexts?_cons hname nofun (numeral :: texts)).trans ?_
          rw [ofTexts?_cons (ofText?_numeral h) nofun texts]
          cases ofTexts? texts <;> rfl
  | flag f hf =>
      cases f with
      | help => exact absurd rfl hf
      | legacyShift | fixedOffset => exact ofTexts?_cons (a := .name _ none) rfl nofun texts
      | verbose => exact ofTexts?_cons (a := .letter _ none) rfl nofun texts

end Argument

/-! ### Going through the arguments of a group -/

namespace Settings

theorem readQuantity_eq (h : Writes numeral n) (s : Settings) (q : Quantity) :
    s.readQuantity q numeral = .ok (s.setQuantity (some n) q) := by
  have hread := h.read?_eq
  have hne : numeral ≠ Argument.separatorText := by
    rintro rfl
    cases hread
  rw [readQuantity, if_neg hne, hread]

theorem setQuantity_eq_choose (s : Settings) (q : Quantity) (joined : Bool) (h : Writes numeral n) :
    s.setQuantity (some n) q = s.choose [.quantity q joined numeral n h] := by
  cases q <;> simp [setQuantity, choose, lastNumber?, number?, occurs, choice]

theorem setFlag_eq_choose (s : Settings) (hf : f ≠ .help) :
    s.setFlag f = .ok (s.choose [.flag f hf]) := by
  cases f <;> simp [setFlag, choose, lastNumber?, number?, occurs, choice] at hf ⊢

theorem choose_append (s : Settings) (groups later : List OptionGroup) :
    s.choose (groups ++ later) = (s.choose groups).choose later := by
  simp [choose, lastNumber?, occurs, Option.or_assoc, Bool.or_assoc, Bool.and_assoc]

/-- Going through the arguments of a group makes its choice. -/
theorem read_classified (g : OptionGroup) (args : List Argument) (s : Settings) :
    read (g.classified ++ args) s = read args (s.choose [g]) := by
  cases g with
  | quantity q joined numeral n h =>
      rw [← setQuantity_eq_choose]
      cases joined with
      | true =>
          rw [classified, List.singleton_append, read]
          simp only [Joined.read, Joined.ofText, String.ofList_toList]
          show ((s.readQuantity q numeral).bind (read args)) = _
          rw [readQuantity_eq h]
          rfl
      | false =>
          rw [classified, List.cons_append, List.singleton_append, read]
          show ((s.readQuantity q numeral).bind (read args)) = _
          rw [readQuantity_eq h]
          rfl
  | flag f hf =>
      have hset := setFlag_eq_choose s hf
      cases f with
      | help => exact absurd rfl hf
      | legacyShift | fixedOffset =>
          show read (.name _ none :: args) s = _
          rw [read, hset]
          rfl
      | verbose =>
          show read (.letter (.flag .verbose) none :: args) s = _
          rw [read]
          simp only [Joined.read, Joined.alone, setFlags, List.foldlM_cons, hset]
          rfl

theorem read_rom (hrom : s.rom = none) (hargs : args.head? ≠ some .separator) :
    read (.value rom :: args) s = read args { s with rom := some rom } := by
  rw [read]
  · rw [takeValue, hrom]
  · rintro rest rfl
    exact hargs rfl

theorem read_flatMap_classified (groups : List OptionGroup) (args : List Argument) (s : Settings) :
    read (groups.flatMap classified ++ args) s = read args (s.choose groups) := by
  induction groups generalizing s with
  | nil => simp [choose, lastNumber?, occurs]
  | cons g groups ih =>
      rw [List.flatMap_cons, List.append_assoc, read_classified, ih, ← choose_append,
        List.singleton_append]

end Settings

theorem Argument.ofTexts?_flatMap_arguments (groups : List OptionGroup) (texts : List String) :
    ofTexts? (groups.flatMap arguments ++ texts) =
      (ofTexts? texts).map (groups.flatMap classified ++ ·) := by
  induction groups with
  | nil => cases hrest : ofTexts? texts <;> exact hrest
  | cons g groups ih =>
      rw [List.flatMap_cons, List.append_assoc, ofTexts?_arguments, ih, List.flatMap_cons]
      cases ofTexts? texts with
      | error e => rfl
      | ok args => simp [Except.map]

theorem separator_not_mem_classified : .separator ∉ groups.flatMap classified := by
  intro h
  obtain ⟨g, -, hg⟩ := List.mem_flatMap.mp h
  cases g with
  | quantity q joined numeral n writes => cases joined <;> simp [classified] at hg
  | flag f ne_help => cases f <;> simp [classified] at hg

/-! ### The whole command line -/

theorem Settings.finish_choose (rom : String) (before after : List OptionGroup) :
    ({ ({} : Settings).choose before with rom := some rom }.choose after).finish =
      .ok (.ofGroups rom (before ++ after)) := by
  have hrom : { ({} : Settings).choose before with rom := some rom }.choose after =
      { ({} : Settings).choose (before ++ after) with rom := some rom } := by
    rw [choose_append]
    rfl
  rw [hrom]
  simp [finish, choose, Options.ofGroups]

/-- The program file may stand between any two groups. -/
theorem ofArguments_groups (hrom : rom.toList.head? ≠ some '-') (before after : List OptionGroup) :
    Options.ofArguments (before.flatMap arguments ++ rom :: after.flatMap arguments) =
      .ok (.ofGroups rom (before ++ after)) := by
  have hafter : Argument.ofTexts? (after.flatMap arguments) = .ok (after.flatMap classified) := by
    have h := Argument.ofTexts?_flatMap_arguments after []
    rw [List.append_nil] at h
    rw [h]
    simp [Argument.ofTexts?, Except.map]
  have hargs : Argument.ofTexts? (before.flatMap arguments ++ rom :: after.flatMap arguments) =
      .ok (before.flatMap classified ++ .value rom :: after.flatMap classified) := by
    rw [Argument.ofTexts?_flatMap_arguments,
      Argument.ofTexts?_cons (Argument.ofText?_of_head hrom) nofun, hafter]
    rfl
  have hread :
      Settings.read (before.flatMap classified ++ .value rom :: after.flatMap classified) {} =
        .ok ({ ({} : Settings).choose before with rom := some rom }.choose after) := by
    have hhead : (after.flatMap classified).head? ≠ some .separator := fun he =>
      separator_not_mem_classified (List.mem_of_head? he)
    rw [Settings.read_flatMap_classified, Settings.read_rom rfl hhead]
    have h := Settings.read_flatMap_classified after []
      { ({} : Settings).choose before with rom := some rom }
    rw [List.append_nil] at h
    rw [h, Settings.read]
  rw [Options.ofArguments, hargs]
  show (Settings.read _ {}).bind Settings.finish = _
  rw [hread]
  exact Settings.finish_choose rom before after

/-! ### Other orders -/

/-- Of the groups that make any one choice, there are as many in both lists, and in the same
order. -/
def Rearranged (groups groups' : List OptionGroup) : Prop :=
  ∀ c, groups.filter (·.choice = c) = groups'.filter (·.choice = c)

theorem rearranged_swap {g' : OptionGroup} (h : g.choice ≠ g'.choice)
    (before after : List OptionGroup) :
    Rearranged (before ++ g :: g' :: after) (before ++ g' :: g :: after) := by
  intro c
  rw [List.filter_append, List.filter_append]
  congr 1
  by_cases hg : g.choice = c
  · have hg' : g'.choice ≠ c := fun he => h (hg.trans he.symm)
    simp [hg, hg']
  · simp [List.filter_cons, hg]

theorem lastNumber?_filter (groups : List OptionGroup) (q : Quantity) :
    lastNumber? (groups.filter (·.choice = .quantity q)) q = lastNumber? groups q := by
  have hother : ∀ g : OptionGroup, g.choice ≠ .quantity q → g.number? q = none := by
    intro g hg
    cases g with
    | quantity q' joined numeral n writes => exact if_neg fun he => hg (congrArg _ he)
    | flag f ne_help => rfl
  unfold lastNumber?
  rw [← List.filter_reverse]
  induction groups.reverse with
  | nil => rfl
  | cons g groups ih =>
      by_cases hg : g.choice = .quantity q
      · rw [List.filter_cons_of_pos (by simpa using hg), List.findSome?_cons, List.findSome?_cons,
          ih]
      · rw [List.filter_cons_of_neg (by simpa using hg), ih, List.findSome?_cons, hother g hg]

theorem occurs_filter (groups : List OptionGroup) (f : Flag) :
    occurs (groups.filter (·.choice = .flag f)) f = occurs groups f := by
  simp only [occurs, List.any_filter, Bool.and_self]

theorem ofGroups_of_rearranged (h : Rearranged groups groups') (rom : String) :
    Options.ofGroups rom groups = Options.ofGroups rom groups' := by
  have hnumber : ∀ q, lastNumber? groups q = lastNumber? groups' q := fun q => by
    rw [← lastNumber?_filter groups, h, lastNumber?_filter]
  have hflag : ∀ f, occurs groups f = occurs groups' f := fun f => by
    rw [← occurs_filter groups, h, occurs_filter]
  simp only [Options.ofGroups, hnumber, hflag]

/-- **Options may stand in any order.**  With a program file between any two groups, a command line
is read without complaint.  Of the groups that name a quantity the last one counts, and a flag
counts if it occurs; so neither the place of the program file nor the order of groups that make
different choices has any effect.  Among the numerals are the printed forms of all integers that are
not too long to be read. -/
theorem options_in_any_order (rom : String) (hrom : rom.toList.head? ≠ some '-') :
    (∀ n : Int, (toString n.natAbs).length ≤ 4300 → Writes (toString n) n) ∧
      (∀ before after : List OptionGroup,
        Options.ofArguments (before.flatMap arguments ++ rom :: after.flatMap arguments) =
          .ok (.ofGroups rom (before ++ after))) ∧
      ∀ before after before' after' : List OptionGroup,
        Rearranged (before ++ after) (before' ++ after') →
          Options.ofArguments (before.flatMap arguments ++ rom :: after.flatMap arguments) =
            Options.ofArguments (before'.flatMap arguments ++ rom :: after'.flatMap arguments) := by
  refine ⟨fun n => writes_toString, ofArguments_groups hrom, ?_⟩
  intro before after before' after' h
  rw [ofArguments_groups hrom, ofArguments_groups hrom, ofGroups_of_rearranged h]

/-- Two quantities with negative numerals, and a flag that changes places with one of them. -/
theorem options_in_any_order_negative :
    let chosen : Options := ⟨"rom.ch8", some (-12), some 1, some (-7), {}, true⟩
    "rom.ch8".toList.head? ≠ some '-' ∧
      Options.ofArguments ["-s", "3", "-s-12", "rom.ch8", "-v", "-t", "-7"] = .ok chosen ∧
      Options.ofArguments ["-s", "3", "-s-12", "rom.ch8", "-v", "-t", "-7"] =
        Options.ofArguments ["-s", "3", "-v", "-s-12", "-t", "-7", "rom.ch8"] := by
  intro chosen
  have hrom : "rom.ch8".toList.head? ≠ some '-' := by decide
  obtain ⟨hwrites, hread, horder⟩ := options_in_any_order "rom.ch8" hrom
  have htext : toString (3 : Int) = "3" ∧ toString (-12 : Int) = "-12" ∧
      toString (-7 : Int) = "-7" := ⟨rfl, rfl, rfl⟩
  have hthree : Writes "3" 3 := htext.1 ▸ hwrites 3 (by decide)
  have htwelve : Writes "-12" (-12) := htext.2.1 ▸ hwrites (-12) (by decide)
  have hseven : Writes "-7" (-7) := htext.2.2 ▸ hwrites (-7) (by decide)
  let first := OptionGroup.quantity .scale false "3" 3 hthree
  let second := OptionGroup.quantity .scale true "-12" (-12) htwelve
  let third := OptionGroup.quantity .ticks false "-7" (-7) hseven
  let flag := OptionGroup.flag .verbose nofun
  have hother : second.choice ≠ flag.choice := nofun
  have hswap : Rearranged [first, second, flag, third] [first, flag, second, third] :=
    rearranged_swap hother [first] [third]
  exact ⟨hrom, hread [first, second] [flag, third],
    horder [first, second] [flag, third] [first, flag, second, third] [] hswap⟩

end Chip8
