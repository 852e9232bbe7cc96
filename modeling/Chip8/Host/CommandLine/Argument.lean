import Chip8.Host.CommandLine.Choice
import Chip8.Text.DecimalDigit

/-! # Arguments

`Argument.ofText?` says what a single argument is by itself, and `Joined.read` takes an argument of
several letters apart.

* **Flags** have a letter, a long name or both.  A long name may be shortened as long as one name
  fits.
* **Joined text.** Behind the first letter more text may follow in the same argument, perhaps after
  one equals sign, which counts for nothing.  Behind a quantity the text is its value, and behind a
  flag it must go on with another letter that is known, as in `-vs3`.
* **Negative numbers**, and arguments with a blank in them, are values unless they begin with a
  known option.
* **The separator** `--` makes values of all arguments behind it. -/

namespace Chip8

/-! ### Single arguments -/

/-- What an argument is by itself. -/
inductive Argument where
  /-- A value, or the program file. -/
  | value (text : String)
  | letter (s : Switch) (joined : Option (List Char))
  | name (f : Flag) (joined : Option String)
  /-- The mark behind which everything is a value. -/
  | separator
  /-- Something with a dash in front that means nothing. -/
  | unknown (text : String)
deriving DecidableEq, Repr

namespace Argument

/-- The text of the separator. -/
def separatorText : String := "--"

/-- Whether the text has at least one character, and digits only.  A line break at the very end
does not count. -/
def isDigits : List Char → Bool
  | [] => false
  | [c] => (Text.DecimalDigit.value? c).isSome
  | [c, '\n'] => (Text.DecimalDigit.value? c).isSome
  | c :: rest => (Text.DecimalDigit.value? c).isSome && isDigits rest

/-- Whether the text behind a dash makes a negative number: digits, or a fraction with a point and
perhaps digits in front of it. -/
def isNumber (text : List Char) : Bool :=
  isDigits text ||
    match text.dropWhile fun c => (Text.DecimalDigit.value? c).isSome with
    | '.' :: rest => isDigits rest
    | _ => false

/-- An argument with a dash in front that begins with no known option. -/
def ofUnknown (text : String) : Argument :=
  if isNumber (text.toList.drop 1) || text.toList.contains ' ' then value text else unknown text

/-- An argument with two dashes in front of the given text. -/
def ofLong? (text : String) (body : List Char) : Except UsageError Argument :=
  let given := body.takeWhile (· ≠ '=')
  let joined := match body.dropWhile (· ≠ '=') with
    | [] => none
    | _ :: rest => some (String.ofList rest)
  match Flag.longNames.filter fun (long, _) => given.isPrefixOf long with
  | [] => .ok (ofUnknown text)
  | [(_, f)] => .ok (name f joined)
  | several =>
      .error (.ambiguous text (several.map fun (long, _) => "--" ++ String.ofList long))

/-- The text joined to a first letter.  An equals sign in front of it is left out. -/
def joinedText : List Char → Option (List Char)
  | [] => none
  | '=' :: text => some text
  | text => some text

/-- What an argument is by itself, in front of the separator. -/
def ofText? (text : String) : Except UsageError Argument :=
  match text.toList with
  | ['-', '-'] => .ok separator
  | '-' :: '-' :: body => ofLong? text body
  | '-' :: c :: rest =>
      match Switch.ofLetter? c with
      | some s => .ok (letter s (joinedText rest))
      | none => .ok (ofUnknown text)
  | _ => .ok (value text)

/-- What the arguments of a command line are. -/
def ofTexts? : List String → Except UsageError (List Argument)
  | [] => .ok []
  | text :: rest => do
      match ← ofText? text with
      | separator => return separator :: rest.map value
      | a => return a :: (← ofTexts? rest)

end Argument

/-! ### Joined letters -/

/-- How an argument of joined letters ends. -/
inductive Joined.End where
  /-- In a flag. -/
  | done
  /-- In a quantity whose value is the next argument. -/
  | pending (q : Quantity)
  /-- In a quantity with its value. -/
  | closed (q : Quantity) (text : String)
deriving DecidableEq, Repr

/-- The flags of an argument of joined letters, and how it ends. -/
structure Joined where
  flags : List Flag
  last : Joined.End
deriving DecidableEq, Repr

namespace Joined

/-- A letter that nothing is joined to. -/
def alone : Switch → Joined
  | .flag f => ⟨[f], .done⟩
  | .quantity q => ⟨[], .pending q⟩

/-- Takes the text joined to a letter apart.  Text behind a flag that begins with no known letter is
refused as a value of that flag. -/
def ofText : Switch → List Char → Except UsageError Joined
  | .quantity q, text => .ok ⟨[], .closed q (String.ofList text)⟩
  | .flag f, [] => .error (.ignoredValue f "")
  | .flag f, c :: text =>
      match Switch.ofLetter? c with
      | none => .error (.ignoredValue f (String.ofList (c :: text)))
      | some s => do
          let joined ← if text.isEmpty then .ok (alone s) else ofText s text
          return { joined with flags := f :: joined.flags }

/-- Takes an argument of joined letters apart. -/
def read (s : Switch) : Option (List Char) → Except UsageError Joined
  | none => .ok (alone s)
  | some text => ofText s text

end Joined

end Chip8
