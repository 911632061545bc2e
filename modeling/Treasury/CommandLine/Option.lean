import Treasury.Text.Digit
import Treasury.Text.Numeral

/-!
# Options and arguments

How the arguments of a command are taken apart. An argument is a word, an option or the double dash
that turns everything after it into words. A long option may be shortened as long as it is not
ambiguous, and its value may follow an equals sign or be the next word.
-/

namespace Treasury.CommandLine

/-- What an option asks for. -/
inductive Takes where
  /-- The help text. -/
  | help
  /-- Nothing: the option is a switch. -/
  | nothing
  /-- A text. -/
  | text
  /-- A whole number. -/
  | number
  deriving DecidableEq, Repr

/-- An option of a command. -/
structure OptionSpec where
  /-- The names of the option, as they are given. -/
  names : List String
  /-- What the option asks for. -/
  takes : Takes
  deriving DecidableEq, Repr

/-- The name under which the value of an option is kept: its last one. -/
def OptionSpec.key (o : OptionSpec) : String := o.names.getLastD ""

/-- An option with the value after its equals sign, if it has one. -/
structure Hit where
  /-- The option. -/
  spec : OptionSpec
  /-- The value. -/
  value : Option String
  deriving DecidableEq, Repr

/-- An argument. -/
inductive Token where
  /-- The double dash. -/
  | dashes
  /-- A word. -/
  | word (text : String)
  /-- An option of the command. -/
  | option (hit : Hit)
  /-- An option that the command does not have. -/
  | stranger
  deriving DecidableEq, Repr

/-- Why the arguments of a command are not taken. -/
inductive Refusal where
  /-- Help is asked for. -/
  | help
  /-- The arguments are misused. -/
  | misuse
  deriving DecidableEq, Repr

/-- The options that an argument names: those of that very name, or else those of a name that it
starts. -/
def named (options : List OptionSpec) (name : String) : List OptionSpec :=
  match options.filter (name ∈ ·.names) with
  | [] => options.filter fun o => o.names.any (name.toList.isPrefixOf ·.toList)
  | sameName => sameName

/-- An argument taken apart at its first equals sign. -/
def splitAtEquals (arg : String) : String × Option String :=
  let name := arg.toList.takeWhile (· ≠ '=')
  match arg.toList.drop name.length with
  | _ :: value => (.ofList name, some (.ofList value))
  | [] => (arg, none)

/-- The options that an argument with two dashes may mean. -/
def longHits (options : List OptionSpec) (arg : String) : List Hit :=
  let (name, value) := splitAtEquals arg
  (named options name).map fun spec => { spec, value }

/-- The options of a single letter. -/
def lettered (options : List OptionSpec) (letter : Char) : List OptionSpec :=
  options.filter (String.ofList ['-', letter] ∈ ·.names)

/-- The options that an argument with one dash may mean. Its first letter names an option. What
follows, or stands after an equals sign, are letters of options too, or else a value. -/
def shortHits (options : List OptionSpec) (arg : String) : List Hit :=
  match arg.toList with
  | _ :: letter :: rest =>
    let more := match rest with
      | '=' :: more => more
      | _ => rest
    let isNamed (c : Char) : Bool := !(lettered options c).isEmpty
    let value := if rest.isEmpty || (!more.isEmpty && more.all isNamed) then none else some more
    (lettered options letter).map fun spec => { spec, value := value.map .ofList }
  | _ => []

/-- A text without the line break at its end. -/
def withoutBreak (cs : List Char) : List Char := if cs.getLast? = some '\n' then cs.dropLast else cs

/-- Whether a text is a minus sign and a decimal numeral. A line break may end it. -/
def isNegativeNumeral (cs : List Char) : Bool :=
  let isDigit (c : Char) : Bool := (Text.decimalDigit? c).isSome
  match withoutBreak cs with
  | '-' :: rest =>
    match rest.dropWhile isDigit with
    | [] => !rest.isEmpty
    | '.' :: places => !places.isEmpty && places.all isDigit
    | _ => false
  | _ => false

/-- What an argument is, unless it may mean several options. -/
def Token.ofArgument (options : List OptionSpec) (arg : String) : Except Refusal Token :=
  match arg.toList with
  | '-' :: second :: _ =>
    match if second = '-' then longHits options arg else shortHits options arg with
    | [hit] => .ok (.option hit)
    | [] =>
      if isNegativeNumeral arg.toList || arg.contains ' ' then .ok (.word arg) else .ok .stranger
    | _ => .error .misuse
  | _ => .ok (.word arg)

/-- What the arguments of a command are, up to the double dash and after it. -/
def tokens (options : List OptionSpec) : List String → Except Refusal (List Token)
  | [] => .ok []
  | "--" :: rest => .ok (.dashes :: rest.map .word)
  | arg :: rest => do
    let token ← Token.ofArgument options arg
    return token :: (← tokens options rest)

/-- What an option is given. -/
inductive Given (α : Type) where
  /-- The option is not there. -/
  | absent
  /-- It is given the double dash, which stands for no value. -/
  | blank
  /-- It is given a value. -/
  | value (a : α)
  deriving DecidableEq, Repr

/-- A value that is given; without one, or without the option, none. -/
def Given.value? : Given α → Option α
  | .value a => some a
  | _ => none

/-- What an option is given, or its default if it is not there. -/
def Given.orDefault (default : α) : Given α → Option α
  | .absent => some default
  | .blank => none
  | .value a => some a

/-- Whether an option takes a text as its value: a number is asked for by a numeral. -/
def OptionSpec.accepts (o : OptionSpec) (value : String) : Bool :=
  match o.takes with
  | .number => value = "--" || (Text.readNumeral value).isOk
  | _ => true

/-- The values of options, latest first. -/
abbrev Values := List (String × String)

/-- What an option is given as a text. -/
def Values.text (values : Values) (key : String) : Given String :=
  match values.lookup key with
  | none => .absent
  | some text => if text = "--" then .blank else .value text

/-- What an option is given as a whole number. -/
def Values.number (values : Values) (key : String) : Given Int :=
  match values.text key with
  | .absent => .absent
  | .blank => .blank
  | .value text => (Text.readNumeral text).toOption.elim .blank .value

/-- The values after an option, with the arguments after its own. -/
def taken (hit : Hit) (rest : List Token) (values : Values) :
    Except Refusal (Values × List Token) :=
  let keep (value : String) (rest : List Token) : Except Refusal (Values × List Token) :=
    if hit.spec.accepts value then .ok ((hit.spec.key, value) :: values, rest) else .error .misuse
  match hit.spec.takes, hit.value with
  | .help, none => .error .help
  | .nothing, none => .ok ((hit.spec.key, "") :: values, rest)
  | .help, some _ | .nothing, some _ => .error .misuse
  | _, some value => keep value rest
  | _, none =>
    match rest with
    | .word value :: rest => keep value rest
    | _ => .error .misuse

/-- Taking an option leaves no more arguments than there were. -/
theorem length_taken_le {hit : Hit} {rest : List Token} {values : Values}
    {after : Values × List Token} (h : taken hit rest values = .ok after) :
    after.2.length ≤ rest.length := by
  unfold taken at h
  simp only at h
  split at h
  · contradiction
  · cases h; exact Nat.le_refl _
  · contradiction
  · contradiction
  · split at h
    · cases h; exact Nat.le_refl _
    · contradiction
  · split at h
    · split at h
      · cases h; exact Nat.le_succ _
      · contradiction
    · contradiction

end Treasury.CommandLine
