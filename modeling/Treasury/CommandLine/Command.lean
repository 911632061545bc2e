import Treasury.CommandLine.Option

/-!
# Commands

The three commands of the program and how the arguments of a call are read. Options of the program
stand before the command, and options of the command after it, among its arguments. The main
statement is that a call without arguments is a call without a command.
-/

namespace Treasury.CommandLine

/-- What the program is asked to do. -/
inductive Command where
  /-- Checks a file of definitions; with `strict`, warnings count as errors. -/
  | validate (file : String) (strict : Bool)
  /-- Plays a card from the hand of a new game, with the definitions of a file added. -/
  | play (cardId : String) (seed : Given Int) (definitions : Option String)
  /-- Answers requests of clients, at a host and a port unless these are blank. -/
  | serve (host : Option String) (port : Option Int)
  deriving DecidableEq, Repr

/-- The commands by name. -/
inductive Topic where
  | validate
  | play
  | serve
  deriving DecidableEq, Repr

/-- A call of the program. -/
structure Invocation where
  /-- The level of the log, if it is given. -/
  logLevel : Option String := none
  /-- What to do, if anything. -/
  command : Option Command := none
  deriving DecidableEq, Repr

/-- Why a call is not carried out. -/
inductive Stop where
  /-- Help is asked for: on a command, or on the program. -/
  | help (topic : Option Topic)
  /-- The arguments are misused. -/
  | misuse
  deriving DecidableEq, Repr

/-- A refusal of the arguments of a command, or of the program. -/
def Refusal.stop (topic : Option Topic) : Refusal → Stop
  | .help => .help topic
  | .misuse => .misuse

/-- The option that asks for help. -/
def helpOption : OptionSpec := { names := ["-h", "--help"], takes := .help }

/-- The options of the program. -/
def programOptions : List OptionSpec :=
  [helpOption, { names := ["--log-level"], takes := .text }]

namespace Topic

/-- The options of a command. -/
def options : Topic → List OptionSpec
  | validate => [helpOption, { names := ["--strict"], takes := .nothing }]
  | play =>
    [helpOption, { names := ["--seed"], takes := .number },
      { names := ["--definitions"], takes := .text }]
  | serve =>
    [helpOption, { names := ["--host"], takes := .text }, { names := ["--port"], takes := .number }]

/-- Whether a command needs a word. -/
def needsWord : Topic → Bool
  | serve => false
  | _ => true

/-- The name of a command. -/
def name : Topic → String
  | validate => "validate"
  | play => "play"
  | serve => "serve"

/-- The command of the given name. -/
def ofName? (name : String) : Option Topic := [validate, play, serve].find? (·.name = name)

end Topic

/-- What was found among the arguments of a command. -/
structure Found where
  /-- The values of its options. -/
  values : Values := []
  /-- Its word. -/
  word : Option String := none
  /-- Whether there is anything that it has no use for. -/
  surplus : Bool := false
  deriving DecidableEq, Repr

/-- Goes through the arguments of a command, which may have a word if it `needsWord`. The double
dash beside the word belongs to it. -/
def walk (needsWord : Bool) (f : Found) : List Token → Except Refusal Found
  | [] => .ok f
  | .option hit :: rest =>
    match h : taken hit rest f.values with
    | .error e => .error e
    | .ok after =>
      have := length_taken_le h
      walk needsWord { f with values := after.1 } after.2
  | .word text :: .dashes :: rest =>
    if needsWord && f.word.isNone then walk needsWord { f with word := some text } rest
    else walk needsWord { f with surplus := true } rest
  | .dashes :: .word text :: rest =>
    if needsWord && f.word.isNone then walk needsWord { f with word := some text } rest
    else walk needsWord { f with surplus := true } rest
  | .word text :: rest =>
    if needsWord && f.word.isNone then walk needsWord { f with word := some text } rest
    else walk needsWord { f with surplus := true } rest
  | .dashes :: rest | .stranger :: rest => walk needsWord { f with surplus := true } rest
  termination_by tokens => tokens.length

/-- The command that was found. -/
def Topic.command (t : Topic) (f : Found) : Option Command :=
  match t, f.word with
  | validate, some file => some (.validate file (f.values.lookup "--strict").isSome)
  | play, some cardId =>
    some (.play cardId (f.values.number "--seed") (f.values.text "--definitions").value?)
  | serve, _ =>
    some (.serve ((f.values.text "--host").orDefault "127.0.0.1")
      ((f.values.number "--port").orDefault 8000))
  | _, none => none

/-- Reads the arguments of a command. -/
def Topic.read (t : Topic) (args : List String) : Except Stop (Command × Bool) := do
  let tokens ← (tokens t.options args).mapError (·.stop (some t))
  let f ← (walk t.needsWord {} tokens).mapError (·.stop (some t))
  match t.command f with
  | some c => return (c, f.surplus)
  | none => throw .misuse

/-- Goes through the arguments of the program up to its command. `args` are the same arguments as
the tokens. -/
def walkProgram (args : List String) (f : Found) : List Token → Except Stop Invocation
  | [] =>
    if f.surplus then .error .misuse
    else .ok { logLevel := (f.values.text "--log-level").value? }
  | .option hit :: rest =>
    match h : taken hit rest f.values with
    | .error e => .error (e.stop none)
    | .ok after =>
      have := length_taken_le h
      walkProgram args { f with values := after.1 } after.2
  | .stranger :: rest => walkProgram args { f with surplus := true } rest
  | .dashes :: _ => .error .misuse
  | .word name :: rest => do
    match Topic.ofName? name with
    | none => throw .misuse
    | some t =>
      let (command, surplus) ← t.read (args.drop (args.length - rest.length))
      if f.surplus || surplus then throw .misuse
      else return { logLevel := (f.values.text "--log-level").value?, command := some command }
  termination_by tokens => tokens.length

/-- Reads the arguments of the program. -/
def Invocation.ofArguments (args : List String) : Except Stop Invocation := do
  walkProgram args {} (← (tokens programOptions args).mapError (·.stop none))

/-- A call without arguments is a call without a command. -/
theorem Invocation.ofArguments_nil : Invocation.ofArguments [] = .ok {} := by
  have h : walkProgram [] {} [] = .ok {} := by simp [walkProgram, Values.text, Given.value?]
  exact h

end Treasury.CommandLine
