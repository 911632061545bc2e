import Treasury.CommandLine.Files
import Treasury.CommandLine.Help
import Treasury.Config.Environment
import Treasury.Definitions.Check
import Treasury.Definitions.Document
import Treasury.Session.Store

/-!
# Running a call of the program

`run` carries a call out as a pure function of its arguments, the environment and the files: it
answers with the lines to be printed and how the call ends.
-/

namespace Treasury.CommandLine

/-- Why a call breaks off without the program saying so. -/
inductive Failure where
  /-- There is no such level of the log. -/
  | noSuchLevel (word : String)
  /-- The settings are not read. -/
  | setting (error : SettingError)
  /-- A file is not read. -/
  | file (fault : FileFault)
  /-- The option for a seed is given no value. -/
  | blankSeed
  /-- The definitions are not loaded. -/
  | load (error : LoadError)
  /-- A value or a service failed. -/
  | engine (error : EngineError)
  deriving Repr

/-- How a call ends. -/
inductive Ending where
  /-- It is done. -/
  | done
  /-- The program exits with a code. -/
  | exited (code : Nat)
  /-- It breaks off. -/
  | failed (failure : Failure)
  deriving Repr

/-- The words for a call that breaks off. -/
def Failure.message : Failure → String
  | .noSuchLevel word => "Unknown level: " ++ Text.quoted word
  | .setting e => e.message
  | .file fault => fault.message
  | .blankSeed => "The seed has no value"
  | .load .notText => "The file is not UTF-8 text"
  | .load (.notJson text e) => e.message text
  | .load (.problems ps) => s!"The file has {ps.length} problem(s)"
  | .engine e => e.message?.getD "A value or a service failed"

/-- An offer to answer requests. -/
structure Service where
  /-- The name of the host, unless it is blank. -/
  host : Option String
  /-- The number of the port, unless it is blank. -/
  port : Option Int
  /-- The sessions to begin with. -/
  store : Store

/-- What comes of a call. -/
structure Ran where
  /-- The lines that are printed. -/
  output : List String := []
  /-- How the call ends. -/
  ending : Ending := .done
  /-- The offer to answer requests from now on, if there is one. -/
  served : Option Service := none

namespace Ran

/-- Lines printed before a call goes on. -/
def after (output : List String) (r : Ran) : Ran := { r with output := output ++ r.output }

/-- The printed text. -/
def text (r : Ran) : String := .join (r.output.map (· ++ "\n"))

/-- A call that prints lines and exits with code one. -/
def givesUp (output : List String) : Ran := { output, ending := .exited 1 }

end Ran

/-- The levels of the log. -/
def logLevels : List String :=
  ["CRITICAL", "FATAL", "ERROR", "WARN", "WARNING", "INFO", "DEBUG", "NOTSET"]

/-- A title with items below it, after a blank line; nothing without items. -/
def titled (title : String) (items : List String) : List String :=
  if items.isEmpty then [] else "" :: title :: items.map ("  - " ++ ·)

/-- A problem as a line of text. -/
def problemLine (p : Problem) : String :=
  ".".intercalate (p.path.map (·.text)) ++ ": " ++ p.complaint.message

/-- Checks a catalog and prints what is found. -/
def checkCatalog (strict : Bool) (c : Catalog) : Ran :=
  let found := c.check
  let output := [s!"Cards: {c.cards.length}", s!"Events: {c.events.length}"]
    ++ titled "Warnings:" found.warnings ++ titled "Errors:" found.errors
  if !found.isValid || (strict && !found.warnings.isEmpty) then .givesUp output
  else { output := output ++ ["", "OK"] }

/-- Checks a file of definitions. -/
def validate (files : Files) (file : String) (strict : Bool) : Ran :=
  .after [s!"Validating: {file}"] <|
    match files file with
    | .error .missing => .givesUp [s!"Error: File not found: {file}"]
    | .error fault => { ending := .failed (.file fault) }
    | .ok bytes =>
      match ({} : Catalog).loadBytes bytes with
      | .ok c => checkCatalog strict c
      | .error (.notJson text (.misread fault position)) =>
        .givesUp ["Error: Invalid JSON: " ++ (Json.ReadError.misread fault position).message text]
      | .error (.problems ps) =>
        .givesUp (s!"Error: Malformed definitions ({ps.length} problem(s))"
          :: ps.map fun p => "  - " ++ problemLine p)
      | .error e => { ending := .failed (.load e) }

/-- The starter catalog with the definitions of a file added; an empty path is no file. -/
def catalogWith (files : Files) (definitions : Option String) : Except Failure Catalog :=
  match definitions.getD "" with
  | "" => .ok Starter.catalog
  | path =>
    match files path with
    | .error fault => .error (.file fault)
    | .ok bytes => (Starter.catalog.loadBytes bytes).mapError .load

/-- The hand as a line of text. -/
def handText (g : GameState) : String := ", ".intercalate (g.zones.hand.map (·.cardId))

/-- A result as a line of text. -/
def resultLine (r : EffectResult) : String :=
  let status := if r.success then "ok" else "failed"
  s!"  - {r.kind.name}: {status} (count={r.count}, value={r.value})"

/-- Plays a card that is put into the opening hand of a new game, with targets picked without
asking. -/
def playIn (st : Store) (cardId : String) (seed : Option Int) : Ran :=
  let s := (st.create seed none).1
  let made := s.game.newCard cardId false none
  let hand := made.2.zones.hand ++ [made.1]
  let game := { made.2 with zones := { made.2.zones with hand } }
  let s := { s with machine := { s.machine with table := { s.machine.table with game } } }
  let played := (Session.play st.rules made.1.instanceId).run.run s
  .after [s!"Gold: {game.gold}  Hand: {handText game}"] <|
    match played.1 with
    | .error (.engine e) => { ending := .failed (.engine e) }
    | .error e => .givesUp ["Error: " ++ e.message?.getD ""]
    | .ok o =>
      let after := played.2.game
      { output := ["", s!"Played {cardId}:"] ++ o.results.map resultLine
          ++ ["", s!"Gold: {after.gold}  Actions: {after.actions}", s!"Hand: {handText after}"] }

/-- Plays a card against the starter setup. -/
def play (env : Environment) (entropy : Int) (files : Files) (cardId : String) (seed : Given Int)
    (definitions : Option String) : Ran :=
  match catalogWith files definitions with
  | .error e => { ending := .failed e }
  | .ok catalog =>
    if !catalog.hasCard cardId then .givesUp [s!"Error: Unknown card: {cardId}"]
    else
      match Config.ofEnvironment env with
      | .error e => { ending := .failed (.setting e) }
      | .ok config =>
        if seed = .blank then { ending := .failed .blankSeed }
        else
          playIn { rules := { catalog, config := { config with autoSelect := true } }, entropy }
            cardId seed.value?

/-- Offers to answer requests, with settings from the environment. -/
def serve (env : Environment) (entropy : Int) (host : Option String)
    (port : Option Int) : Ran :=
  match Config.ofEnvironment env with
  | .error e => { ending := .failed (.setting e) }
  | .ok config =>
    let store : Store := { rules := { catalog := Starter.catalog, config }, entropy }
    { served := some { host, port, store } }

/-- The files that a call reads. -/
def Invocation.files (i : Invocation) : List String :=
  match i.command with
  | some (.validate file _) => [file]
  | some (.play _ _ definitions) => definitions.toList.filter (· ≠ "")
  | _ => []

/-- Carries out what the program is asked to do. -/
def Invocation.run (i : Invocation) (env : Environment) (entropy : Int) (files : Files) : Ran :=
  let level := Text.upper (i.logLevel.getD "")
  if level ≠ "" && level ∉ logLevels then { ending := .failed (.noSuchLevel level) }
  else
    match i.command with
    | none => .givesUp programHelp.lines
    | some (.validate file strict) => validate files file strict
    | some (.play cardId seed definitions) => play env entropy files cardId seed definitions
    | some (.serve host port) => serve env entropy host port

/-- Carries out a call with the given arguments. -/
def run (env : Environment) (entropy : Int) (files : Files) (args : List String) : Ran :=
  match Invocation.ofArguments args with
  | .ok i => i.run env entropy files
  | .error (.help topic) =>
    { output := (match topic with
        | some t => t.help
        | none => programHelp).lines
      ending := .exited 0 }
  | .error .misuse => { ending := .exited 2 }

end Treasury.CommandLine
