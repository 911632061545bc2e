import Treasury.CommandLine.Command

/-!
# Help texts

A help text has a usage line, perhaps a description, and sections of rows. Labels stand at the left;
all texts of a page start in one column, and a label that reaches into it has its text on a line of
its own.
-/

namespace Treasury.CommandLine

/-- A row of a section. -/
structure HelpRow where
  /-- What the row is about. -/
  label : String
  /-- What there is to say about it. -/
  text : String := ""
  /-- How far the label is indented. -/
  indent : Nat := 2

/-- A help text. -/
structure HelpPage where
  /-- How the program is called. -/
  usage : String
  /-- What it is for. -/
  description : Option String := none
  /-- The sections with their titles. -/
  sections : List (String × List HelpRow)

namespace HelpRow

/-- The place after the label. -/
def reach (r : HelpRow) : Nat := r.indent + r.label.length

/-- Spaces in front of a text that starts in a column, from a place on. -/
def gap (place column : Nat) : String := .ofList (List.replicate (column - place) ' ')

/-- The lines of a row. -/
def lines (column : Nat) (r : HelpRow) : List String :=
  let label := gap 0 r.indent ++ r.label
  if r.text = "" then [label]
  else if r.reach + 2 ≤ column then [label ++ gap r.reach column ++ r.text]
  else [label, gap 0 column ++ r.text]

end HelpRow

namespace HelpPage

/-- The column in which texts start: two places after the longest label, but not after the
twenty-fourth place. -/
def column (p : HelpPage) : Nat :=
  min 24 (((p.sections.flatMap (·.2)).map (·.reach)).foldl max 0 + 2)

/-- The lines of a help text. -/
def lines (p : HelpPage) : List String :=
  let parts := p.sections.map fun (title, rows) =>
    (title ++ ":") :: rows.flatMap (·.lines p.column)
  (["usage: " ++ p.usage] :: (p.description.toList.map ([·]) ++ parts)).intersperse [""] |>.flatten

end HelpPage

/-- The row of the option that asks for help. -/
def helpRow : HelpRow := { label := "-h, --help", text := "show this help message and exit" }

/-- The help text of the program. -/
def programHelp : HelpPage where
  usage := "coffers [-h] [--log-level LOG_LEVEL] \x7bvalidate,play,serve\x7d ..."
  description := some "Coffers - Deck-builder effect engine"
  sections := [
    ("positional arguments", [
      { label := "\x7bvalidate,play,serve\x7d", text := "Commands" },
      { label := "validate", text := "Validate a definitions file", indent := 4 },
      { label := "play", text := "Play a card against the starter setup", indent := 4 },
      { label := "serve", text := "Run the REST API", indent := 4 }]),
    ("options", [
      helpRow,
      { label := "--log-level LOG_LEVEL",
        text := "Logging level (default: COFFERS_LOG_LEVEL or INFO)" }])]

/-- The help text of a command. -/
def Topic.help : Topic → HelpPage
  | validate => {
      usage := "coffers validate [-h] [--strict] definitions_file"
      sections := [
        ("positional arguments",
          [{ label := "definitions_file", text := "Path to definitions JSON" }]),
        ("options", [helpRow, { label := "--strict", text := "Treat warnings as errors" }])] }
  | play => {
      usage := "coffers play [-h] [--seed SEED] [--definitions DEFINITIONS] card_id"
      sections := [
        ("positional arguments",
          [{ label := "card_id", text := "Card id from the starter catalog" }]),
        ("options", [
          helpRow,
          { label := "--seed SEED", text := "Random seed" },
          { label := "--definitions DEFINITIONS",
            text := "Extra definitions JSON to load first" }])] }
  | serve => {
      usage := "coffers serve [-h] [--host HOST] [--port PORT]"
      sections :=
        [("options", [helpRow, { label := "--host HOST" }, { label := "--port PORT" }])] }

end Treasury.CommandLine
