import Treasury.Json.Value
import Treasury.Text.Quoted

/-!
# Writing JSON text

`Json.write` writes a value on one line without blanks. How a double is written is left to the
caller, since texts for people and texts for exact comparison differ in it.
-/

namespace Treasury.Json

/-- A character inside a JSON string. -/
def writtenChar (c : Char) : List Char :=
  if c = '"' || c = '\\' then ['\\', c]
  else if c = '\n' then ['\\', 'n']
  else if c.val < 0x20 then '\\' :: 'u' :: Text.hexDigits c.toNat 4
  else [c]

/-- A text as a JSON string. -/
def writeString (s : String) : String :=
  .ofList ('"' :: s.toList.flatMap writtenChar ++ ['"'])

mutual

/-- A value as JSON text, doubles written by `double`. -/
def write (double : Numeric.Binary64 → String) : Json → String
  | .null => "null"
  | .bool b => if b then "true" else "false"
  | .int n => toString n
  | .float x => double x
  | .str s => writeString s
  | .arr items => "[" ++ ",".intercalate (writeItems double items) ++ "]"
  | .obj members => "\x7b" ++ ",".intercalate (writeMembers double members) ++ "\x7d"

/-- The items of a list as JSON texts. -/
def writeItems (double : Numeric.Binary64 → String) : List Json → List String
  | [] => []
  | item :: rest => write double item :: writeItems double rest

/-- The members of an object as JSON texts. -/
def writeMembers (double : Numeric.Binary64 → String) : List (String × Json) → List String
  | [] => []
  | (name, value) :: rest =>
    (writeString name ++ ":" ++ write double value) :: writeMembers double rest

end

end Treasury.Json
