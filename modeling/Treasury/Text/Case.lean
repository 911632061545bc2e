import Treasury.Text.CaseContext
import Treasury.Text.CaseTable

/-!
# Lower and upper case of a text

Case mappings of whole texts. Both are full mappings: a character may become several, and a capital
sigma becomes the final form at the end of a word.
-/

namespace Treasury.Text

/-- The other case of a character by the first run that holds it. -/
def shifted (runs : List CaseRun) (c : Char) : Char :=
  match runs.findSome? (·.shift? c.toNat) with
  | some n => Char.ofNat n
  | none => c

/-- The lower case of a character, given the characters before it, nearest first, and after it. -/
def lowerAt (before after : List Char) (c : Char) : List Char :=
  if c = '\u03a3' then
    if startsCased before && !startsCased after then ['\u03c2'] else ['\u03c3']
  else if c = '\u0130' then ['i', '\u0307']
  else [shifted lowerRuns c]

/-- The lower case of the characters that follow `before`, which is held nearest first. -/
def lowerAfter (before : List Char) : List Char → List Char
  | [] => []
  | c :: rest => lowerAt before rest c ++ lowerAfter (c :: before) rest

/-- The lower case of a text. -/
def lower (s : String) : String := .ofList (lowerAfter [] s.toList)

/-- The upper case of a character. -/
def upperOf (c : Char) : List Char :=
  match upperExpansions.lookup c.toNat with
  | some ns => ns.map Char.ofNat
  | none => [shifted upperRuns c]

/-- The upper case of a text. -/
def upper (s : String) : String := .ofList (s.toList.flatMap upperOf)

end Treasury.Text
