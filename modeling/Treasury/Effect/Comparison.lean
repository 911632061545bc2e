import Treasury.Vocabulary

/-!
# Comparisons

The six comparisons of whole numbers that a condition may use.
-/

namespace Treasury

/-- A comparison of whole numbers. -/
inductive Comparison where
  | equal
  | notEqual
  | greater
  | less
  | atLeast
  | atMost
  deriving DecidableEq, Repr, Inhabited

instance : Vocabulary Comparison where
  all := [.equal, .notEqual, .greater, .less, .atLeast, .atMost]
  name
    | .equal => "=="
    | .notEqual => "!="
    | .greater => ">"
    | .less => "<"
    | .atLeast => ">="
    | .atMost => "<="

/-- Whether a comparison holds between two numbers. -/
def Comparison.holds (c : Comparison) (left right : Int) : Bool :=
  match c with
  | .equal => left = right
  | .notEqual => left ≠ right
  | .greater => left > right
  | .less => left < right
  | .atLeast => left ≥ right
  | .atMost => left ≤ right

/-- Compares two numbers by a word, which has to be known; the words for one that is not are the
error. -/
def Comparison.byWord (word : Word Comparison) (left right : Int) : Except String Bool :=
  match word with
  | .known c => .ok (c.holds left right)
  | .other text _ => .error s!"Unknown comparison: {text}"

end Treasury
