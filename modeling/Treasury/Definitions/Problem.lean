import Treasury.Card.Grade
import Treasury.Json.Value

/-!
# Problems of a document

What can be wrong with a value of a document, and where. Reading a document does not stop at the
first problem: a `Checked` value is either the value or all the problems of its parts, in order, and
combining checked parts joins their problems.
-/

namespace Treasury

/-- A step from a value to a part of it. -/
inductive Step where
  /-- To the member of a name. -/
  | field (name : String)
  /-- To the item at a place. -/
  | item (index : Nat)
  deriving DecidableEq, Repr

/-- A step as it is shown. -/
def Step.text : Step → String
  | .field name => name
  | .item index => toString index

/-- A step as JSON. -/
def Step.toJson : Step → Json
  | .field name => .str name
  | .item index => .int index

/-- The part of a value that a step leads to. -/
def Step.part? (j : Json) : Step → Option Json
  | .field name => j.member? name
  | .item index =>
    match j with
    | .arr items => items[index]?
    | _ => none

/-- What is wrong with a value. -/
inductive Complaint where
  /-- It is not there. -/
  | missing
  /-- It is not a whole number. -/
  | notInt
  /-- It is a text that is not a whole number. -/
  | notIntText
  /-- It is a number with a fraction. -/
  | fraction
  /-- It is a whole number that is too large to be taken from a double or a text. -/
  | tooLarge
  /-- It is not a number. -/
  | notNumber
  /-- It is a text that is not a number. -/
  | notNumberText
  /-- It is an infinity or a NaN. -/
  | notFinite
  /-- It is not a text. -/
  | notText
  /-- It is not a list. -/
  | notList
  /-- It is not an object; the name is that of what it should describe. -/
  | notObject (name : String)
  /-- It is the body of a request and not an object. -/
  | notBody
  /-- It is the body of a request and not JSON. -/
  | notJson
  /-- It is none of the words that are allowed. -/
  | notAmong (words : List String)
  /-- It is below a bound. -/
  | below (bound : Int)
  /-- It is above a bound. -/
  | above (bound : Int)
  /-- It is not a grade. -/
  | notGrade (error : Grade.ReadError)
  deriving DecidableEq, Repr

namespace Complaint

/-- The code of a complaint. -/
def code : Complaint → String
  | .missing => "missing"
  | .notInt => "int_type"
  | .notIntText => "int_parsing"
  | .fraction => "int_from_float"
  | .tooLarge => "int_parsing_size"
  | .notNumber => "float_type"
  | .notNumberText => "float_parsing"
  | .notFinite => "finite_number"
  | .notText => "string_type"
  | .notList => "list_type"
  | .notObject _ => "model_type"
  | .notBody => "model_attributes_type"
  | .notJson => "json_invalid"
  | .notAmong _ => "enum"
  | .below _ => "greater_than_equal"
  | .above _ => "less_than_equal"
  | .notGrade _ => "value_error"

/-- Words in quotes, joined by commas and a last "or". -/
def alternatives : List String → String
  | [] => ""
  | [word] => s!"'{word}'"
  | [word, last] => s!"'{word}' or '{last}'"
  | word :: rest => s!"'{word}', " ++ alternatives rest

/-- The words for a complaint. -/
def message : Complaint → String
  | .missing => "Field required"
  | .notInt => "Input should be a valid integer"
  | .notIntText => "Input should be a valid integer, unable to parse string as an integer"
  | .fraction => "Input should be a valid integer, got a number with a fractional part"
  | .tooLarge => "Unable to parse input string as an integer, exceeded maximum size"
  | .notNumber => "Input should be a valid number"
  | .notNumberText => "Input should be a valid number, unable to parse string as a number"
  | .notFinite => "Input should be a finite number"
  | .notText => "Input should be a valid string"
  | .notList => "Input should be a valid list"
  | .notObject name => s!"Input should be a valid dictionary or instance of {name}"
  | .notBody => "Input should be a valid dictionary or object to extract fields from"
  | .notJson => "JSON decode error"
  | .notAmong words => "Input should be " ++ alternatives words
  | .below bound => s!"Input should be greater than or equal to {bound}"
  | .above bound => s!"Input should be less than or equal to {bound}"
  | .notGrade error => "Value error, " ++ error.message

end Complaint

/-- A complaint and the way to the value that it is about. -/
structure Problem where
  /-- The way from the whole document to the value. -/
  path : List Step
  /-- What is wrong with it. -/
  complaint : Complaint
  deriving DecidableEq, Repr

/-- The value of a document that a problem is about: what lacks a member, if one is missing. -/
def Problem.subject? (document : Json) (p : Problem) : Option Json :=
  let path := if p.complaint = .missing then p.path.dropLast else p.path
  path.foldlM Step.part? document

/-- A problem as JSON. -/
def Problem.toJson (p : Problem) : Json := .obj [
  ("loc", .list (·.toJson) p.path),
  ("type", .str p.complaint.code),
  ("msg", .str p.complaint.message)]

/-- A value that was read, or the problems of its parts. -/
inductive Checked (α : Type) where
  /-- The value. -/
  | good (value : α)
  /-- The problems, in order. -/
  | bad (problems : List Problem)
  deriving Repr

namespace Checked

/-- The problems of a checked value. -/
def problems : Checked α → List Problem
  | .good _ => []
  | .bad ps => ps

/-- A value with one thing wrong with it. -/
def complain (c : Complaint) : Checked α := .bad [{ path := [], complaint := c }]

/-- The value with a function applied to it. -/
def map (f : α → β) : Checked α → Checked β
  | .good a => .good (f a)
  | .bad ps => .bad ps

/-- A checked function applied to a checked value. -/
def seq : Checked (α → β) → Checked α → Checked β
  | .good f, .good a => .good (f a)
  | .good _, .bad ps => .bad ps
  | .bad ps, .good _ => .bad ps
  | .bad ps, .bad qs => .bad (ps ++ qs)

instance : Applicative Checked where
  pure := .good
  map := map
  seq f a := seq f (a ())

/-- A checked part as a part of the whole. -/
def under (step : Step) : Checked α → Checked α
  | .good a => .good a
  | .bad ps => .bad (ps.map fun p => { p with path := step :: p.path })

/-- An answer or a complaint, as a checked value. -/
def ofExcept : Except Complaint α → Checked α
  | .ok a => .good a
  | .error c => complain c

/-- Checked values as one checked list. -/
def list : List (Checked α) → Checked (List α)
  | [] => .good []
  | a :: rest => seq (map List.cons a) (list rest)

/-- A list is good exactly when its items are, and then it holds their values. -/
theorem list_eq_good_iff {cs : List (Checked α)} {as : List α} :
    list cs = .good as ↔ cs = as.map .good := by
  induction cs generalizing as with
  | nil => cases as <;> simp [list]
  | cons c rest ih =>
    cases c with
    | bad ps =>
      cases h : list rest <;> cases as <;> simp [list, h, map, seq]
    | good a =>
      cases h : list rest with
      | bad ps =>
        cases as with
        | nil => simp [list, h, map, seq]
        | cons b bs =>
          have hne : rest ≠ bs.map .good := fun e => by simp [ih.mpr e] at h
          simp [list, h, map, seq, hne]
      | good bs =>
        have hrest := ih.mp h
        cases as with
        | nil => simp [list, h, map, seq]
        | cons b cs =>
          have hinj : List.map Checked.good bs = List.map Checked.good cs ↔ bs = cs :=
            List.map_inj_right fun _ _ e => by cases e; rfl
          simp only [list, h, map, seq, List.map_cons, List.cons.injEq, good.injEq]
          rw [hrest, hinj]

end Checked

end Treasury
