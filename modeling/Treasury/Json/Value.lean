import Treasury.Numeric.Binary64

/-!
# JSON values

Definitions, requests and answers are JSON. Whole numbers and doubles are told apart, as they are in
the text, and the members of an object keep the order in which their names first occur. The main
statement is that an object built by `put` holds what was put last.
-/

namespace Treasury

open Numeric (Binary64)

/-- A JSON value. -/
inductive Json where
  /-- The null value. -/
  | null
  /-- A truth value. -/
  | bool (value : Bool)
  /-- A number without fraction and exponent. -/
  | int (value : Int)
  /-- Any other number. -/
  | float (value : Binary64)
  /-- A text. -/
  | str (value : String)
  /-- A list. -/
  | arr (items : List Json)
  /-- An object, whose names are distinct. -/
  | obj (members : List (String × Json))
  deriving Inhabited, Repr

namespace Json

/-- The members of an object after a member is put: a name that is there keeps its place. -/
def put (name : String) (value : α) : List (String × α) → List (String × α)
  | [] => [(name, value)]
  | (n, v) :: rest =>
    if n = name then (n, value) :: rest else (n, v) :: put name value rest

/-- The member of the given name. -/
def member? (name : String) : Json → Option Json
  | .obj members => members.lookup name
  | _ => none

/-- A text, or null for none. -/
def ofText? : Option String → Json
  | some s => .str s
  | none => .null

/-- A double, or null for an infinity or a NaN. -/
def ofFinite (x : Binary64) : Json := if x.isFinite then .float x else .null

mutual

/-- Whether a value holds no infinity and no NaN. -/
def isFinite : Json → Bool
  | .float x => x.isFinite
  | .arr items => areFinite items
  | .obj members => haveFinite members
  | _ => true

/-- Whether the items of a list hold no infinity and no NaN. -/
def areFinite : List Json → Bool
  | [] => true
  | item :: rest => item.isFinite && areFinite rest

/-- Whether the members of an object hold no infinity and no NaN. -/
def haveFinite : List (String × Json) → Bool
  | [] => true
  | (_, value) :: rest => value.isFinite && haveFinite rest

end

/-- A list of things, each shown by a function. -/
def list (shown : α → Json) (items : List α) : Json := .arr (items.map shown)

/-- What was put last under a name is found there. -/
@[simp]
theorem lookup_put_self (name : String) (value : α) (members : List (String × α)) :
    (put name value members).lookup name = some value := by
  induction members with
  | nil => simp [put]
  | cons m rest ih =>
    obtain ⟨n, v⟩ := m
    by_cases h : n = name
    · simp [put, h]
    · simp [put, h, List.lookup_cons, ih, beq_eq_false_iff_ne.mpr (Ne.symm h)]

/-- Putting a member leaves the members of other names. -/
theorem lookup_put_of_ne {name other : String} (h : other ≠ name) (value : α)
    (members : List (String × α)) :
    (put name value members).lookup other = members.lookup other := by
  induction members with
  | nil => simp [put, List.lookup_cons, beq_eq_false_iff_ne.mpr h]
  | cons m rest ih =>
    obtain ⟨n, v⟩ := m
    by_cases hn : n = name
    · subst hn
      simp [put, List.lookup_cons, beq_eq_false_iff_ne.mpr h]
    · simp [put, hn, List.lookup_cons, ih]

end Json

end Treasury
