import Treasury.Definitions.Draft
import Treasury.Definitions.Field
import Treasury.Json.Reader

/-!
# Definition documents

A document is a JSON object with a list of cards and a list of events. `Document.ofJson` reads one
as drafts, with all its problems if it has any. `Document.loading` then makes definitions of the
drafts one by one and adds each to a catalog before it turns to the next, and `Catalog.load` is what
comes of that. Words for kinds of effects, conditions and value sources need not be known;
everything else has to be in order.

Which members a document may leave out is a matter of the models below. That members which none of
them names are ignored, that all problems are collected with the paths to them, and that what fits
no member of a union has the problems of each is documented by pydantic 2 under "Models", "Error
Handling" and "Unions".
-/

namespace Treasury

open Treasury.Field

namespace Document

/-- Reads a value by a rule for single values. -/
abbrev taken (rule : Json → Except Complaint α) (j : Json) : Checked α := .ofExcept (rule j)

/-- Reads the source of a magnitude. -/
def valueSource : Json → Checked ValueSource :=
  object "DynamicValueModel" fun o =>
    ValueSource.mk
      <$> optional o "kind" (taken (anyWord SourceKind)) (.known .fixed)
      <*> optional o "base" (taken int) 0
      <*> optional o "multiplier" (taken finite) .one
      <*> optional o "min" (taken int) 0
      <*> optional o "max" (taken int) 0

/-- Reads a condition. -/
def condition : Json → Checked Condition :=
  object "ConditionModel" fun o =>
    Condition.mk
      <$> required o "kind" (taken (anyWord ConditionKind))
      <*> optional o "value" (taken int) 0
      <*> optional o "comparison" (orNull (taken (word Comparison))) none
      <*> optional o "card_id" (orNull (taken text)) none

/-- Reads a number that is fixed or described by a source. What is neither has the problems of
both. -/
def amount (j : Json) : Checked Amount :=
  match int j, valueSource j with
  | .ok n, _ => .good (.fixed n)
  | .error _, .good s => .good (.computed s)
  | .error c, .bad ps =>
    .bad (((Checked.complain c).under (.field "int") : Checked Int).problems
      ++ ((Checked.bad ps).under (.field "DynamicValueModel") : Checked Int).problems)

/-- A grade as it is given, if it can be read. -/
def keptGrade (raw : Grade.Raw) : Checked Grade.Raw :=
  match Grade.read raw with
  | .ok _ => .good raw
  | .error e => .complain (.notGrade e)

/-- Reads a grade, given by its place, its name or the id of its card, and keeps it as it is
given. -/
def grade (j : Json) : Checked Grade.Raw :=
  match j with
  | .str s => keptGrade (.text s)
  | _ =>
    match int j with
    | .ok n => keptGrade (.number n)
    | .error c => .bad [
        { path := [.field "int"], complaint := c },
        { path := [.field "str"], complaint := .notText }]

/-- Reads an effect. -/
def effect : Json → Checked EffectDraft :=
  object "EffectModel" fun o =>
    (fun kind value dynamic target maxTargets grade duration successChance successValue failValue
        cardId cardRarity jobPool =>
      { grade
        effect := { kind, value, dynamic, target, maxTargets, duration, successChance, successValue,
                    failValue, cardId, cardRarity, jobPool } })
      <$> required o "kind" (taken (anyWord EffectKind))
      <*> optional o "value" (taken int) 0
      <*> optional o "dynamic" (orNull valueSource) none
      <*> optional o "target" (taken (word TargetKind)) .none
      <*> optional o "max_targets" (taken natural) 0
      <*> optional o "create_grade" (orNull grade) none
      <*> optional o "duration" (taken natural) 0
      <*> optional o "success_chance" (taken percent) 0
      <*> optional o "success_value" amount (.fixed 0)
      <*> optional o "fail_value" amount (.fixed 0)
      <*> optional o "card_id" (orNull (taken text)) none
      <*> optional o "card_rarity" (orNull (taken text)) none
      <*> optional o "job_pool" (orNull (taken text)) none

/-- Reads a group of effects. -/
def group : Json → Checked GroupDraft :=
  object "ConditionGroupModel" fun o =>
    GroupDraft.mk
      <$> optional o "conditions" (listOf condition) []
      <*> optional o "effects" (listOf effect) []
      <*> optional o "else_effects" (listOf effect) []

/-- Reads a card. -/
def card : Json → Checked CardDraft :=
  object "CardModel" fun o =>
    (fun id name kind description rarity grade pollution jobPools effects =>
      { grade, effects, card := { id, name, kind, description, rarity, pollution, jobPools } })
      <$> required o "id" (taken text)
      <*> required o "name" (taken text)
      <*> required o "card_type" (taken (word CardKind))
      <*> optional o "description" (taken text) ""
      <*> optional o "rarity" (taken (word Rarity)) .basic
      <*> optional o "treasure_grade" (orNull grade) none
      <*> optional o "pollution_type" (orNull (taken (word Pollution))) none
      <*> optional o "job_pools" (listOf (taken text)) []
      <*> optional o "effects" (listOf group) []

/-- Reads an option of a choice event. -/
def choice : Json → Checked ChoiceDraft :=
  object "EventChoiceModel" fun o =>
    (fun id text requirements effects => { effects, choice := { id, text, requirements } })
      <$> required o "choice_id" (taken text)
      <*> optional o "text" (taken text) ""
      <*> optional o "requirements" (listOf condition) []
      <*> optional o "effects" (listOf group) []

/-- Reads an event. -/
def event : Json → Checked EventDraft :=
  object "EventModel" fun o =>
    (fun id name description eventType triggers effects choices =>
      { effects, choices, event := { id, name, description, eventType, triggers } })
      <$> required o "id" (taken text)
      <*> required o "name" (taken text)
      <*> optional o "description" (taken text) ""
      <*> optional o "event_type" (taken text) "positive"
      <*> optional o "trigger_conditions" (listOf condition) []
      <*> optional o "effects" (listOf group) []
      <*> optional o "choices" (listOf choice) []

end Document

/-- What a document defines, before its grades are read. -/
structure Document where
  /-- Its cards, in order. -/
  cards : List CardDraft
  /-- Its events, in order. -/
  events : List EventDraft
  deriving DecidableEq, Repr

/-- Why a document is not loaded. -/
inductive LoadFault where
  /-- It has problems. -/
  | refused (ps : List Problem)
  /-- A grade of a draft cannot be read. -/
  | unreadable (error : Grade.ReadError)
  deriving DecidableEq, Repr

/-- What is reported of a document that is not loaded. -/
def LoadFault.problems : LoadFault → List Problem
  | .refused ps => ps
  | .unreadable e => [{ path := [], complaint := .notGrade e }]

/-- An action on a catalog that may fail. A failed action keeps the changes that it made before it
failed. -/
abbrev Loading := ExceptT LoadFault (StateM Catalog)

namespace Loading

/-- What was checked, unless it has problems. -/
def checked : Checked α → Loading α
  | .good a => pure a
  | .bad ps => throw (.refused ps)

/-- What is made of a draft, unless a grade cannot be read. -/
def made : Except Grade.ReadError α → Loading α
  | .ok a => pure a
  | .error e => throw (.unreadable e)

end Loading

namespace Document

/-- Reads a document. -/
def ofJson : Json → Checked Document :=
  object "DefinitionsDocument" fun o =>
    Document.mk
      <$> optional o "cards" (listOf card) []
      <*> optional o "events" (listOf event) []

/-- Adds the definitions of a JSON document, cards before events. -/
def loading (j : Json) : Loading Unit := do
  let d ← Loading.checked (ofJson j)
  d.cards.forM fun draft => do
    let card ← Loading.made draft.read
    modify (·.addCard card)
  d.events.forM fun draft => do
    let event ← Loading.made draft.read
    modify (·.addEvent event)

end Document

/-- Why definitions are not loaded. -/
inductive LoadError where
  /-- The bytes are not UTF-8. -/
  | notText
  /-- The text is not JSON. -/
  | notJson (text : String) (error : Json.ReadError)
  /-- The document has problems. -/
  | problems (ps : List Problem)
  deriving Repr

namespace Catalog

/-- The catalog with the definitions of a JSON document added, or why there is none. -/
def load (c : Catalog) (j : Json) : Except (List Problem) Catalog :=
  match (Document.loading j).run.run c with
  | (.ok _, c) => .ok c
  | (.error fault, _) => .error fault.problems

/-- A text with every line ended by a line feed. -/
def withLineFeeds : List Char → List Char
  | '\r' :: '\n' :: rest => '\n' :: withLineFeeds rest
  | '\r' :: rest => '\n' :: withLineFeeds rest
  | c :: rest => c :: withLineFeeds rest
  | [] => []

/-- Adds the definitions of a file, given the text that it holds. -/
def loadText (c : Catalog) (text : String) : Except LoadError Catalog :=
  let text := .ofList (withLineFeeds text.toList)
  match Json.read text with
  | .error e => .error (.notJson text e)
  | .ok j => (c.load j).mapError .problems

/-- Adds the definitions of a file, given the bytes that it holds. -/
def loadBytes (c : Catalog) (bytes : ByteArray) : Except LoadError Catalog :=
  match String.fromUTF8? bytes with
  | some text => c.loadText text
  | none => .error .notText

end Catalog

end Treasury
