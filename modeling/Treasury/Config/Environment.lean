import Treasury.Config
import Treasury.Text.Case
import Treasury.Text.Numeral

/-!
# Settings from the environment

A host may set the configuration by named texts. A text that is missing, and for numbers also a
blank one, leaves its setting at its default. The main statement is that no texts give the default
configuration.
-/

namespace Treasury

/-- Named texts that a host sets. -/
abbrev Environment := List (String × String)

/-- Why settings are not read. -/
inductive SettingError where
  /-- A number is expected. -/
  | notNumber (error : Text.NumeralError)
  /-- There is no such policy. -/
  | noSuchPolicy (word : String)
  deriving DecidableEq, Repr

/-- The words for settings that are not read. -/
def SettingError.message : SettingError → String
  | .notNumber e => e.message
  | .noSuchPolicy word => s!"{Text.quoted word} is not a valid ReentryPolicy"

namespace Environment

/-- A text with its blanks around it taken off. -/
def trimmed (s : String) : String := .ofList (Text.trim Text.isBlank s.toList)

/-- The number of the given name, if it is set. -/
def number? (env : Environment) (name : String) : Except SettingError (Option Int) :=
  match env.lookup name with
  | none => .ok none
  | some text =>
    if trimmed text = "" then .ok none
    else (Text.readNumeral text).mapError .notNumber |>.map some

/-- Whether the text of the given name says yes. -/
def isOn (env : Environment) (name : String) : Bool :=
  match env.lookup name with
  | none => false
  | some text => Text.lower (trimmed text) ∈ ["1", "true", "yes", "on"]

/-- The policy of the given name, which has to be known; its case does not matter. -/
def policy (env : Environment) (name : String) : Except SettingError ReentryPolicy :=
  match env.lookup name with
  | none => .ok .overwrite
  | some text =>
    match Text.lower text with
    | "overwrite" => .ok .overwrite
    | "reject" => .ok .reject
    | word => .error (.noSuchPolicy word)

end Environment

/-- The names of the texts that count. -/
def Environment.names : List String :=
  ["COFFERS_MAX_HAND_SIZE", "COFFERS_MAX_PROMOTION_LEVEL", "COFFERS_REENTRY_POLICY",
    "COFFERS_AUTO_SELECT_TARGETS", "COFFERS_SEED"]

/-- The configuration that an environment sets. -/
def Config.ofEnvironment (env : Environment) : Except SettingError Config := do
  let maxHandSize ← env.number? "COFFERS_MAX_HAND_SIZE"
  let maxPromotionLevel ← env.number? "COFFERS_MAX_PROMOTION_LEVEL"
  let policy ← env.policy "COFFERS_REENTRY_POLICY"
  let seed ← env.number? "COFFERS_SEED"
  let default : Config := {}
  return {
    maxHandSize := maxHandSize.getD default.maxHandSize
    maxPromotionLevel := maxPromotionLevel.getD default.maxPromotionLevel
    policy
    autoSelect := env.isOn "COFFERS_AUTO_SELECT_TARGETS"
    seed }

/-- Without any texts the configuration is the default one. -/
@[simp]
theorem Config.ofEnvironment_nil : Config.ofEnvironment [] = .ok {} := rfl

end Treasury
