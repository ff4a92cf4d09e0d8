import CausalUpdate.Decimal.Reader
import CausalUpdate.FileTree.Basic
import CausalUpdate.Settings.Basic
import CausalUpdate.Text.Digit
import CausalUpdate.Text.Quoted

/-!
# Settings from the environment

Settings can be given by environment variables; one that is not set leaves its setting as it is.
The variables are read in a fixed order, and the first one that cannot be read decides the failure.
Before that it is made sure that there can be an environment with these variables.
-/

namespace CausalUpdate

open CausalUpdate.Text

abbrev Environment := List (String × String)

/-- Why settings cannot be taken from the environment. -/
inductive SettingsError
  /-- No variable can hold the name or the value. -/
  | impossible
  /-- The name of a variable holds the sign that ends it. -/
  | malformedName
  /-- A variable has no name. -/
  | noName
  /-- The text is no number. -/
  | malformedNumber (text : String)
  /-- The text is no whole number. -/
  | malformedInteger (text : String)
  /-- The text is a whole number with too many digits. -/
  | longInteger (digits : Nat)
  /-- Values make no sense. -/
  | faults (found : List SettingFault)
deriving DecidableEq, Repr

/-- The most characters of a quoted text that a message shows. -/
def quotedLimit : Nat := 200

def SettingFault.message (f : SettingFault) : String :=
  f.field ++ ": " ++ f.condition

def SettingsError.message : SettingsError → String
  | .impossible => PathError.impossible.message
  | .malformedName => "illegal environment variable name"
  | .noName => "Invalid argument"
  | .malformedNumber text => s!"could not convert string to float: {quoted text}"
  | .malformedInteger text =>
    "invalid literal for int() with base 10: " ++
      String.ofList ((quotedChars text.toList).take quotedLimit)
  | .longInteger digits => tooLongMessage digits
  | .faults found => String.intercalate ", " (found.map SettingFault.message)

namespace Environment

/-- There can be a variable of that name with that value. -/
def checkVariable (name value : String) : Except SettingsError Unit :=
  if name.contains nullCharacter || value.contains nullCharacter then .error .impossible
  else if name.contains '=' then .error .malformedName
  else if name.isEmpty then .error .noName
  else .ok ()

/-- There can be an environment with these variables. -/
def check (e : Environment) : Except SettingsError Unit :=
  e.forM fun (name, value) => checkVariable name value

/-- A number, or the default if the variable is not set. -/
def number (e : Environment) (name : String) (default : Float) : Except SettingsError Float :=
  match e.lookup name with
  | none => .ok default
  | some text =>
    match Decimal.readFloat text.toList with
    | some x => .ok x
    | none => .error (.malformedNumber text)

/-- A whole number, or the default if the variable is not set. -/
def integer (e : Environment) (name : String) (default : Int) : Except SettingsError Int :=
  match e.lookup name with
  | none => .ok default
  | some text =>
    match readInteger text.toList with
    | .ok n => .ok n
    | .error .malformed => .error (.malformedInteger text)
    | .error (.tooLong digits) => .error (.longInteger digits)

/-- The words that switch a setting on. -/
def onWords : List String :=
  ["1", "true", "yes", "on"]

/-- A switch, or the default if the variable is not set. -/
def switch (e : Environment) (name : String) (default : Bool) : Bool :=
  match e.lookup name with
  | none => default
  | some text => onWords.contains (String.ofList ((trim text.toList).map Char.toLower))

/-- A text, or the default if the variable is not set. -/
def text (e : Environment) (name default : String) : String :=
  (e.lookup name).getD default

end Environment

def Environment.names : List String :=
  ["SOLVER_TIMEOUT", "SOLVER_MAX_MODELS", "UPDATE_RELABEL_INCOMING", "UPDATE_SCORE_SOLUTIONS",
   "ASP_PROGRAMS_DIR", "LOG_LEVEL", "LOG_DIR", "LOG_TO_FILE"]

/-- Results with faults as a failure. -/
def refuseFaults {α : Type} : Except (List SettingFault) α → Except SettingsError α
  | .ok a => .ok a
  | .error found => .error (.faults found)

/-- The settings that environment variables ask for. -/
def Settings.ofEnvironment (e : Environment) : Except SettingsError Settings := do
  e.check
  let timeout ← e.number "SOLVER_TIMEOUT" 30.0
  let models ← e.integer "SOLVER_MAX_MODELS" 0
  let solver ← refuseFaults (SolverSettings.checked timeout models [])
  let level ← refuseFaults (JournalSettings.level? (e.text "LOG_LEVEL" "INFO"))
  return {
    solver
    update :=
      { relabelIncoming := e.switch "UPDATE_RELABEL_INCOMING" true
        scoreSolutions := e.switch "UPDATE_SCORE_SOLUTIONS" true }
    store := { directory := e.text "ASP_PROGRAMS_DIR" "programs" }
    journal :=
      { level
        directory := e.text "LOG_DIR" "logs"
        toFiles := e.switch "LOG_TO_FILE" false } }

end CausalUpdate
