import CausalUpdate.FileTree.Basic
import CausalUpdate.Journal.Basic
import CausalUpdate.Text.Quoted
import CausalUpdate.Text.Similar
import CausalUpdate.Text.Terminal

/-!
# Command line arguments

A command line is a group of options, the name of a command, and the options and arguments of that
command in any order.  An option with a value takes the next word or what stands behind `=`; the
word `--` ends the options.  A word that is no option or no command is refused with similar ones
as proposals.

* `Command.parse` — the command that a list of words asks for.
* `UsageError` — why there is none.
-/

namespace CausalUpdate

open CausalUpdate.Text

/-! ## Syntax -/

structure OptionSpec where
  name : String
  /-- The option takes a value. -/
  hasValue : Bool := true

/-- The option by which every command says how it is called. -/
def helpOption : OptionSpec :=
  ⟨"--help", false⟩

/-- What may stand behind the name of a command. -/
structure CommandSpec where
  /-- The words that call the command. -/
  path : String
  options : List OptionSpec := []
  /-- The names of the arguments. -/
  arguments : List String := []
  /-- Options may stand behind arguments. -/
  mixed : Bool := true

namespace CommandSpec

def group : CommandSpec :=
  { path := "cli", options := [⟨"--log-level", true⟩], mixed := false }

/-- Update a stored program with another one. -/
def update : CommandSpec :=
  { path := "cli update"
    options := [⟨"--programs-dir", true⟩, ⟨"--output", true⟩, ⟨"--yes", false⟩]
    arguments := ["OLD_NAME", "NEW_NAME"] }

/-- Detect the conflicts between two program files. -/
def detect : CommandSpec :=
  { path := "cli detect", options := [⟨"--json", false⟩], arguments := ["OLD_FILE", "NEW_FILE"] }

def list : CommandSpec :=
  { path := "cli list", options := [⟨"--programs-dir", true⟩] }

def allOptions (s : CommandSpec) : List OptionSpec :=
  s.options ++ [helpOption]

def usage (s : CommandSpec) : String :=
  let rest := if s.mixed then s.arguments else ["COMMAND", "[ARGS]..."]
  "Usage: " ++ String.intercalate " " (s.path :: "[OPTIONS]" :: rest)

end CommandSpec

/-! ## Failures -/

/-- Why a list of words asks for no command. -/
inductive UsageError
  | missingCommand
  | unknownCommand (name : String) (similar : List String)
  | unknownOption (name : String) (similar : List String)
  /-- An option stands at the end without its value. -/
  | missingValue (option : String)
  /-- An option that takes no value is given one. -/
  | needlessValue (option : String)
  | missingArgument (name : String)
  | extraArguments (words : List String)
  /-- An argument names no file. -/
  | noFile (argument path : String)
  /-- An argument names a directory where a file is wanted. -/
  | directory (argument path : String)
  /-- An argument that no path can be. -/
  | impossiblePath
deriving DecidableEq, Repr

namespace UsageError

def proposal : List String → String
  | [] => ""
  | [word] => s!" Did you mean {quoted word}?"
  | similar =>
    " (Did you mean one of: " ++ String.intercalate ", " (similar.map quoted) ++ "?)"

def message : UsageError → String
  | missingCommand => "Missing command."
  | unknownCommand name similar => s!"No such command {quoted name}." ++ proposal similar
  | unknownOption name similar => s!"No such option {quoted name}." ++ proposal similar
  | missingValue option => s!"Option {quoted option} requires an argument."
  | needlessValue option => s!"Option {quoted option} does not take a value."
  | missingArgument name => s!"Missing argument '{name}'."
  | extraArguments words =>
    let noun := if words.length = 1 then "argument" else "arguments"
    "Got unexpected extra " ++ noun ++ " (" ++ String.intercalate " " words ++ ")"
  | noFile argument path =>
    s!"Invalid value for '{argument}': File {quoted path} does not exist."
  | directory argument path =>
    s!"Invalid value for '{argument}': File {quoted path} is a directory."
  | impossiblePath => ""

/-- The failure is shown with how the command is called. -/
def showsUsage : UsageError → Bool
  | missingValue _ => false
  | needlessValue _ => false
  | _ => true

/-- A failure as it is shown for a command. -/
def report (e : UsageError) (s : CommandSpec) : String :=
  let usage :=
    if e.showsUsage then s.usage ++ "\nTry '" ++ s.path ++ " --help' for help.\n\n" else ""
  usage ++ "Error: " ++ e.message ++ "\n"

end UsageError

/-! ## Words -/

/-- Words sorted into options and arguments. -/
structure Words where
  /-- The options with their values, the latest first. -/
  options : List (String × Option String) := []
  arguments : List String := []

namespace Words

/-- The words with one more option. -/
def withOption (w : Words) (name : String) (value : Option String) : Words :=
  { w with options := (name, value) :: w.options }

def withArguments (w : Words) (arguments : List String) : Words :=
  { w with arguments := w.arguments ++ arguments }

def has (w : Words) (name : String) : Bool :=
  w.options.any fun o => o.1 = name

/-- The value that an option is given last, if that is not empty. -/
def value? (w : Words) (name : String) : Option String :=
  ((w.options.lookup name).join).filter fun v => !v.isEmpty

end Words

/-- The name of an option and the value behind `=`, if there is one. -/
def splitOption (word : String) : String × Option String :=
  let cs := word.toList
  let name := String.ofList (cs.takeWhile (· ≠ '='))
  match cs.dropWhile (· ≠ '=') with
  | [] => (name, none)
  | _ :: value => (name, some (String.ofList value))

def isOption (word : String) : Bool :=
  word.toList.head? = some '-' && 1 < word.length

namespace CommandSpec

/-- The failure of a word that is no option of the command.  A long option is reported by all of its
name and with similar ones, a short one by its first letter. -/
def unknownOption (s : CommandSpec) (word : String) : UsageError :=
  match word.toList with
  | '-' :: c :: _ =>
    let name := (splitOption word).1
    if c = '-' then .unknownOption name (closest name (s.allOptions.map OptionSpec.name))
    else .unknownOption (String.ofList ['-', c]) []
  | _ => .unknownOption word []

/-- Sort words into options and arguments. -/
def sortWords (s : CommandSpec) (w : Words) : List String → Except UsageError Words
  | [] => .ok w
  | word :: rest =>
    if word = "--" then .ok (w.withArguments rest)
    else if isOption word then
      let (name, value) := splitOption word
      match s.allOptions.find? fun o => o.name = name with
      | none => .error (s.unknownOption word)
      | some o =>
        match o.hasValue, value, rest with
        | false, none, rest => sortWords s (w.withOption name none) rest
        | false, some _, _ => .error (.needlessValue name)
        | true, some v, rest => sortWords s (w.withOption name (some v)) rest
        | true, none, [] => .error (.missingValue name)
        | true, none, v :: rest => sortWords s (w.withOption name (some v)) rest
    else if s.mixed then sortWords s (w.withArguments [word]) rest
    else .ok (w.withArguments (word :: rest))

/-- Nothing stands behind the arguments of the command. -/
def refuseExtra (s : CommandSpec) (w : Words) : Except UsageError Unit :=
  match w.arguments.drop s.arguments.length with
  | [] => .ok ()
  | extra => .error (.extraArguments extra)

end CommandSpec

/-! ## Commands -/

inductive Command
  /-- Update a stored program with another one, under the name `output` if there is one. -/
  | update (oldName newName : String) (programs output : Option String) (yes : Bool)
  /-- Detect the conflicts between two files. -/
  | detect (oldFile newFile : String) (json : Bool)
  /-- List the stored programs. -/
  | list (programs : Option String)
  /-- Show how a command is called. -/
  | help (usage : String)
deriving DecidableEq, Repr

/-- How a run ends: its code, and what is said about it apart from the output. -/
structure Exit where
  code : Nat := 0
  report : String := ""
deriving DecidableEq, Repr, Inhabited

namespace Exit

/-- The end of a run that could not do what it was asked for. -/
def failure (message : String) : Exit :=
  ⟨1, plain ("Error: " ++ message) ++ "\n"⟩

/-- The end of a run that breaks off without a word. -/
def silent : Exit :=
  ⟨1, ""⟩

/-- The end of a run for which the input is not enough. -/
def aborted : Exit :=
  ⟨1, "Aborted!\n"⟩

/-- The end of a run whose words ask for no command. -/
def ofUsage (s : CommandSpec) : UsageError → Exit
  | .impossiblePath => silent
  | e => ⟨2, plain (e.report s)⟩

end Exit

def Words.argument (w : Words) (i : Nat) (name : String) : Except UsageError String :=
  match w.arguments[i]? with
  | some word => .ok word
  | none => .error (.missingArgument name)

/-- The argument at a place, which has to name a file. -/
def Words.file (w : Words) (t : FileTree) (i : Nat) (name : String) :
    Except UsageError String := do
  let word ← w.argument i name
  if word.contains nullCharacter then throw .impossiblePath
  match t.kindOfText word with
  | .file _ => return word
  | .directory => throw (.directory name word)
  | .missing => throw (.noFile name word)

namespace Command

/-- The command that sorted words ask for: help if that is among them, and otherwise what is read
from them. -/
def orHelp (s : CommandSpec) (words : List String) (read : Words → Except UsageError Command) :
    Except UsageError Command := do
  let w ← s.sortWords {} words
  if w.has helpOption.name then return .help s.usage
  read w

/-- The update that words ask for. -/
def parseUpdate (words : List String) : Except UsageError Command :=
  orHelp .update words fun w => do
    let oldName ← w.argument 0 "OLD_NAME"
    let newName ← w.argument 1 "NEW_NAME"
    CommandSpec.update.refuseExtra w
    return .update oldName newName (w.value? "--programs-dir") (w.value? "--output")
      (w.has "--yes")

/-- The detection that words ask for. -/
def parseDetect (t : FileTree) (words : List String) : Except UsageError Command :=
  orHelp .detect words fun w => do
    let oldFile ← w.file t 0 "OLD_FILE"
    let newFile ← w.file t 1 "NEW_FILE"
    CommandSpec.detect.refuseExtra w
    return .detect oldFile newFile (w.has "--json")

/-- The listing that words ask for. -/
def parseList (words : List String) : Except UsageError Command :=
  orHelp .list words fun w => do
    CommandSpec.list.refuseExtra w
    return .list (w.value? "--programs-dir")

/-- A result of reading the words of a command; a failure ends the run. -/
def orExit {α : Type} (s : CommandSpec) (x : Except UsageError α) : Except Exit α :=
  x.mapError (Exit.ofUsage s)

def names : List String :=
  ["update", "detect", "list"]

def reader? (t : FileTree) (name : String) : Option (List String → Except Exit Command) :=
  match name with
  | "update" => some fun words => orExit .update (parseUpdate words)
  | "detect" => some fun words => orExit .detect (parseDetect t words)
  | "list" => some fun words => orExit .list (parseList words)
  | _ => none

/-- The level of the journal that is asked for can be kept. -/
def checkLevel (w : Words) : Except Exit Unit :=
  match w.value? "--log-level" with
  | none => .ok ()
  | some name => if (Level.ofName? name).isSome then .ok () else .error .silent

/-- What becomes of words that begin with no name of a command.  They are read as options of the
group first, which may fail. -/
def refuseName (name : String) (words : List String) : Except UsageError Command :=
  orHelp .group (name :: words) fun _ =>
    throw (.unknownCommand name (closest name names))

/-- The command that words ask for, or how the run ends without one. -/
def parse (t : FileTree) (words : List String) : Except Exit Command := do
  let w ← orExit .group (CommandSpec.group.sortWords {} words)
  if w.has helpOption.name then return .help CommandSpec.group.usage
  match w.arguments with
  | [] => orExit .group (throw .missingCommand)
  | name :: words =>
    match reader? t name with
    | some read =>
      checkLevel w
      read words
    | none => orExit .group (refuseName name words)

end Command

end CausalUpdate
