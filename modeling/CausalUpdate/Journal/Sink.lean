import CausalUpdate.Journal.Basic
import CausalUpdate.Text.Line

/-!
# Journal files

A sink is a file that takes some of the entries: those of a level and above, and possibly those of
one component only.  The main file takes what the chosen level lets through, each of three
components has a file for everything from `debug` on, and one file collects the errors.
-/

namespace CausalUpdate

structure Sink where
  file : String
  level : Level
  /-- The only component whose entries are taken, if there is one. -/
  component : Option String := none
deriving DecidableEq, Repr

namespace Sink

/-- The components with files of their own. -/
def ownFiles : List String :=
  ["detection", "solver", "update"]

/-- The files of a journal that is kept at a level. -/
def standard (level : Level) : List Sink :=
  [{ file := "aspupdate.log", level }] ++
    (ownFiles.map fun c => { file := c ++ ".log", level := .debug, component := some c }) ++
    [{ file := "errors.log", level := .error }]

def takes (s : Sink) (e : Entry) : Bool :=
  e.atLeast s.level && match s.component with
    | none => true
    | some c => e.component = c

/-- An entry as a file shows it. -/
def line (e : Entry) : String :=
  e.level.name ++ "|" ++ e.component ++ "|" ++ e.message ++ "\n"

/-- The lines of the file once the entries are written to it. -/
def lines (s : Sink) (entries : List Entry) : List String :=
  let written := (entries.filter s.takes).flatMap fun e => (line e).toList
  (Text.plainLines written).map String.ofList

end Sink

end CausalUpdate
