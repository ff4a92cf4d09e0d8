import CausalUpdate.Conflict.Basic
import CausalUpdate.Document.Basic
import CausalUpdate.Text.Line

/-!
# What commands print

The lines in which conflicts, solutions and stored programs are shown.
-/

namespace CausalUpdate.CommandLine

open CausalUpdate.Text

def separator : String :=
  String.ofList (List.replicate 50 '=')

/-- Items with their numbers, counted from one. -/
def numbered {α : Type} (items : List α) : List (Nat × α) :=
  items.zipIdx.map fun (a, i) => (i + 1, a)

/-- The lines of a conflict: its rules and its witnesses. -/
def conflictLines (number : Nat) (c : Conflict) : List String :=
  ["", s!"[{number}] {c.older.text}", "    " ++ c.newer.text] ++
    c.answerSets.map fun s => "    witness: " ++ s.text

/-- The distances of a score in one line. -/
def measureText (s : Score) : String :=
  String.intercalate ", "
    (s.measures.map fun (name, value) => name ++ "=" ++ (value.map toString).getD "-")

/-- The lines of a solution: its operations, its score and the number of its variants. -/
def solutionLines (number : Nat) (s : Solution) : List String :=
  [s!"  ({number}) [{s.strategy}] {s.text}"] ++
    (s.score.map fun m => "      " ++ measureText m).toList ++
    s.variants.map fun (id, rs) => s!"      {rs.length} variant(s) for rule {id}"

def conflictListLines (cs : List Conflict) : List String :=
  (numbered cs).flatMap fun (i, c) => conflictLines i c

def solutionListLines (ss : List Solution) : List String :=
  (numbered ss).flatMap fun (i, s) => solutionLines i s

/-- The lines of a detection: every conflict followed by its solutions. -/
def detectionLines (cs : List Conflict) : List String :=
  ["", s!"{cs.length} conflict(s)", separator] ++
    (numbered cs).flatMap fun (i, c) => conflictLines i c ++ solutionListLines c.solutions

/-- The line of a stored program: how many lines of its text are not blank. -/
def storedLine (name text : String) : String :=
  let filled := (lines text.toList).filter fun line => !blankOnly line
  s!"{name}: {filled.length} rule line(s)"

end CausalUpdate.CommandLine
