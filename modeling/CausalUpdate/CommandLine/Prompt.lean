import CausalUpdate.Text.Blank
import CausalUpdate.Text.Digit
import CausalUpdate.Text.Quoted

/-!
# Prompts

A prompt asks for a number in a range or for a yes or no, and takes one line as its answer.  An
empty line stands for the default if there is one; a line that is no answer is asked for again.
-/

namespace CausalUpdate.CommandLine

open CausalUpdate.Text

/-- What is made of a line that answers a prompt. -/
inductive Answer (α : Type)
  | given (value : α)
  /-- The line is no answer, for a reason that is shown. -/
  | refused (reason : String)
  /-- The line is empty and there is no default. -/
  | empty
deriving DecidableEq, Repr

/-- A prompt for a whole number. -/
structure NumberPrompt where
  text : String
  least : Nat
  greatest : Nat
  default : Option Nat := none
deriving DecidableEq, Repr

namespace NumberPrompt

/-- The prompt as it is shown. -/
def shown (p : NumberPrompt) : String :=
  match p.default with
  | none => p.text ++ ": "
  | some n => s!"{p.text} [{n}]: "

/-- What is made of a line. -/
def read (p : NumberPrompt) (line : String) : Answer Nat :=
  if line.isEmpty then
    match p.default with
    | none => .empty
    | some n => .given n
  else
    match readInteger line.toList with
    | .error _ => .refused s!"{quoted line} is not a valid integer range."
    | .ok n =>
      if (p.least : Int) ≤ n ∧ n ≤ p.greatest then .given n.toNat
      else .refused s!"{n} is not in the range {p.least}<=x<={p.greatest}."

end NumberPrompt

/-- A prompt for a yes or no. -/
structure Confirmation where
  text : String
  default : Bool
deriving DecidableEq, Repr

namespace Confirmation

/-- The prompt as it is shown, with the default as the capital letter. -/
def shown (p : Confirmation) : String :=
  p.text ++ (if p.default then " [Y/n]: " else " [y/N]: ")

def yesWords : List String :=
  ["y", "yes"]

def noWords : List String :=
  ["n", "no"]

/-- What is made of a line. -/
def read (p : Confirmation) (line : String) : Answer Bool :=
  let word := String.ofList ((trim line.toList).map Char.toLower)
  if word.isEmpty then .given p.default
  else if yesWords.contains word then .given true
  else if noWords.contains word then .given false
  else .refused "invalid input"

end Confirmation

end CausalUpdate.CommandLine
