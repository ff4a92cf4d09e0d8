import CausalUpdate.AnswerSet.Basic
import CausalUpdate.Literal.Parse
import CausalUpdate.Work

/-!
# Reading answer sets

An answer set is written as literals separated by commas, blanks, tabs or line feeds, with or
without braces around them.  A solver's answer is a list of such texts, of which those that cannot
be read are left out, each with a warning.
-/

namespace CausalUpdate

open CausalUpdate.Text

/-- Read every text of a list, up to the first that cannot be read. -/
def Literal.parseAll : List (List Char) → Except ParseError (List Literal)
  | [] => .ok []
  | t :: ts => do
    let l ← Literal.parse t
    let ls ← Literal.parseAll ts
    return l :: ls

/-- The text inside the braces of an answer set, if it has any. -/
def insideBraces (cs : List Char) : List Char :=
  trim (trimBy (fun c => c = '\x7b' || c = '\x7d') (trim cs))

/-- The answer set that a text writes. -/
def AnswerSet.parse (cs : List Char) : Except ParseError AnswerSet :=
  let inner := insideBraces cs
  if inner.isEmpty then .ok .empty
  else
    match topLevelPieces [',', ' ', '\t', '\n'] inner with
    | none => .error (ParseFault.unbalanced.shownBy inner)
    | some ps => (Literal.parseAll (ps.filter fun p => !blankOnly p)).map .ofList

/-- The answer sets of a list of texts that can be read, in order. -/
def AnswerSet.parseAll : List String → Work (List AnswerSet)
  | [] => pure []
  | model :: models =>
    match AnswerSet.parse model.toList with
    | .ok s => do
      let rest ← AnswerSet.parseAll models
      return s :: rest
    | .error e => do
      Work.note .warning systemComponent ("Skipping unparseable answer set: " ++ e.message)
      AnswerSet.parseAll models

end CausalUpdate
