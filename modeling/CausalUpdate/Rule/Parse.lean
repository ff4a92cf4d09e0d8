import CausalUpdate.Literal.Parse
import CausalUpdate.Rule.Basic

/-!
# Reading rules

A rule text has an optional head, and behind `:-` a body of items separated by commas; an item is a
literal or a literal under `not`.  Program text is a sequence of rules, each ended by a dot, with
comments from `%` to the end of the line.

* `Clause.parse` — one rule, without its dot.
* `readClauses` — a sequence of rules: the clauses in front of the first fault, and the fault.  Both
  matter, because every rule that is read takes an identifier even if a later one is faulty.
-/

namespace CausalUpdate

open CausalUpdate.Text

/-! ## One rule -/

/-- The text behind `not` and at least one blank, if the text begins so. -/
def behindNot? : List Char → Option (List Char)
  | 'n' :: 'o' :: 't' :: c :: cs =>
    let rest := cs.dropWhile isBlank
    if isBlank c && !rest.isEmpty then some rest else none
  | _ => none

/-- The head of a rule; `statement` is the whole rule and `cs` the text of the head. -/
def parseHead (statement cs : List Char) : Except ParseError (Option Literal) :=
  if cs.isEmpty then .ok none
  else
    match topLevelPieces [',', ';', '|'] cs with
    | none => .error (ParseFault.unbalanced.shownBy cs)
    | some ps =>
      if 1 < ps.length then .error (ParseFault.severalHeads.shownBy statement)
      else if (behindNot? cs).isSome then .error (ParseFault.negatedHead.shownBy statement)
      else (Literal.parse cs).map some

/-- The positive and the negative literals of body items. -/
def parseItems : List (List Char) → Except ParseError (List Literal × List Literal)
  | [] => .ok ([], [])
  | item :: items =>
    match behindNot? item with
    | some inner => do
      let l ← Literal.parse inner
      let (body, negBody) ← parseItems items
      return (body, l :: negBody)
    | none => do
      let l ← Literal.parse item
      let (body, negBody) ← parseItems items
      return (l :: body, negBody)

/-- The bodies of a rule; `statement` is the whole rule and `cs` the text of the body. -/
def parseBody (statement cs : List Char) : Except ParseError (List Literal × List Literal) :=
  if cs.isEmpty then .error (ParseFault.emptyBody.shownBy statement)
  else
    match topLevelPieces [','] cs with
    | none => .error (ParseFault.unbalanced.shownBy cs)
    | some ps => parseItems (ps.map trim)

/-- The clause that a rule text without its dot writes. -/
def Clause.parse (cs : List Char) : Except ParseError Clause :=
  let statement := trim cs
  match piecesAt ':' '-' statement with
  | [head] => do
    match ← parseHead statement (trim head) with
    | none => .error (ParseFault.emptyRule.shownBy statement)
    | some l => return ⟨some l, [], []⟩
  | [head, body] => do
    let h ← parseHead statement (trim head)
    let (pos, neg) ← parseBody statement (trim body)
    return ⟨h, pos, neg⟩
  | _ => .error (ParseFault.severalArrows.shownBy statement)

/-! ## A sequence of rules -/

/-- The text without its comments; `inside` tells whether it begins inside one.  A comment runs from
`%` up to the next line feed, which stays. -/
def stripComments (inside : Bool) : List Char → List Char
  | [] => []
  | c :: cs =>
    if c = '\n' then c :: stripComments false cs
    else if inside || c = '%' then stripComments true cs
    else c :: stripComments false cs

/-- The clauses of the statements in front of the first faulty one, and its fault. -/
def readStatements : List (List Char) → List Clause × Option ParseError
  | [] => ([], none)
  | s :: ss =>
    match Clause.parse s with
    | .error e => ([], some e)
    | .ok c =>
      let (cs, fault) := readStatements ss
      (c :: cs, fault)

/-- The clauses of a text in front of the first fault, and the fault.  A missing dot at the end is
the first fault of all. -/
def readClauses (text : List Char) : List Clause × Option ParseError :=
  let statements := pieces (· = '.') (stripComments false text)
  let trailing := trim (statements.getLast?.getD [])
  if trailing.isEmpty then readStatements (statements.dropLast.filter fun s => !blankOnly s)
  else ([], some (ParseFault.missingDot.shownBy trailing))

end CausalUpdate
