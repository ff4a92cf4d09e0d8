import CausalUpdate.Literal.Basic
import CausalUpdate.ParseError
import CausalUpdate.Text.Blank
import CausalUpdate.Text.Pieces

/-!
# Reading literals

A literal is an optional `-`, a predicate, and optionally terms between parentheses, separated by
commas; blanks may stand between any two of these.  A predicate is an identifier other than `not`; a
term is an identifier other than `not` or a whole number without leading zeros.

Identifiers and numbers are ASCII; the blanks around them are the blanks of `isBlank`.
-/

namespace CausalUpdate

open CausalUpdate.Text

/-! ## Identifiers and terms -/

/-- The character may begin an identifier. -/
def isIdentifierStart (c : Char) : Bool :=
  'a' ≤ c && c ≤ 'z'

/-- The character may follow in an identifier. -/
def isIdentifierRest (c : Char) : Bool :=
  ('a' ≤ c && c ≤ 'z') || ('A' ≤ c && c ≤ 'Z') || ('0' ≤ c && c ≤ '9') || c = '_'

/-- A lower-case letter followed by letters, digits and underscores. -/
def isIdentifier : List Char → Bool
  | [] => false
  | c :: cs => isIdentifierStart c && cs.all isIdentifierRest

/-- Zero, or digits of which the first is not zero. -/
def isNumeral : List Char → Bool
  | [] => false
  | c :: cs => if c = '0' then cs.isEmpty else c.isDigit && cs.all Char.isDigit

def notKeyword : List Char := ['n', 'o', 't']

def isTerm (cs : List Char) : Bool :=
  cs != notKeyword && (isIdentifier cs || isNumeral cs)

/-! ## Literals -/

/-- A literal cut into its sign, its predicate and the text between its parentheses. -/
structure LiteralShape where
  negated : Bool
  predicate : List Char
  arguments : Option (List Char)
deriving DecidableEq, Repr

/-- The text between parentheses that are the first and the last character. -/
def inParentheses : List Char → Option (List Char)
  | '(' :: cs => if cs.getLast? = some ')' then some cs.dropLast else none
  | _ => none

/-- Cut a text without blanks at its ends into the parts of a literal. -/
def LiteralShape.ofChars? (cs : List Char) : Option LiteralShape :=
  let (negated, unsigned) :=
    match cs with
    | '-' :: rest => (true, rest)
    | rest => (false, rest)
  let start := unsigned.dropWhile isBlank
  let predicate := start.takeWhile isIdentifierRest
  let rest := (start.dropWhile isIdentifierRest).dropWhile isBlank
  if !isIdentifier predicate then none
  else if rest.isEmpty then some ⟨negated, predicate, none⟩
  else (inParentheses rest).map fun arguments => ⟨negated, predicate, some arguments⟩

/-- The terms between parentheses; `whole` is the literal they belong to. -/
def parseTerms (whole arguments : List Char) : Except ParseError (List String) :=
  match topLevelPieces [','] arguments with
  | none => .error (ParseFault.unbalanced.shownBy arguments)
  | some ps =>
    let terms := ps.map trim
    if terms.all isTerm then .ok (terms.map String.ofList)
    else .error (ParseFault.malformedTerms.shownBy whole)

/-- The literal that a text writes. -/
def Literal.parse (cs : List Char) : Except ParseError Literal :=
  let stripped := trim cs
  match LiteralShape.ofChars? stripped with
  | none => .error (ParseFault.malformedLiteral.shownBy stripped)
  | some shape =>
    if shape.predicate = notKeyword then .error (ParseFault.keywordPredicate.shownBy stripped)
    else
      match shape.arguments with
      | none => .ok ⟨⟨String.ofList shape.predicate, []⟩, shape.negated⟩
      | some arguments =>
        (parseTerms stripped arguments).map fun terms =>
          ⟨⟨String.ofList shape.predicate, terms⟩, shape.negated⟩

end CausalUpdate
