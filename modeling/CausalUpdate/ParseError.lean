/-!
# Why a text cannot be read

Every reader of this library fails with one of a few causes and, for most of them, with the piece of
text that shows the fault.
-/

namespace CausalUpdate

/-- What is wrong with a text. -/
inductive ParseFault
  /-- A closing parenthesis without its opening one, or the other way round. -/
  | unbalanced
  | malformedLiteral
  /-- The word `not` stands where a predicate is expected. -/
  | keywordPredicate
  | malformedTerms
  /-- A rule with more than one `:-`. -/
  | severalArrows
  /-- A rule with more than one head. -/
  | severalHeads
  /-- A head under default negation. -/
  | negatedHead
  /-- A `:-` with nothing after it. -/
  | emptyBody
  | emptyRule
  /-- Text after the last dot. -/
  | missingDot
  /-- A program text without anything but blanks and comments. -/
  | emptyText
  /-- A program text without rules. -/
  | noRules
deriving DecidableEq, Repr

def ParseFault.message : ParseFault → String
  | .unbalanced => "Unbalanced parentheses"
  | .malformedLiteral => "Malformed literal"
  | .keywordPredicate => "'not' is a keyword, not a predicate"
  | .malformedTerms => "Malformed term list"
  | .severalArrows => "More than one ':-' in rule"
  | .severalHeads => "Rule heads may contain a single literal only"
  | .negatedHead => "Default negation is not allowed in rule heads"
  | .emptyBody => "Empty rule body after ':-'"
  | .emptyRule => "Empty rule"
  | .missingDot => "Missing terminating '.'"
  | .emptyText => "Program text is empty"
  | .noRules => "Program text contains no rules"

/-- A cause with the piece of text that shows it. -/
structure ParseError where
  fault : ParseFault
  line : Option String := none
deriving DecidableEq, Repr

/-- The wording of an error: the cause, and the piece of text between quotes as it stands. -/
def ParseError.message (e : ParseError) : String :=
  match e.line with
  | none => e.fault.message
  | some line => e.fault.message ++ ": '" ++ line ++ "'"

/-- The error that a piece of text shows. -/
def ParseFault.shownBy (fault : ParseFault) (cs : List Char) : ParseError :=
  ⟨fault, some (String.ofList cs)⟩

end CausalUpdate
