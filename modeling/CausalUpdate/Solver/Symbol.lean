import CausalUpdate.Literal.Parse
import CausalUpdate.Program.Basic

/-!
# Names that a solver reads

A solver reads the text of a program.  Its symbols may begin with underscores and primes and hold
primes as well; a name with an upper-case letter in that place is a variable.

A program is *plain* if all its predicates are symbols and all its terms symbols or whole numbers.
Such a program has no variables, and its literals stand in its models as they are written.

* `isSymbol`, `isVariable` — the two kinds of names.
* `Program.isPlain` — the programs of which nothing has to be worked out.
-/

namespace CausalUpdate

/-! ## Names -/

/-- The character may stand in front of the first letter of a name. -/
def isNameMargin (c : Char) : Bool :=
  c = '_' || c = '\x27'

/-- The character may stand in a name. -/
def isNameRest (c : Char) : Bool :=
  isIdentifierRest c || c = '\x27'

/-- The first letter of a name, whatever stands in front of it. -/
def nameStart? (cs : List Char) : Option Char :=
  (cs.dropWhile isNameMargin).head?

/-- The text is a symbol: a lower-case letter is its first letter, and it is not `not`. -/
def isSymbol (cs : List Char) : Bool :=
  cs != notKeyword && cs.all isNameRest && (nameStart? cs).any isIdentifierStart

/-- The text is a variable: an upper-case letter is its first letter. -/
def isVariable (cs : List Char) : Bool :=
  cs.all isNameRest && (nameStart? cs).any fun c => 'A' ≤ c && c ≤ 'Z'

/-! ## Plain programs -/

/-- The text is a term of which nothing has to be worked out. -/
def isPlainTerm (cs : List Char) : Bool :=
  isSymbol cs || isNumeral cs

/-- The predicate is a symbol, and the terms are plain. -/
def Literal.isPlain (l : Literal) : Bool :=
  isSymbol l.atom.predicate.toList && l.atom.terms.all fun t => isPlainTerm t.toList

/-- All literals of the clause are plain. -/
def Clause.isPlain (c : Clause) : Bool :=
  c.literals.all Literal.isPlain

/-- All literals of the program are plain. -/
def Program.isPlain (p : Program) : Bool :=
  p.rules.all fun r => r.toClause.isPlain

end CausalUpdate
