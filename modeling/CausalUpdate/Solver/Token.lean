import CausalUpdate.Solver.Symbol

/-!
# The words of terms

The text of a term is cut into words: names, numbers, strings and signs.  Blanks and comments may
stand between any two of them.  A number may be written with the digits of base 2, 8 or 16 behind
`0b`, `0o` or `0x`; in base 10 it has no leading zeros.

* `tokens` — the words of a text.
-/

namespace CausalUpdate

inductive Token
  | name (text : String)
  /-- A variable. -/
  | place (text : String)
  | anonymous
  | number (value : Nat)
  | string (text : String)
  /-- The term below all others. -/
  | lowest
  /-- The term above all others. -/
  | highest
  | sign (text : String)
deriving DecidableEq, Repr

namespace Token

/-! ## Names and signs -/

/-- A word of letters, digits, underscores and primes. -/
def ofName? (word : List Char) : Option Token :=
  if isSymbol word then some (.name (String.ofList word))
  else if isVariable word then some (.place (String.ofList word))
  else if word = ['_'] then some .anonymous
  else none

def ofKeyword? (word : List Char) : Option Token :=
  let word := String.ofList word
  if ["inf", "infimum"].contains word then some .lowest
  else if ["sup", "supremum"].contains word then some .highest
  else none

def longSigns : List (List Char) :=
  [['.', '.'], ['*', '*']]

def shortSigns : List Char :=
  ['(', ')', ',', ';', '+', '-', '*', '/', '\\', '^', '&', '?', '~', '|', '@']

/-! ## Numbers and strings -/

/-- The value of a digit in bases up to 16. -/
def digit? (base : Nat) (c : Char) : Option Nat :=
  let value :=
    if c.isDigit then some (c.toNat - '0'.toNat)
    else if 'a' ≤ c.toLower ∧ c.toLower ≤ 'f' then some (c.toLower.toNat - 'a'.toNat + 10)
    else none
  value.filter (· < base)

/-- The base of a number that begins with these characters, and its digits. -/
def baseOf : List Char → Nat × List Char
  | '0' :: 'b' :: cs => (2, cs)
  | '0' :: 'o' :: cs => (8, cs)
  | '0' :: 'x' :: cs => (16, cs)
  | cs => (10, cs)

/-- The number that a text begins with, and the text behind it. -/
def readNumber (cs : List Char) : Option (Nat × List Char) :=
  let (base, digits) := baseOf cs
  let isDigit := fun c => (digit? base c).isSome
  let written := digits.takeWhile isDigit
  if written.isEmpty || (base = 10 && written.head? = some '0' && 1 < written.length) then none
  else
    some ((written.filterMap (digit? base)).foldl (fun n d => base * n + d) 0,
      digits.dropWhile isDigit)

/-- The characters of a string up to its closing quote, and the text behind it. -/
def readString : List Char → Option (List Char × List Char)
  | '"' :: cs => some ([], cs)
  | '\\' :: 'n' :: cs => (readString cs).map fun (inside, rest) => ('\n' :: inside, rest)
  | '\\' :: c :: cs =>
    if c = '"' ∨ c = '\\' then (readString cs).map fun (inside, rest) => (c :: inside, rest)
    else none
  | '\n' :: _ | [] => none
  | c :: cs => (readString cs).map fun (inside, rest) => (c :: inside, rest)

/-! ## Gaps -/

/-- The blanks that may stand between words. -/
def isBlank (c : Char) : Bool :=
  c = ' ' || c = '\t' || c = '\r' || c = '\n'

inductive Gap
  | blanks
  /-- A comment up to the end of its line. -/
  | line
  /-- A comment between `%*` and `*%`, inside of so many others. -/
  | block (depth : Nat)

/-- The text behind a gap, unless it ends in the middle of a comment. -/
def behind? : Gap → List Char → Option (List Char)
  | .blanks, [] => some []
  | _, [] => none
  | .blanks, '%' :: '*' :: cs => behind? (.block 0) cs
  | .blanks, '%' :: cs => behind? .line cs
  | .blanks, c :: cs => if isBlank c then behind? .blanks cs else some (c :: cs)
  | .line, '\n' :: cs => behind? .blanks cs
  | .line, _ :: cs => behind? .line cs
  | .block 0, '*' :: '%' :: cs => behind? .blanks cs
  | .block (depth + 1), '*' :: '%' :: cs => behind? (.block depth) cs
  | .block depth, '%' :: '*' :: cs => behind? (.block (depth + 1)) cs
  | .block depth, _ :: cs => behind? (.block depth) cs

/-! ## Texts -/

/-- The word that a text begins with, and the text behind it. -/
def first? : List Char → Option (Token × List Char)
  | [] => none
  | '"' :: cs => (readString cs).map fun (inside, rest) => (.string (String.ofList inside), rest)
  | '#' :: cs =>
    (ofKeyword? (cs.takeWhile isNameRest)).map fun t => (t, cs.dropWhile isNameRest)
  | c :: cs =>
    if c.isDigit then (readNumber (c :: cs)).map fun (n, rest) => (.number n, rest)
    else if isNameRest c then
      (ofName? (c :: cs.takeWhile isNameRest)).map fun t => (t, cs.dropWhile isNameRest)
    else if longSigns.contains (c :: cs.take 1) then
      some (.sign (String.ofList (c :: cs.take 1)), cs.drop 1)
    else if shortSigns.contains c then some (.sign (String.singleton c), cs)
    else none

end Token

/-- The words of a text, at most so many. -/
def tokensUpTo : (count : Nat) → List Char → Option (List Token)
  | 0, cs => (Token.behind? .blanks cs).bind fun cs => if cs.isEmpty then some [] else none
  | count + 1, cs => (Token.behind? .blanks cs).bind fun
    | [] => some []
    | cs => (Token.first? cs).bind fun (t, rest) => (tokensUpTo count rest).map (t :: ·)

/-- The words of a text; there are no more of them than characters. -/
def tokens (cs : List Char) : Option (List Token) :=
  tokensUpTo cs.length cs

end CausalUpdate
