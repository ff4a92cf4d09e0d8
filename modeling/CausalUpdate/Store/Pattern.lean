import CausalUpdate.Text.Pieces

/-!
# Patterns of names

In a pattern a star stands for any run of characters, a question mark for one character, and
brackets for one character of a set; all other characters stand for themselves.  A set lists
characters and ranges of characters, and an exclamation mark at its beginning turns it around.

* `Pattern.ofChars` — the pattern that a text writes.
* `Pattern.fits` — the names that fit it.
-/

namespace CausalUpdate

open CausalUpdate.Text

/-! ## Sets of characters -/

/-- A set of characters, given by ranges or by what is outside of ranges. -/
structure CharSet where
  /-- The characters outside the ranges are meant. -/
  outside : Bool := false
  ranges : List (Char × Char) := []
deriving DecidableEq, Repr

namespace CharSet

/-- The character is in the set. -/
def contains (s : CharSet) (c : Char) : Bool :=
  (s.ranges.any fun (first, last) => first ≤ c && c ≤ last) != s.outside

/-- The groups into which the hyphens that make ranges cut a set; `unused` counts the characters
that come before such a hyphen can stand.  A range takes a character on either side, so that three
characters at least lie between two such hyphens. -/
def groups (unused : Nat) : List Char → List (List Char)
  | [] => [[]]
  | c :: cs =>
    match unused with
    | 0 => if c = '-' then [] :: groups 2 cs else (groups 0 cs).modifyHead (c :: ·)
    | unused + 1 => (groups unused cs).modifyHead (c :: ·)

/-- Groups without an empty one at the end, whose hyphen then stands for itself. -/
def closeLast (gs : List (List Char)) : List (List Char) :=
  match gs.reverse with
  | [] :: g :: rest => (rest.reverse) ++ [g ++ ['-']]
  | _ => gs

/-- Groups without the ranges that hold no character.  Both ends of such a range are dropped. -/
def dropEmpty : List (List Char) → List (List Char)
  | [] => []
  | g :: gs =>
    match g.getLast?, dropEmpty gs with
    | some first, (last :: h) :: rest =>
      if last < first then (g.dropLast ++ h) :: rest else g :: (last :: h) :: rest
    | _, gs => g :: gs

/-- Groups as one list, with nothing in the places of the hyphens between them. -/
def joined : List (List Char) → List (Option Char)
  | [] => []
  | [g] => g.map some
  | g :: gs => g.map some ++ none :: joined gs

/-- The ranges of a list in which nothing stands for the hyphens that make ranges. -/
def rangesOf : List (Option Char) → List (Char × Char)
  | some first :: none :: some last :: cs => (first, last) :: rangesOf cs
  | some c :: cs => (c, c) :: rangesOf cs
  | none :: cs => ('-', '-') :: rangesOf cs
  | [] => []

/-- The set that the text between brackets writes. -/
def ofChars (cs : List Char) : CharSet :=
  let leading := if cs.head? = some '!' then 2 else 1
  match joined (dropEmpty (closeLast (groups leading cs))) with
  | some '!' :: cs => ⟨true, rangesOf cs⟩
  | cs => ⟨false, rangesOf cs⟩

end CharSet

/-! ## Patterns -/

namespace Pattern

inductive Element
  | exactly (c : Char)
  /-- Any character. -/
  | any
  | oneOf (s : CharSet)
  /-- Any run of characters. -/
  | run
deriving DecidableEq, Repr

/-- The text between brackets, from the text behind the opening one; nothing if there is no closing
one.  A closing bracket that comes first, possibly behind an exclamation mark, belongs to the
set. -/
def bracketed? (cs : List Char) : Option (List Char) :=
  let mark := if cs.head? = some '!' then 1 else 0
  let first := if cs[mark]? = some ']' then mark + 1 else mark
  let rest := cs.drop first
  let inside := rest.takeWhile (· ≠ ']')
  if inside.length < rest.length then some (cs.take first ++ inside) else none

/-- The elements of a pattern, whose first `skipped` characters belong to a set that was read. -/
def elementsFrom : (skipped : Nat) → List Char → List Element
  | _, [] => []
  | skipped + 1, _ :: cs => elementsFrom skipped cs
  | 0, '*' :: cs => .run :: elementsFrom 0 cs
  | 0, '?' :: cs => .any :: elementsFrom 0 cs
  | 0, c :: cs =>
    match if c = '[' then bracketed? cs else none with
    | some inside => .oneOf (.ofChars inside) :: elementsFrom (inside.length + 1) cs
    | none => .exactly c :: elementsFrom 0 cs

/-- The elements of the pattern that a text writes. -/
def ofChars (cs : List Char) : List Element :=
  elementsFrom 0 cs

/-- Some end of a text has a property. -/
def someEnd (p : List Char → Bool) : List Char → Bool
  | [] => p []
  | c :: cs => p (c :: cs) || someEnd p cs

def fits : List Element → List Char → Bool
  | [], cs => cs.isEmpty
  | .run :: es, cs => someEnd (fits es) cs
  | .exactly c :: es, d :: cs => c = d && fits es cs
  | .any :: es, _ :: cs => fits es cs
  | .oneOf s :: es, c :: cs => s.contains c && fits es cs
  | _ :: _, [] => false

end Pattern

end CausalUpdate
