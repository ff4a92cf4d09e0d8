import CausalUpdate.Text.Blank

/-!
# Names of stored programs

A program is stored in a file whose name is made from the program's name.  Letters, digits,
underscores, dots and hyphens of ASCII are kept, any run of other characters becomes one underscore,
and dots and underscores at the ends are dropped.  A name of which nothing is left cannot be used.

In the other direction, a file is listed under its *stem*: its name up to the last dot, unless that
dot is the first or the last character.
-/

namespace CausalUpdate

open CausalUpdate.Text

/-- The character may stand in a file name. -/
def isSafe (c : Char) : Bool :=
  c.isAlphanum || c = '_' || c = '.' || c = '-'

/-- The text with every run of unsafe characters as one underscore; `inRun` tells whether the text
stands behind an unsafe character. -/
def joinUnsafe (inRun : Bool) : List Char → List Char
  | [] => []
  | c :: cs =>
    if isSafe c then c :: joinUnsafe false cs
    else if inRun then joinUnsafe true cs
    else '_' :: joinUnsafe true cs

/-- What is left of a name. -/
def safeName (cs : List Char) : List Char :=
  trimBy (fun c => c = '.' || c = '_') (joinUnsafe false (trim cs))

/-- The name of a file without its extension. -/
def stem (cs : List Char) : List Char :=
  let extension := cs.reverse.takeWhile fun c => c ≠ '.'
  let start := cs.take (cs.length - extension.length - 1)
  if extension.isEmpty || extension.length = cs.length || start.isEmpty then cs else start

end CausalUpdate
