import CausalUpdate.FileTree.Basic
import CausalUpdate.Store.Pattern

/-!
# Selections of files

A selection takes files and directories by a pattern with parts between slashes, one for every step
of the way.  A part is a name, a pattern of names, or two stars, which stand for a directory and all
directories below it; elsewhere two stars must not stand side by side.  A slash at the end asks for
directories.

* `Selection.ofSuffix` — all names with an end.
* `Selection.places` — what a selection takes, in order.
-/

namespace CausalUpdate

open CausalUpdate.Text

inductive SelectionPart
  | exactly (name : String)
  | fitting (es : List Pattern.Element)
  /-- A directory and all directories below it. -/
  | anywhere
deriving DecidableEq, Repr

/-- What is taken from a directory. -/
structure Selection where
  parts : List SelectionPart
  onlyDirectories : Bool := false
deriving DecidableEq, Repr

/-- The pattern has two stars side by side that are no part of their own. -/
structure MisplacedStars where
deriving DecidableEq, Repr

def MisplacedStars.message (_ : MisplacedStars) : String :=
  "Invalid pattern: '**' can only be an entire path component"

/-- Two stars stand side by side. -/
def hasAdjacentStars (cs : List Char) : Bool :=
  (piecesAt '*' '*' cs).length ≠ 1

/-- The part that a text writes. -/
def SelectionPart.ofChars (cs : List Char) : Except MisplacedStars SelectionPart :=
  if cs = ['*', '*'] then .ok .anywhere
  else if hasAdjacentStars cs then .error {}
  else if cs.any (['*', '?', '['].contains ·) then .ok (.fitting (Pattern.ofChars cs))
  else .ok (.exactly (String.ofList cs))

/-- A file or a directory that is selected: the names on the way to it as they are written, and the
path they lead to. -/
structure Place where
  way : List String := []
  path : Path
deriving DecidableEq, Repr

/-- The place that a name leads to. -/
def Place.step (p : Place) (name : String) : Place :=
  ⟨p.way ++ [name], p.path.next name⟩

namespace Selection

/-- The selection of all names with an end. -/
def ofSuffix (suffix : String) : Except MisplacedStars Selection := do
  let pattern := "*" ++ suffix
  let parts ← (Path.steps pattern).mapM fun part => SelectionPart.ofChars part.toList
  return { parts, onlyDirectories := pattern.toList.getLast? = some '/' }

/-- What some parts of a selection take from a place; names can be too long to be looked up. -/
def takeFrom (t : FileTree) (onlyDirectories : Bool) :
    List SelectionPart → Place → Except PathError (List Place)
  | [], p => .ok [p]
  | part :: rest, p => do
    let files := rest.isEmpty && !onlyDirectories
    let suits := fun q : Place => if files then t.has q.path else t.isDirectory q.path
    let nexts ←
      match part with
      | .exactly name =>
        match t.locate p.path [name] with
        | .error .longName => throw .longName
        | .error _ => pure []
        | .ok _ => pure ([p.step name].filter suits)
      | .fitting es =>
        let names := (t.names p.path).filter fun name => Pattern.fits es name.toList
        pure ((names.map p.step).filter suits)
      | .anywhere =>
        pure ((t.directoriesBelow p.path).map fun way => ⟨p.way ++ way, p.path ++ way⟩)
    let found ← nexts.mapM fun q => takeFrom t onlyDirectories rest q
    return found.flatten.eraseDups

/-- The first way is the second one or comes before it, at the first name that tells them apart. -/
def inOrder : List String → List String → Bool
  | [], _ => true
  | _ :: _, [] => false
  | a :: as, b :: bs => if a = b then inOrder as bs else a ≤ b

/-- What a selection takes from a directory, in order of the ways to it. -/
def places (s : Selection) (t : FileTree) (directory : Path) : Except PathError (List Place) := do
  let found ← takeFrom t s.onlyDirectories s.parts { path := directory }
  return found.mergeSort fun p q => inOrder p.way q.way

end Selection

end CausalUpdate
