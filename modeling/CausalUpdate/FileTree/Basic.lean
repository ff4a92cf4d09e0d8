import CausalUpdate.Text.Pieces

/-!
# File trees

A file tree is what a command sees of a file system: the files below the directory it runs in, by
path.  A path is the list of names on the way; a directory exists if it is listed or if something
lies below it.  What lies outside of that directory is not known, but the directories above it are
there.

* `Path.ofText` — the path that a text writes.
* `FileTree.kind`, `FileTree.kindOfText` — what a path stands for.
* `FileTree.locate` — the path that names lead to, or why they lead nowhere.
* `FileTree.read`, `FileTree.write`, `FileTree.erase` — one file.
-/

namespace CausalUpdate

open CausalUpdate.Text

/-! ## Names -/

/-- The character that no path can hold. -/
def nullCharacter : Char := '\x00'

/-- The most bytes that the name of a file or of a directory may have. -/
def nameLimit : Nat := 255

/-- A file or a directory can have the name. -/
def isPossible (name : String) : Bool :=
  name.utf8ByteSize ≤ nameLimit && !name.contains nullCharacter

/-! ## Paths -/

/-- The names on the way to a file.  A path from the root begins with an empty name, and one that
leaves the directory that a command runs in begins with two dots. -/
abbrev Path := List String

namespace Path

/-- The parts of a text between slashes. -/
def parts (text : String) : List String :=
  (pieces (· = '/') text.toList).map String.ofList

/-- The parts of a text between slashes that lead anywhere: an empty part and a single dot do
not. -/
def steps (text : String) : List String :=
  (parts text).filter fun part => part ≠ "" ∧ part ≠ "."

/-- The root, as the path that begins every other one from there. -/
def root : Path := [""]

/-- The directory that a path lies in.  The root lies in itself, and out of the directory that a
command runs in there is always a way further up. -/
def above (p : Path) : Path :=
  if p = root then root
  else if p.all (· = "..") then p ++ [".."]
  else p.dropLast

/-- A path followed by one more part: two dots go back, and one dot or none stays where it is. -/
def next (here : Path) (part : String) : Path :=
  if part = "" ∨ part = "." then here
  else if part = ".." then here.above
  else here ++ [part]

/-- Where a path that a text writes begins. -/
def start (text : String) : Path :=
  if text.toList.head? = some '/' then root else []

/-- The path that a text writes. -/
def ofText (text : String) : Path :=
  (parts text).foldl next (start text)

/-- The last name that a text writes. -/
def lastName (text : String) : String :=
  (steps text).getLast?.getD ""

end Path

/-! ## Failures -/

/-- Why a path does not lead to what is asked for. -/
inductive PathError
  /-- No path can hold the name. -/
  | impossible
  | longName
  | missing
  | notDirectory
  | isDirectory
  /-- Something has the path already. -/
  | taken
deriving DecidableEq, Repr

def PathError.message : PathError → String
  | .impossible => "embedded null byte"
  | .longName => "File name too long"
  | .missing => "No such file or directory"
  | .notDirectory => "Not a directory"
  | .isDirectory => "Is a directory"
  | .taken => "File exists"

/-! ## Trees -/

inductive PathKind
  | file (bytes : ByteArray)
  | directory
  | missing

/-- Files by path, and the paths of listed directories. -/
structure FileTree where
  files : List (Path × ByteArray) := []
  directories : List Path := []

namespace FileTree

/-- The tree with a file in the place of one of the same path. -/
def put (t : FileTree) (path : Path) (bytes : ByteArray) : FileTree :=
  { t with files := (t.files.filter fun f => f.1 ≠ path) ++ [(path, bytes)] }

def putDirectory (t : FileTree) (path : Path) : FileTree :=
  { t with directories := path :: t.directories }

/-- The tree without a file; the directory it lies in stays. -/
def erase (t : FileTree) (path : Path) : FileTree :=
  { files := t.files.filter fun f => f.1 ≠ path
    directories := path.above :: t.directories }

/-- The paths of everything in the tree. -/
def paths (t : FileTree) : List Path :=
  t.files.map Prod.fst ++ t.directories

/-- What a path stands for: a file, a directory, possibly one on the way to something else, or
nothing. -/
def kind (t : FileTree) (path : Path) : PathKind :=
  match t.files.lookup path with
  | some bytes => .file bytes
  | none =>
    if path.all (· = "..") || path = Path.root || t.paths.any path.isPrefixOf then .directory
    else .missing

/-- The path is that of a directory. -/
def isDirectory (t : FileTree) (path : Path) : Bool :=
  match t.kind path with
  | .directory => true
  | _ => false

/-- The path is that of a file or a directory. -/
def has (t : FileTree) (path : Path) : Bool :=
  match t.kind path with
  | .missing => false
  | _ => true

/-! ## Ways -/

/-- The path that parts lead to.  All that they lead through has to be a directory. -/
def walk (t : FileTree) (here : Path) : List String → Except PathError Path
  | [] => .ok here
  | part :: rest =>
    match t.kind here with
    | .file _ => .error .notDirectory
    | .missing => .error .missing
    | .directory =>
      if nameLimit < part.utf8ByteSize then .error .longName else t.walk (here.next part) rest

/-- The path that parts lead to, if any path can hold them. -/
def locate (t : FileTree) (here : Path) (parts : List String) : Except PathError Path :=
  if parts.any fun part => part.contains nullCharacter then .error .impossible
  else t.walk here parts

/-- What a text stands for as a path; a slash at its end asks for a directory. -/
def kindOfText (t : FileTree) (text : String) : PathKind :=
  if text.isEmpty then .missing
  else
    match t.walk (Path.start text) (Path.parts text) with
    | .error _ => .missing
    | .ok path => t.kind path

/-- The path that parts lead to if directories are made wherever there is nothing. -/
def walkMaking (t : FileTree) (here : Path) (parts : List String) : Option Path :=
  match t.kind here, parts with
  | .file _, _ => none
  | _, [] => some here
  | _, part :: rest => t.walkMaking (here.next part) rest

/-- The path of a directory that is made if it does not exist; nothing if a file stands in its
way, or if no directory can have the name. -/
def directoryOfText (t : FileTree) (text : String) : Option Path :=
  let parts := Path.parts text
  if parts.all isPossible then t.walkMaking (Path.start text) parts else none

/-! ## Directories -/

/-- The part of a path below a directory. -/
def below? (directory path : Path) : Option Path :=
  if directory.isPrefixOf path then some (path.drop directory.length) else none

/-- The ways from a directory to everything in it. -/
def waysBelow (t : FileTree) (directory : Path) : List Path :=
  (t.paths.filterMap (below? directory)).filter fun way =>
    way.head?.any fun name => name ≠ "" ∧ name ≠ ".."

/-- The names in a directory, in order. -/
def names (t : FileTree) (directory : Path) : List String :=
  ((t.waysBelow directory).filterMap List.head?).eraseDups.mergeSort fun a b => a ≤ b

/-- The ways from a directory to itself and to the directories below it. -/
def directoriesBelow (t : FileTree) (directory : Path) : List Path :=
  let starts := (t.waysBelow directory).flatMap fun way =>
    (List.range (way.length + 1)).map way.take
  ([] :: starts.filter fun way => t.isDirectory (directory ++ way)).eraseDups

/-! ## Files -/

def read (t : FileTree) (path : Path) : Except PathError ByteArray :=
  match t.kind path with
  | .file bytes => .ok bytes
  | .directory => .error .isDirectory
  | .missing => .error .missing

/-- The tree with a file where parts lead to, which takes the place of any file there. -/
def write (t : FileTree) (here : Path) (parts : List String) (bytes : ByteArray) :
    Except PathError FileTree := do
  let path ← t.locate here parts
  if t.isDirectory path then throw .isDirectory else return t.put path bytes

/-- The tree with a new directory where parts lead to. -/
def makeDirectory (t : FileTree) (here : Path) (parts : List String) :
    Except PathError FileTree := do
  let path ← t.locate here parts
  if t.has path then throw .taken else return t.putDirectory path

/-- The files of a tree that an earlier one does not have, or has with other bytes. -/
def changedSince (t before : FileTree) : List (Path × ByteArray) :=
  t.files.filter fun f => before.files.lookup f.1 != some f.2

end FileTree

end CausalUpdate
