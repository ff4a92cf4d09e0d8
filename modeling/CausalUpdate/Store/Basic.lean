import CausalUpdate.FileTree.Basic
import CausalUpdate.Program.Basic
import CausalUpdate.Store.Name
import CausalUpdate.Store.Selection
import CausalUpdate.Text.Line
import CausalUpdate.Work

/-!
# The program store

A store is a directory of a file tree with one file for every program.  Asking for a program that is
not there, or for one that cannot be read or written, is no failure of the caller: it is noted in
the journal and answered with an empty text or a refusal.  Only bytes that are not UTF-8 are a
failure, a suffix that no path can hold, and one that is no end of a pattern when the programs are
listed.

* `Store.persist`, `Store.load`, `Store.deleteName` — one program, by name.
* `Store.available` — all programs.
-/

namespace CausalUpdate

open CausalUpdate.Text

/-! ## Stores and failures -/

/-- A directory whose files of one kind hold programs. -/
structure Store where
  /-- What the names of program files end in. -/
  suffix : String := ".lp"
  /-- The tree that the directory belongs to. -/
  tree : FileTree := {}
  directory : Path := []

/-- Why a program cannot be read or written. -/
inductive StoreError
  /-- Nothing is left of the name. -/
  | invalidName (name : String)
  /-- The path of the file leads nowhere. -/
  | path (error : PathError)
deriving DecidableEq, Repr

def StoreError.message : StoreError → String
  | .invalidName name => s!"Invalid program name: '{name}'"
  | .path e => e.message

/-- What a store leaves to its caller. -/
inductive StoreFault
  /-- The bytes of a file are not UTF-8. -/
  | undecodable (file : String)
  /-- The suffix is no end of a pattern. -/
  | pattern (error : MisplacedStars)
  /-- The suffix is no end of a path. -/
  | path (error : PathError)
deriving DecidableEq, Repr

/-- A text as it is read from bytes: with every line break as a line feed. -/
def decodeText (file : String) (bytes : ByteArray) : Except StoreFault String :=
  match String.fromUTF8? bytes with
  | none => .error (.undecodable file)
  | some text => .ok (String.ofList (unifyBreaks text.toList))

/-- The bytes by which the name of a file that is being written is longer than its final name. -/
def temporaryMargin : Nat := 14

namespace Store

/-! ## Files -/

/-- The names on the way from the directory to the file of a program name.  There is only one,
unless the suffix has slashes. -/
def wayTo (s : Store) (name : String) : Except StoreError (List String) :=
  let safe := String.ofList (safeName name.toList)
  if safe.isEmpty then .error (.invalidName name) else .ok (Path.steps (safe ++ s.suffix))

/-- The name of the file of a program name, wherever it lies. -/
def fileFor (s : Store) (name : String) : Except StoreError String := do
  let way ← s.wayTo name
  return way.getLast?.getD ""

/-- The path of the file of a program name, if it can be looked up. -/
def pathFor (s : Store) (name : String) : Except StoreError Path := do
  let way ← s.wayTo name
  (s.tree.locate s.directory way).mapError .path

/-- The path and the bytes of the file of a program name. -/
def bytesOf (s : Store) (name : String) : Except StoreError (Path × ByteArray) := do
  let path ← s.pathFor name
  let bytes ← (s.tree.read path).mapError .path
  return (path, bytes)

/-! ## Writing -/

/-- The text that is stored for a program: its rules, each with a line feed behind it. -/
def storedText (p : Program) : String :=
  p.source ++ "\n"

/-- What stands against writing a file. -/
def writeFault? (s : Store) (file : String) (path : Path) : Option PathError :=
  if nameLimit < file.utf8ByteSize + temporaryMargin then some .longName
  else if s.tree.isDirectory path then some .isDirectory
  else none

/-- Write down that a program could not be stored. -/
def refuse (s : Store) (name : String) (e : StoreError) : Work (Bool × Store) := do
  Work.note .error "persistence" s!"Failed to persist program '{name}': {e.message}"
  return (false, s)

/-- Store a program under a name, or under its own if that name is missing or empty.  Tells whether
it was stored. -/
def persist (s : Store) (program : Option Program) (name : Option String := none) :
    Attempt StoreFault (Bool × Store) := do
  match program.filter fun p => !p.isEmpty with
  | none => do
    Work.note .warning "persistence" "Refusing to persist an empty program"
    return (false, s)
  | some p =>
    let name := (name.filter fun n => !n.isEmpty).getD p.name
    match s.pathFor name with
    | .error (.path .impossible) => throw (.path .impossible)
    | .error e => s.refuse name e
    | .ok path => do
      let file := ((s.fileFor name).toOption).getD ""
      if s.tree.has path then
        Work.note .warning "persistence" s!"Overwriting stored program {file}"
      match s.writeFault? file path with
      | some e => s.refuse name (.path e)
      | none => do
        Work.note .info "persistence"
          s!"Persisted program '{p.name}' to {file} ({p.size} rules)"
        return (true, { s with tree := s.tree.put path (storedText p).toUTF8 })

/-! ## Reading -/

/-- The stored text of a name; empty if there is none. -/
def load (s : Store) (name : String) : Attempt StoreFault String := do
  match s.bytesOf name with
  | .ok (path, bytes) => Attempt.of (decodeText (path.getLast?.getD "") bytes)
  | .error (.path .impossible) => throw (.path .impossible)
  | .error (.path .missing) => do
    Work.note .debug "persistence" s!"No stored program named '{name}'"
    return ""
  | .error e => do
    Work.note .error "persistence" s!"Failed to load program '{name}': {e.message}"
    return ""

/-- The places whose names end in the suffix, taken as a pattern, in order. -/
def programPlaces (s : Store) : Except StoreFault (List Place) := do
  let selection ← (Selection.ofSuffix s.suffix).mapError .pattern
  (selection.places s.tree s.directory).mapError .path

/-- Texts by name with one more; a name that is there keeps its place and takes the new text. -/
def insertText (name text : String) : List (String × String) → List (String × String)
  | [] => [(name, text)]
  | (n, t) :: rest =>
    if n = name then (n, text) :: rest else (n, t) :: insertText name text rest

/-- The texts of files by stem, added to those that are there. -/
def collectTexts (s : Store) (found : List (String × String)) :
    List Place → Attempt StoreFault (List (String × String))
  | [] => pure found
  | place :: places =>
    let file := place.way.getLast?.getD ""
    match s.tree.read place.path with
    | .ok bytes => do
      let text ← Attempt.of (decodeText file bytes)
      s.collectTexts (insertText (String.ofList (stem file.toList)) text found) places
    | .error e => do
      Work.note .warning "persistence" s!"Could not read {file}: {e.message}"
      s.collectTexts found places

/-- The text of every stored program by the stem of its file. -/
def available (s : Store) : Attempt StoreFault (List (String × String)) := do
  let places ← Attempt.of s.programPlaces
  s.collectTexts [] places

/-! ## Deleting -/

/-- Delete what is stored under a name.  Tells whether there was anything. -/
def deleteName (s : Store) (name : String) : Attempt StoreFault (Bool × Store) := do
  match s.bytesOf name with
  | .ok (path, _) => do
    Work.note .info "persistence" s!"Deleted stored program '{name}'"
    return (true, { s with tree := s.tree.erase path })
  | .error (.path .impossible) => throw (.path .impossible)
  | .error (.path .missing) => do
    Work.note .debug "persistence" s!"Nothing to delete for '{name}'"
    return (false, s)
  | .error e => do
    Work.note .error "persistence" s!"Failed to delete program '{name}': {e.message}"
    return (false, s)

/-- Delete what is stored under the name of a program. -/
def delete (s : Store) (program : Option Program) : Attempt StoreFault (Bool × Store) :=
  match program with
  | none => return (false, s)
  | some p => s.deleteName p.name

/-! ## Exporting -/

/-- A file outside the store: how its name begins and ends, and its text. -/
structure Exported where
  nameStart : String
  nameEnd : String
  text : String
deriving DecidableEq, Repr

/-- The characters between the start and the end of the name of an exported file. -/
def exportMargin : Nat := 8

/-- Write a program to a new file outside the store, where there are no directories. -/
def exportFile (s : Store) (p : Program) : Except PathError Exported :=
  let nameStart := p.name ++ "_"
  if (nameStart ++ s.suffix).contains nullCharacter then .error .impossible
  else if (nameStart ++ s.suffix).contains '/' then .error .missing
  else if nameLimit < nameStart.utf8ByteSize + exportMargin + s.suffix.utf8ByteSize then
    .error .longName
  else .ok ⟨nameStart, s.suffix, storedText p⟩

end Store

end CausalUpdate
