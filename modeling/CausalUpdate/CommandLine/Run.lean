import CausalUpdate.CommandLine.Dialogue
import CausalUpdate.Settings.Basic

/-!
# Running a command

A command works on a file tree and ends with an exit, an output and a changed tree.  Listing and
detecting end at once; an update goes on as a dialogue.

* `Start.of` — what a list of words starts.
* `Outcome.of` — how it ends with a list of input lines.
* `captured` — what is kept of a text that is printed.
-/

namespace CausalUpdate.CommandLine

open CausalUpdate.Text

structure Outcome where
  exit : Exit
  output : String := ""
  tree : FileTree

/-- A printed text as it is kept: with line feeds in place of pairs of a carriage return and a line
feed. -/
def captured (text : String) : String :=
  String.ofList (joinBreaks text.toList)

/-! ## Detecting and listing -/

def printed (lines : List String) : String :=
  String.join (lines.map fun line => plain line ++ "\n")

/-- The program that a file holds, or how the run ends without it. -/
def readProgram (t : FileTree) (file : String) : Updating (Except Exit Program) := do
  match t.kindOfText file with
  | .file bytes => do
    let text ← Updating.attempt .store (Attempt.of (decodeText file bytes))
    let name := Path.lastName file
    match ← Updating.work (Program.parse (some text) (String.ofList (stem name.toList))).run with
    | .ok p => return .ok p
    | .error e => return .error (.failure s!"{name}: {e.message}")
  | _ => return .error .silent

def sequenceOf (settings : UpdateSettings) (older newer : Program) : Work UpdateSequence := do
  let (_, u) ← ({ settings } : UpdateSequence).addProgram (some older)
  let (_, u) ← u.addProgram (some newer)
  return u

/-- Detect the conflicts between two files. -/
def detectFiles (settings : UpdateSettings) (t : FileTree) (oldFile newFile : String)
    (json : Bool) : Updating (Exit × String) := do
  match ← readProgram t oldFile with
  | .error e => return (e, "")
  | .ok older =>
    match ← readProgram t newFile with
    | .error e => return (e, "")
    | .ok newer => do
      let u ← Updating.work (sequenceOf settings older newer)
      let (outcome, _) ← ExceptT.lift u.detect
      match outcome with
      | .error e => throw e
      | .ok d =>
        if json then return ({}, printed [d.document.render])
        match d with
        | .failed cause =>
          return (.failure s!"Conflict detection failed: {cause.message}", "")
        | .completed findings => return ({}, printed (detectionLines findings.conflicts))

/-- The lines of the stored programs. -/
def listLines (s : Store) : Attempt StoreFault (List String) := do
  let texts ← s.available
  if texts.isEmpty then return ["No stored programs."]
  else return texts.map fun (name, text) => storedLine name text

/-! ## Starting -/

/-- An update on its way: its dialogue and all that goes with it. -/
structure Running where
  tree : FileTree
  dialogue : Dialogue
  solver : Solver := .exact
  ledger : Ledger := {}

namespace Running

/-- Take a step of the dialogue. -/
def step {α : Type} (r : Running) (x : Talk α) : α × Running :=
  let (((a, dialogue), solver), ledger) := ((x.run r.dialogue).run r.solver).run r.ledger
  (a, { r with dialogue, solver, ledger })

/-- The file tree with what the dialogue has stored. -/
def storedTree (r : Running) : FileTree :=
  match r.dialogue.sequence.store with
  | none => r.tree
  | some s => s.tree

def outcome (r : Running) (exit : Exit) : Outcome :=
  ⟨exit, r.dialogue.takeOutput.1, r.storedTree⟩

end Running

/-- What a list of words starts: a run that ends at once, or a dialogue. -/
inductive Start
  | ended (outcome : Outcome)
  | running (stage : Stage) (r : Running)

/-- The store in a directory, unless there can be no such directory. -/
def storeAt (settings : StoreSettings) (t : FileTree) (programs : Option String) :
    Except Exit Store :=
  match t.directoryOfText (programs.getD settings.directory) with
  | none => .error .silent
  | some path =>
    .ok { suffix := settings.suffix, tree := t.putDirectory path, directory := path }

/-- The result of work that asks the solver, or a silent end if it breaks off. -/
def settled (x : Updating (Exit × String)) : Exit × String :=
  match ((x.run.run Solver.exact).run {}).1.1 with
  | .ok result => result
  | .error _ => (.silent, "")

namespace Start

def ofCommand (settings : Settings) (t : FileTree) (stamp : String) : Command → Start
  | .detect oldFile newFile json =>
    let (exit, output) := settled (detectFiles settings.update t oldFile newFile json)
    .ended ⟨exit, output, t⟩
  | .help usage => .ended ⟨{}, printed [usage], t⟩
  | .list programs =>
    match storeAt settings.store t programs with
    | .error exit => .ended ⟨exit, "", t⟩
    | .ok s =>
      match ((listLines s).run.run {}).1 with
      | .ok lines => .ended ⟨{}, printed lines, t⟩
      | .error _ => .ended ⟨.silent, "", t⟩
  | .update oldName newName programs output yes =>
    match storeAt settings.store t programs with
    | .error exit => .ended ⟨exit, "", t⟩
    | .ok s =>
      let request : Request := { oldName, newName, output, yes, stamp }
      let sequence : UpdateSequence := { settings := settings.update, store := some s }
      let r : Running := { tree := t, dialogue := { request, sequence } }
      let (stage, r) := r.step Dialogue.start
      .running stage r

/-- What a list of words starts. -/
def of (settings : Settings) (t : FileTree) (stamp : String) (words : List String) : Start :=
  match Command.parse t words with
  | .error exit => .ended ⟨exit, "", t⟩
  | .ok command => ofCommand settings t stamp command

end Start

/-- The lines of an input text. -/
def inputLines (text : String) : List String :=
  (plainLines text.toList).map String.ofList

/-- How a list of words ends with an input text. -/
def Outcome.of (settings : Settings) (t : FileTree) (stamp : String) (words : List String)
    (input : String) : Outcome :=
  match Start.of settings t stamp words with
  | .ended outcome => outcome
  | .running stage r =>
    let (exit, r) := r.step (Dialogue.run stage (inputLines input))
    r.outcome exit

end CausalUpdate.CommandLine
