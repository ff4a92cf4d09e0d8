import CausalUpdate.CommandLine.Arguments
import CausalUpdate.CommandLine.Display
import CausalUpdate.CommandLine.Prompt
import CausalUpdate.UpdateSequence.Resolve

/-!
# The update dialogue

An update is a dialogue.  As long as there are conflicts it asks which one to resolve, by which
solution and with which variants; then it shows the merged programs and asks whether and where to
store them.

The dialogue stands at a question or has come to its end (`Stage`); a line takes it from one stage
to the next (`Dialogue.answer`).  So it can be run on lines as they arrive as well as on a list of
lines (`Dialogue.run`).
-/

namespace CausalUpdate.CommandLine

/-- What an update is asked to do. -/
structure Request where
  oldName : String
  newName : String
  output : Option String := none
  /-- Store the merged programs without asking. -/
  yes : Bool := false
  /-- What tells a name apart from one that is not to be overwritten. -/
  stamp : String := ""

/-- The name under which the merged programs are stored. -/
def Request.target (r : Request) : String :=
  r.output.getD r.oldName

inductive Question
  /-- Which conflict is to be resolved. -/
  | conflict (findings : Findings)
  /-- Which solution is to be accepted. -/
  | solution (c : Conflict)
  /-- Whether to look at the variants of a solution. -/
  | variants (s : Solution)
  /-- Which version of a rule to use; the rules with these identifiers come after it. -/
  | variant (s : Solution) (versions : List Rule) (later : List Int)
  /-- Whether to store the merged programs. -/
  | persist
  /-- Whether to overwrite what is stored. -/
  | overwrite

inductive Stage
  | asking (question : Question)
  | ended (exit : Exit)

structure Dialogue where
  request : Request
  sequence : UpdateSequence
  /-- What was printed, the latest piece first. -/
  printed : List String := []

abbrev Talk := StateT Dialogue Solving

namespace Dialogue

/-! ## Steps -/

def print (text : String) : Talk Unit :=
  modify fun d => { d with printed := text :: d.printed }

/-- Print lines, without the control sequences in them. -/
def printLines (lines : List String) : Talk Unit :=
  lines.forM fun line => print (Text.plain line ++ "\n")

def change {α : Type} (f : UpdateSequence → Solving (α × UpdateSequence)) : Talk α := do
  let d ← get
  let (a, sequence) ← StateT.lift (f d.sequence)
  modify fun d => { d with sequence }
  return a

/-- Work on the update sequence that may break off; then the run ends without a word. -/
def attempt {ε α : Type} (f : UpdateSequence → Attempt ε (α × UpdateSequence)) :
    Talk (Except Exit α) := do
  let d ← get
  match ← StateT.lift (Solving.work (f d.sequence).run) with
  | .error _ => return .error .silent
  | .ok (a, sequence) => do
    modify fun d => { d with sequence }
    return .ok a

/-! ## Prompts -/

/-- Asks for one of several conflicts. -/
def conflictPrompt (cs : List Conflict) : NumberPrompt :=
  { text := "\nConflict to resolve", least := 1, greatest := cs.length }

/-- Asks for one of several solutions. -/
def solutionPrompt (ss : List Solution) : NumberPrompt :=
  { text := "Solution to apply", least := 1, greatest := ss.length }

/-- Asks whether variants are to be looked at. -/
def variantsPrompt : Confirmation :=
  { text := "Choose among variants?", default := false }

/-- Asks for one of several versions, or for none of them. -/
def variantPrompt (versions : List Rule) : NumberPrompt :=
  { text := "Variant to use (0 keeps the chosen rule)", least := 0, greatest := versions.length,
    default := some 0 }

/-- Asks whether to store the merged programs. -/
def persistPrompt : Confirmation :=
  { text := "\nPersist the merged program?", default := true }

/-- Asks whether to overwrite what is stored under a name. -/
def overwritePrompt (name : String) : Confirmation :=
  { text := s!"Overwrite stored program '{name}'?", default := false }

/-- A question as it is shown. -/
def shown (d : Dialogue) : Question → String
  | .conflict findings => (conflictPrompt findings.conflicts).shown
  | .solution c => (solutionPrompt c.solutions).shown
  | .variants _ => variantsPrompt.shown
  | .variant _ versions _ => (variantPrompt versions).shown
  | .persist => persistPrompt.shown
  | .overwrite => Text.plain (overwritePrompt d.request.target).shown

/-! ## The end -/

/-- Store the merged programs under a name and end. -/
def save (name : String) : Talk Stage := do
  match ← attempt fun u => u.persistMerged name with
  | .error e => return .ended e
  | .ok false => return .ended (.failure s!"Could not save '{name}'")
  | .ok true => do
    printLines [s!"Saved as '{name}'"]
    return .ended {}

/-- Something is stored under the target name. -/
def targetTaken : Talk (Except Exit Bool) := do
  let d ← get
  attempt fun u => do
    let text ← (u.store.getD {}).load d.request.target
    return (!text.isEmpty, u)

/-- Store the merged programs, unless that would overwrite something. -/
def saveOrAsk : Talk Stage := do
  match ← targetTaken with
  | .error e => return .ended e
  | .ok true => return .asking .overwrite
  | .ok false => do
    let d ← get
    save d.request.target

/-- Show the merged programs and ask whether to store them. -/
def conclude : Talk Stage := do
  let d ← get
  match ← attempt fun u => do return (← u.merge (some d.request.target), u) with
  | .error e => return .ended e
  | .ok p => do
    printLines ["", separator, "Merged program:", (p.map Program.source).getD ""]
    if d.request.yes then save d.request.target else return .asking .persist

/-! ## Conflicts -/

/-- Go on with a detection: show its conflicts and ask which one to resolve, or come to the end. -/
def consider (d : Detection) : Talk Stage := do
  let cs := d.findings.conflicts
  if d.hasConflicts then
    printLines (["", separator, s!"{cs.length} conflict(s) detected"] ++ conflictListLines cs)
    if cs.any fun c => !c.solutions.isEmpty then return .asking (.conflict d.findings)
    printLines ["", "No candidate solutions left; remaining conflicts stay unresolved."]
  match d with
  | .failed cause => return .ended (.failure s!"Conflict detection failed: {cause.message}")
  | .completed findings => do
    if !findings.consistent then
      printLines ["Warning: the updated sequence has no answer set."]
    conclude

/-- Go on with a change of the sequence. -/
def proceed (f : UpdateSequence → UpdateSequence.Change) : Talk Stage := do
  match ← change f with
  | .error _ => return .ended .silent
  | .ok d => consider d

def accept (s : Solution) : Talk Stage :=
  proceed fun u => u.accept (some s)

/-- Show the versions of the first of several rules and ask which one to use. -/
def askVariant (s : Solution) : List Int → Talk Stage
  | [] => accept s
  | id :: later => do
    let chosen := ((s.operation? id).map fun o => o.2.text).getD "-"
    let versions := s.variantsOf id
    printLines (["", "Chosen: " ++ chosen] ++
      (numbered versions).map fun (i, r) => s!"  ({i}) {r.text}")
    return .asking (.variant s versions later)

/-- Use a version of a rule and go on with the next rule; zero keeps the chosen version. -/
def useVariant (s : Solution) (versions : List Rule) (later : List Int) : Nat → Talk Stage
  | 0 => askVariant s later
  | i + 1 =>
    match versions[i]?.map s.chooseVariant with
    | some (.ok s) => askVariant s later
    | _ => return .ended .silent

/-- Show the solutions of a conflict and ask which one to accept. -/
def askSolution (findings : Findings) (c : Conflict) : Talk Stage :=
  if c.solutions.isEmpty then do
    printLines ["This conflict has no candidate solutions."]
    consider (.completed findings)
  else do
    printLines (solutionListLines c.solutions)
    return .asking (.solution c)

/-- Accept a solution, or ask about its variants first if it has any. -/
def takeSolution (s : Solution) : Talk Stage :=
  if s.variants.isEmpty then accept s else return .asking (.variants s)

/-! ## Answers -/

/-- Go on with what was made of a line; a line that is no answer leaves the question open. -/
def react {α : Type} (q : Question) (a : Answer α) (next : α → Talk Stage) : Talk Stage :=
  match a with
  | .given value => next value
  | .empty => return .asking q
  | .refused reason => do
    printLines ["Error: " ++ reason]
    return .asking q

/-- The stage that a line as the answer to a question leads to. -/
def answer (q : Question) (line : String) : Talk Stage := do
  let d ← get
  match q with
  | .conflict findings =>
    react q ((conflictPrompt findings.conflicts).read line) fun n =>
      match findings.conflicts[n - 1]? with
      | some c => askSolution findings c
      | none => return .asking q
  | .solution c =>
    react q ((solutionPrompt c.solutions).read line) fun n =>
      match c.solutions[n - 1]? with
      | some s => takeSolution s
      | none => return .asking q
  | .variants s =>
    react q (variantsPrompt.read line) fun look =>
      if look then askVariant s (s.variants.map Prod.fst) else accept s
  | .variant s versions later =>
    react q ((variantPrompt versions).read line) (useVariant s versions later)
  | .persist =>
    react q (persistPrompt.read line) fun store =>
      if store then saveOrAsk else return .ended {}
  | .overwrite =>
    react q ((overwritePrompt d.request.target).read line) fun overwrite =>
      if overwrite then save d.request.target
      else save (d.request.target ++ "_" ++ d.request.stamp)

/-! ## Runs -/

/-- Add a stored program to the sequence, or end. -/
def addStored (name : String) : Talk (Except Exit Unit) := do
  match ← attempt fun u => u.addByName name with
  | .error e => return .error e
  | .ok true => return .ok ()
  | .ok false => return .error (.failure s!"Could not load program '{name}'")

/-- The first stage: the two programs are added and their conflicts detected. -/
def start : Talk Stage := do
  let d ← get
  match ← addStored d.request.oldName with
  | .error e => return .ended e
  | .ok () =>
    match ← addStored d.request.newName with
    | .error e => return .ended e
    | .ok () => proceed UpdateSequence.detect

/-- The end of a dialogue that goes on with these lines and no others.  Every line is printed behind
the question that it answers. -/
def run : Stage → List String → Talk Exit
  | .ended e, _ => return e
  | .asking q, [] => do
    let d ← get
    print (d.shown q)
    return .aborted
  | .asking q, line :: lines => do
    let d ← get
    print (d.shown q ++ line ++ "\n")
    let stage ← answer q line
    run stage lines

/-- What was printed, in order, and the dialogue with nothing printed. -/
def takeOutput (d : Dialogue) : String × Dialogue :=
  (String.join d.printed.reverse, { d with printed := [] })

end Dialogue

end CausalUpdate.CommandLine
