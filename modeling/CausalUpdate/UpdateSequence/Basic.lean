import CausalUpdate.Detection.Detect
import CausalUpdate.Program.Parse

/-!
# Update sequences

An update sequence holds the programs of an update, the oldest first, and what is known about them:
the conflicts and answer sets of the latest detection, and the operations of the solutions that were
accepted.

* `UpdateSequence.addProgram` and its kin — building a sequence.
* `UpdateSequence.applied` — the accepted operations, folded by kind.
* `UpdateSequence.merge`, `UpdateSequence.persistMerged` — the end of an update.
-/

namespace CausalUpdate

structure UpdateSettings where
  /-- Programs come in under labels that no rule of the sequence has. -/
  relabelIncoming : Bool := true
  /-- Every solution that is found is scored. -/
  scoreSolutions : Bool := true
deriving DecidableEq, Repr, Inhabited

/-- An operation of an accepted solution. -/
structure AppliedOperation where
  kind : OperationKind
  rule : Rule
deriving DecidableEq, Repr

/-- The programs of an update and what is known about them. -/
structure UpdateSequence where
  settings : UpdateSettings := {}
  strategies : List Strategy := Strategy.standard
  /-- The mark of the detector that belongs to the sequence. -/
  mark : Mark := default
  store : Option Store := none
  /-- The programs as they are now. -/
  programs : List Program := []
  /-- The programs as they came in. -/
  pristine : List Program := []
  /-- The conflicts of the latest detection. -/
  conflicts : List Conflict := []
  /-- The answer sets of the latest detection. -/
  answerSets : List AnswerSet := []
  /-- The accepted operations, the earliest first. -/
  log : List AppliedOperation := []

namespace UpdateSequence

/-! ## Building -/

def rules (u : UpdateSequence) : List Rule :=
  u.programs.flatMap Program.rules

/-- A program as it comes in. -/
def incoming (u : UpdateSequence) (p : Program) (relabel : Option Bool) : Program :=
  if relabel.getD u.settings.relabelIncoming then p.relabelled u.rules.length u.rules else p

/-- The sequence with a program as its newest one.  Tells whether there was a program with rules. -/
def addProgram (u : UpdateSequence) (program : Option Program) (relabel : Option Bool := none) :
    Work (Bool × UpdateSequence) := do
  match program.filter fun p => !p.isEmpty with
  | none => do
    Work.note .warning "update" "Rejected empty program"
    return (false, u)
  | some p => do
    let p := u.incoming p relabel
    Work.began "update" "program_add"
    Work.note .info "update" s!"Added program '{p.name}' ({p.size} rules) to the sequence"
    return (true, { u with programs := u.programs ++ [p], pristine := u.pristine ++ [p] })

/-- The sequence without programs and without anything known about them. -/
def clear (u : UpdateSequence) : Work UpdateSequence := do
  Work.note .debug "update" "Cleared update sequence"
  return { u with programs := [], pristine := [], conflicts := [], answerSets := [], log := [] }

/-- The sequence that begins with a program. -/
def setInitial (u : UpdateSequence) (program : Option Program) : Work (Bool × UpdateSequence) := do
  let u ← u.clear
  u.addProgram program

/-- The sequence with a stored program as its newest one.  Tells whether it was found and read. -/
def addByName (u : UpdateSequence) (name : String) :
    Attempt StoreFault (Bool × UpdateSequence) := do
  match u.store with
  | none => do
    Work.note .error "update" "No program store configured"
    return (false, u)
  | some store => do
    let text ← store.load name
    if text.isEmpty then do
      Work.note .warning "update" s!"No stored program named '{name}'"
      return (false, u)
    else
      match ← Attempt.outcome (Program.parse (some text) name) with
      | .error e => do
        Work.note .warning "update" s!"Stored program '{name}' could not be parsed: {e.message}"
        return (false, u)
      | .ok p => u.addProgram (some p)

/-- The programs that texts write, each under the name of its text.  Texts that cannot be read are
left out. -/
def parseStored : List (String × String) → Work (List (String × Program))
  | [] => pure []
  | (name, text) :: rest => do
    match ← (Program.parse (some text) name).run with
    | .error e => do
      Work.note .warning "update" s!"Skipping stored program '{name}': {e.message}"
      parseStored rest
    | .ok p => do
      let ps ← parseStored rest
      return (name, p) :: ps

/-- The stored programs that can be read. -/
def loadAvailable (u : UpdateSequence) : Attempt StoreFault (List (String × Program)) :=
  match u.store with
  | none => pure []
  | some store => do
    let texts ← store.available
    parseStored texts

/-! ## Accepted operations -/

/-- Rules by the kind of operation that brought them about. -/
structure Tally where
  additions : List Rule := []
  modifications : List Rule := []
  deletions : List Rule := []
deriving DecidableEq, Repr, Inhabited

/-- The tally after one more operation.  A new version of an added rule takes the place of the added
one; any other new version takes the place of an earlier new version of the same rule. -/
def Tally.record (t : Tally) (op : AppliedOperation) : Tally :=
  match op.kind with
  | .add => { t with additions := t.additions ++ [op.rule] }
  | .delete => { t with deletions := t.deletions ++ [op.rule] }
  | .modify =>
    match t.additions.findIdx? fun r => r.id = op.rule.id with
    | some i => { t with additions := t.additions.set i op.rule }
    | none =>
      let others := t.modifications.filter fun r => r.id ≠ op.rule.id
      { t with modifications := others ++ [op.rule] }

/-- The tally of all accepted operations. -/
def applied (u : UpdateSequence) : Tally :=
  u.log.foldl Tally.record {}

/-! ## Merging -/

/-- The sequence folded into its first program; nothing if there is no program. -/
def foldPrograms (u : UpdateSequence) (name : Option String) :
    Attempt ProgramError (Option Program) :=
  if u.programs.isEmpty then do
    Work.note .warning "update" "Nothing to merge"
    return none
  else do
    if !u.conflicts.isEmpty then
      Work.note .warning "update" s!"Merging with {u.conflicts.length} unresolved conflict(s)"
    let p ← Program.merge u.programs name
    return some p

/-- Fold the sequence and write down that this was done. -/
def merge (u : UpdateSequence) (name : Option String := none) :
    Attempt ProgramError (Option Program) := do
  Work.began "update" "merge_sequence"
  match ← Attempt.outcome (u.foldPrograms name) with
  | .ok p => do
    Work.completed "update" "merge_sequence"
    return p
  | .error e => do
    Work.failed "update" "merge_sequence"
    throw e

/-- Store the folded sequence under a name.  Tells whether it was stored. -/
def persistMerged (u : UpdateSequence) (name : String) :
    Attempt UpdateError (Bool × UpdateSequence) := do
  match u.store with
  | none => do
    Work.note .error "update" "No program store configured"
    return (false, u)
  | some store => do
    match ← (u.merge (some name)).adapt .program with
    | none => return (false, u)
    | some p => do
      let (stored, store) ← (store.persist (some p) (some name)).adapt .store
      return (stored, { u with store := some store })

end UpdateSequence

end CausalUpdate
