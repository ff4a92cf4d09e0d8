import CausalUpdate.Program.Basic
import CausalUpdate.Work

/-!
# Editing programs

Every edit returns a new program or fails, and none of them lets in an empty rule, a rule equivalent
to one that is there, or an identifier that is taken.

* `Program.add`, `Program.addAll` — rules at the end.  A rule whose identifier is taken comes in
  under a new one.
* `Program.modify` — another version in the place of the rule with the same identifier.
* `Program.erase` — a rule less.
* `Program.ofRules` — a program from rules, leaving out those that cannot be added.
* `Program.merge` — programs folded into the first of them, leaving out what it already says.
-/

namespace CausalUpdate

inductive ProgramError
  /-- An empty rule cannot be added. -/
  | emptyAddition
  /-- A rule cannot become empty. -/
  | emptyModification
  /-- The rule to be added is equivalent to the rule `existing` of the program. -/
  | duplicateAddition (rule : Clause) (program : String) (existing : Int)
  /-- The new version is equivalent to the rule `existing` of the program. -/
  | duplicateModification (rule : Clause) (existing : Int)
  /-- No rule of the program has the identifier; the program's name is empty if there is no one
  program to speak of. -/
  | unknownRule (id : Int) (program : String)
  /-- A solution cannot be applied to no programs. -/
  | emptySequence
  /-- There is no program to merge into. -/
  | nothingToMerge
deriving DecidableEq, Repr

def ProgramError.message : ProgramError → String
  | .emptyAddition => "Cannot add a rule without head and body"
  | .emptyModification => "Cannot modify a rule into an empty rule"
  | .duplicateAddition rule program _ =>
    s!"Rule '{rule.text}' already exists in program '{program}'"
  | .duplicateModification rule _ => s!"Modified rule '{rule.text}' duplicates an existing rule"
  | .unknownRule id program =>
    s!"No rule with identifier {id}" ++
      (if program.isEmpty then "" else s!" in program '{program}'")
  | .emptySequence => "Cannot apply a solution to an empty sequence"
  | .nothingToMerge => "Cannot merge an empty program sequence"

namespace Program

/-! ## Adding -/

/-- What stands against adding a clause. -/
def additionFault? (p : Program) (c : Clause) : Option ProgramError :=
  if c.isEmpty then some .emptyAddition
  else (p.findEqual? c).map fun r => .duplicateAddition c p.name r.id

/-- The program with a rule at its end. -/
def add (p : Program) (r : Rule) : Attempt ProgramError Program :=
  match p.additionFault? r.toClause with
  | some e => throw e
  | none =>
    if r.id ∈ p.ids then do
      let r ← r.renumbered
      return p.push r
    else return p.push r

/-- The program with several rules at its end; all of them or none. -/
def addAll (p : Program) : List Rule → Attempt ProgramError Program
  | [] => pure p
  | r :: rs => do
    let p ← p.add r
    p.addAll rs

/-- The program with those rules at its end that can be added. -/
def addPossible (p : Program) : List Rule → Work Program
  | [] => pure p
  | r :: rs => do
    match ← (p.add r).run with
    | .ok p => p.addPossible rs
    | .error e => do
      Work.note .debug systemComponent s!"Skipping rule while building '{p.name}': {e.message}"
      p.addPossible rs

/-- A program from rules, without empty ones and without repetitions. -/
def ofRules (name : String) (rs : List Rule) : Work Program :=
  addPossible { name } rs

/-! ## Changing and removing -/

/-- The place of the rule with an identifier. -/
def position? (p : Program) (id : Int) : Option Nat :=
  p.rules.findIdx? fun r => r.id = id

/-- What stands against a new version of a rule. -/
def modificationFault? (p : Program) (r : Rule) : Option ProgramError :=
  if r.toClause.isEmpty then some .emptyModification
  else if r.id ∉ p.ids then some (.unknownRule r.id p.name)
  else
    (p.rules.find? fun s => s.id ≠ r.id ∧ s.toClause ≈ r.toClause).map fun s =>
      .duplicateModification r.toClause s.id

/-- The program with a new version in the place of the rule with the same identifier. -/
def modify (p : Program) (r : Rule) : Except ProgramError Program :=
  match p.modificationFault? r with
  | some e => .error e
  | none => .ok { p with rules := p.rules.set ((p.position? r.id).getD p.size) r }

/-- The program without the rule with an identifier. -/
def erase (p : Program) (id : Int) : Except ProgramError Program :=
  match p.position? id with
  | none => .error (.unknownRule id p.name)
  | some i => .ok { p with rules := p.rules.eraseIdx i }

/-! ## Merging -/

/-- The program with the rules of another one at its end, without those it already has. -/
def absorb (p : Program) (source : String) : List Rule → Attempt ProgramError Program
  | [] => pure p
  | r :: rs => do
    match ← Attempt.outcome (p.add r) with
    | .ok p => p.absorb source rs
    | .error (.duplicateAddition ..) => do
      Work.note .info systemComponent
        s!"Rule '{r.text}' of '{source}' already present, skipped"
      p.absorb source rs
    | .error e => throw e

/-- The program with the rules of further programs at its end. -/
def mergeInto (p : Program) : List Program → Attempt ProgramError Program
  | [] => pure p
  | q :: qs => do
    let p ← p.absorb q.name q.rules
    p.mergeInto qs

/-- The programs folded into the first of them, possibly under another name. -/
def merge (ps : List Program) (name : Option String := none) : Attempt ProgramError Program :=
  match ps with
  | [] => throw .nothingToMerge
  | p :: qs => mergeInto (p.renamed (name.getD p.name)) qs

end Program

end CausalUpdate
