import CausalUpdate.Program.Edit
import CausalUpdate.Solution.Basic

/-!
# Applying a solution

A solution is applied to a sequence of programs, the oldest first.  Added rules go to the newest
program; a rule is modified or deleted in every program that holds its identifier, and there has to
be one.  If any step fails, the whole application fails.
-/

namespace CausalUpdate

/-- Some program of the sequence holds the identifier. -/
def Held (ps : List Program) (id : Int) : Prop :=
  ∃ p ∈ ps, id ∈ p.ids

instance (ps : List Program) (id : Int) : Decidable (Held ps id) :=
  inferInstanceAs (Decidable (∃ p ∈ ps, id ∈ p.ids))

/-- The programs after an edit of those that hold an identifier. -/
def editHolders (edit : Program → Except ProgramError Program) (id : Int) :
    List Program → Except ProgramError (List Program)
  | [] => .ok []
  | p :: ps => do
    let p ← if id ∈ p.ids then edit p else .ok p
    let ps ← editHolders edit id ps
    return p :: ps

/-- The programs after an edit of those that hold an identifier; there has to be one. -/
def editHeld (edit : Program → Except ProgramError Program) (id : Int) (ps : List Program) :
    Except ProgramError (List Program) :=
  if Held ps id then editHolders edit id ps else .error (.unknownRule id "")

/-- The programs after several such edits, one for every rule. -/
def editEach (edit : Rule → Program → Except ProgramError Program) :
    List Rule → List Program → Except ProgramError (List Program)
  | [], ps => .ok ps
  | r :: rs, ps => do
    let ps ← editHeld (edit r) r.id ps
    editEach edit rs ps

/-- The programs with rules at the end of the newest one. -/
def addToNewest (rs : List Rule) : List Program → Attempt ProgramError (List Program)
  | [] => throw .emptySequence
  | [newest] => do
    let newest ← newest.addAll rs
    return [newest]
  | p :: ps => do
    let ps ← addToNewest rs ps
    return p :: ps

def Solution.applyTo (s : Solution) (ps : List Program) : Attempt ProgramError (List Program) := do
  let ps ← addToNewest s.additions ps
  let ps ← Attempt.of (editEach (fun r p => p.modify r) s.modifications ps)
  Attempt.of (editEach (fun r p => p.erase r.id) s.deletions ps)

end CausalUpdate
