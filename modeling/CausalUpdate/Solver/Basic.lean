import CausalUpdate.Decimal.Notation
import CausalUpdate.Solver.Models
import CausalUpdate.Work

/-!
# Solvers

A solver is asked for the answer sets of one program after the other.  The exact solver computes
them; a scripted solver gives prepared replies in turn, and answers with a single empty model once
they are used up.

* `Solving` — work during which a solver can be asked.
* `Solver.ask` — ask the solver at hand.
-/

namespace CausalUpdate

/-- Why a solver gives no answer. -/
inductive SolverError
  /-- There are no rules to solve. -/
  | emptyProgram
  /-- The program cannot be grounded. -/
  | grounding (program : String) (fault : GroundingFault)
  /-- The time limit was exceeded. -/
  | timeLimit (seconds : Float)
  /-- A failure that a script asks for, in its own words. -/
  | other (text : String)

def SolverError.message : SolverError → String
  | .emptyProgram => "Cannot solve an empty program"
  | .grounding program fault => s!"Grounding failed for '{program}': {fault.message}"
  | .timeLimit seconds => s!"Solving exceeded the time limit of {Decimal.tenthsText seconds}s"
  | .other text => text

structure Solved where
  satisfiable : Bool
  models : List String := []
deriving DecidableEq, Repr

/-- A source of answer sets.  Its reply to a program may depend on everything it was asked before,
so that no solver is excluded; the programs asked so far are kept, the latest first. -/
structure Solver where
  reply : (earlier : List Program) → Program → Except SolverError Solved
  asked : List Program := []

/-- Work during which a solver can be asked. -/
abbrev Solving := StateT Solver Work

/-- Work that needs no solver, while one is at hand. -/
def Solving.work {α : Type} (x : Work α) : Solving α :=
  StateT.lift x

/-- Write an entry while a solver is at hand. -/
def Solving.note (level : Level) (component message : String) : Solving Unit :=
  Solving.work (Work.note level component message)

def Solved.ofRules (rules : List GroundRule) : Solved :=
  let models := modelsOf rules
  ⟨!models.isEmpty, models⟩

/-- The answer sets of a program, if it can be grounded. -/
def Program.solve (p : Program) : Except SolverError Solved :=
  if p.isEmpty then .error .emptyProgram
  else (p.grounding.map Solved.ofRules).mapError (.grounding p.name)

namespace Solver

/-- The solver that computes the answer sets. -/
def exact : Solver :=
  { reply := fun _ p => p.solve }

instance : Inhabited Solver := ⟨exact⟩

/-- What a scripted solver replies when its replies are used up: there is one empty model. -/
def lastReply : Solved :=
  ⟨true, [""]⟩

/-- The solver that gives prepared replies in turn, whatever it is asked. -/
def scripted (replies : List (Except SolverError Solved)) : Solver :=
  { reply := fun earlier _ => replies[earlier.length]?.getD (.ok lastReply) }

/-- The reply of a solver to a program, and the solver after that. -/
def consult (s : Solver) (p : Program) : Except SolverError Solved × Solver :=
  (s.reply s.asked p, { s with asked := p :: s.asked })

/-- Ask the solver at hand for the answer sets of a program. -/
def ask (p : Program) : Solving (Except SolverError Solved) := do
  let outcome ← modifyGet fun s => s.consult p
  match outcome with
  | .error (.grounding program fault) =>
    Solving.note .error "solver" s!"Failed to ground program '{program}': {fault.message}"
  | _ => pure ()
  return outcome

end Solver

end CausalUpdate
