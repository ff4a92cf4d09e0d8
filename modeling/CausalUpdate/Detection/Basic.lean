import CausalUpdate.AnswerSet.Parse
import CausalUpdate.Conflict.Basic
import CausalUpdate.Conflict.Extract
import CausalUpdate.Program.Edit
import CausalUpdate.Solver.Basic
import CausalUpdate.Store.Basic
import CausalUpdate.Strategy.Basic

/-!
# Detections

A detection looks for conflicts between programs and either completes, with what it found, or fails
for one of a few causes.  Apart from that, work on a sequence of programs can break off: programs
that cannot be merged, solutions that cannot be built, identifiers that are too long.

* `Detection` — the outcome of a detection.
* `Updating` — work that asks a solver and may break off.
-/

namespace CausalUpdate

/-! ## Outcomes -/

structure Findings where
  conflicts : List Conflict := []
  /-- The answer sets of the update program, without what only the update program knows. -/
  answerSets : List AnswerSet := []
  /-- The update program has an answer set. -/
  consistent : Bool := true

inductive DetectionFailure
  /-- Conflicts arise between programs, and there are fewer than two. -/
  | tooFewPrograms (count : Nat)
  /-- The solver gave no answer. -/
  | solver (error : SolverError)
  /-- An answer set of the solver cannot be read. -/
  | unreadableModels
  /-- The solution that comes before the detection changes nothing. -/
  | emptySolution
  /-- The solution that comes before the detection cannot be applied. -/
  | solution (error : ProgramError)

namespace DetectionFailure

def status : DetectionFailure → String
  | .tooFewPrograms _ => "too_few_programs"
  | .solver _ => "solver_error"
  | .unreadableModels => "unparsable_models"
  | .emptySolution => "invalid_solution"
  | .solution _ => "invalid_solution"

def message : DetectionFailure → String
  | .tooFewPrograms count => s!"Detection needs at least two programs, the sequence has {count}"
  | .solver e => e.message
  | .unreadableModels => "Solver returned unparsable answer sets"
  | .emptySolution => "Solution has no operations"
  | .solution e => e.message

end DetectionFailure

inductive Detection
  | completed (findings : Findings)
  | failed (cause : DetectionFailure)

namespace Detection

def ok : Detection → Bool
  | completed _ => true
  | failed _ => false

def status : Detection → String
  | completed _ => "ok"
  | failed cause => cause.status

/-- The wording of a failure; empty if there is none. -/
def message : Detection → String
  | completed _ => ""
  | failed cause => cause.message

/-- What was found; nothing in the case of a failure, which is not consistent either. -/
def findings : Detection → Findings
  | completed findings => findings
  | failed _ => { consistent := false }

def hasConflicts (d : Detection) : Bool :=
  !d.findings.conflicts.isEmpty

/-- The detection completed and found nothing wrong. -/
def isClean (d : Detection) : Bool :=
  d.ok && !d.hasConflicts && d.findings.consistent

end Detection

/-! ## Work that asks a solver -/

/-- Why work on a sequence of programs breaks off. -/
inductive UpdateError
  | program (error : ProgramError)
  | solution (error : SolutionError)
  | identifier (error : LongIdentifier)
  | store (fault : StoreFault)
deriving DecidableEq, Repr

/-- The failure of a strategy as a reason to break off. -/
def UpdateError.ofStrategy : StrategyError → UpdateError
  | .program e => .program e
  | .solution e => .solution e

/-- Work that asks a solver and may break off. -/
abbrev Updating := ExceptT UpdateError Solving

namespace Updating

def work {α : Type} (x : Work α) : Updating α :=
  ExceptT.lift (Solving.work x)

/-- Work that can break off, with its failures as reasons. -/
def attempt {ε α : Type} (reason : ε → UpdateError) (x : Attempt ε α) : Updating α :=
  ExceptT.adapt reason (ExceptT.mk (Solving.work x.run))

/-- Work for every item of a list. -/
def each {α β : Type} (f : α → Updating β) : List α → Updating (List β)
  | [] => pure []
  | a :: as => do
    let b ← f a
    let bs ← each f as
    return b :: bs

end Updating

end CausalUpdate
