import CausalUpdate.Detection.Basic

/-!
# Detecting conflicts

Two programs are compared through their update program.  A longer sequence is compared step by step:
as long as nothing is wrong between a program and the next one, the two are merged, and the result
is compared with the program after that.

* `detectPair` — the conflicts between two programs.
* `detectSequence` — the first conflicts in a sequence.
-/

namespace CausalUpdate

/-! ## Two programs -/

/-- Every answer set to which no earlier one is equivalent, in order. -/
def AnswerSet.distinctSets : List AnswerSet → List AnswerSet
  | [] => []
  | s :: ss => s :: (distinctSets ss).filter fun t => ¬ s ≈ t

/-- What two programs see of the answer sets of their update program. -/
def visibleSets (older newer : Program) (answerSets : List AnswerSet) : List AnswerSet :=
  AnswerSet.distinctSets
    (answerSets.map fun s => s.restrictedTo (Program.literalBase [older, newer]))

/-- What the models of an update program show. -/
def findingsOf (mark : Mark) (older newer : Program) (models : List String) :
    Updating Detection := do
  let answerSets ← Updating.work (AnswerSet.parseAll models)
  if answerSets.length ≠ models.length then return .failed .unreadableModels
  else do
    let conflicts ← Updating.attempt .identifier (extractConflicts older newer answerSets mark)
    return .completed { conflicts, answerSets := visibleSets older newer answerSets }

def detectPair (mark : Mark) (older newer : Program) : Updating Detection := do
  let p ← Updating.work (buildUpdateProgram older newer mark)
  match ← ExceptT.lift (Solver.ask p) with
  | .error e => do
    Updating.work (Work.note .error "update" s!"Conflict detection failed: {e.message}")
    return .failed (.solver e)
  | .ok solved =>
    if solved.satisfiable then findingsOf mark older newer solved.models
    else do
      Updating.work (Work.note .warning "update" "The update program has no answer set")
      return .completed { consistent := false }

/-! ## Sequences -/

/-- Write down that a detection ended in front of the last program. -/
def noteStop (position last : Nat) (d : Detection) : Work Unit :=
  let consistent := if d.findings.consistent then "True" else "False"
  Work.note .info "update"
    (s!"Stopped at program {position} of {last}: {d.findings.conflicts.length} conflict(s), " ++
      s!"consistent={consistent}")

/-- The first conflicts between a program and those that follow it, of which the next one stands at
`position` and the last one at `last`. -/
def detectFrom (mark : Mark) (last position : Nat) (older : Program) :
    List Program → Updating Detection
  | [] => return .failed (.tooFewPrograms 1)
  | [newer] => detectPair mark older newer
  | newer :: next :: rest => do
    let d ← detectPair mark older newer
    if d.isClean then do
      let merged ← Updating.attempt .program (Program.merge [older, newer] (some older.name))
      detectFrom mark last (position + 1) merged (next :: rest)
    else do
      Updating.work (noteStop position last d)
      return d

/-- The first conflicts in a sequence of programs, the oldest first. -/
def detectSequence (mark : Mark) : List Program → Updating Detection
  | [] => return .failed (.tooFewPrograms 0)
  | oldest :: rest => detectFrom mark rest.length 1 oldest rest

end CausalUpdate
