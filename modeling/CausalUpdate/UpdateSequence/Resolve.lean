import CausalUpdate.Distance.Basic
import CausalUpdate.Solution.Apply
import CausalUpdate.UpdateSequence.Basic

/-!
# Resolving conflicts

A detection on an update sequence replaces what was known about it.  Every conflict that is found is
handed to the strategies, and the solutions they offer are scored by what the sequence would be
after them.  Accepting a solution changes the programs and detects again.

* `UpdateSequence.detect` — detect, look for solutions and score them.
* `UpdateSequence.preview`, `UpdateSequence.score` — what a solution would lead to.
* `UpdateSequence.accept` — apply a solution.

A detection and an acceptance keep what they have changed even if they break off.
-/

namespace CausalUpdate.UpdateSequence

/-! ## Looking ahead -/

/-- What a detection would find after a solution. -/
def preview (u : UpdateSequence) (s : Solution) : Updating Detection := do
  match ← Updating.work (s.applyTo u.programs).run with
  | .error e => return .failed (.solution e)
  | .ok programs => detectSequence u.mark programs

/-- The solution with its score against the present state. -/
def score (u : UpdateSequence) (s : Solution) : Updating Solution := do
  let d ← u.preview s
  let answerSets :=
    match d with
    | .completed findings => some (answerSetDistance u.answerSets findings.answerSets)
    | .failed _ => none
  return { s with score := some { answerSets, rules := s.ruleDistance u.programs } }

/-! ## Detecting -/

/-- The strategies that are applied of their own accord. -/
def automatic (u : UpdateSequence) : List Strategy :=
  u.strategies.filter fun s => !s.interactive

/-- A conflict with the solutions that are offered for it. -/
def offerSolutions (u : UpdateSequence) (c : Conflict) : Updating Conflict := do
  let c ← Updating.attempt .ofStrategy (Strategy.applyAll u.programs c u.automatic)
  if u.settings.scoreSolutions then do
    let solutions ← Updating.each u.score c.solutions
    return { c with solutions }
  else return c

/-- The conflicts with the solutions that are offered for them. -/
def offerAll (u : UpdateSequence) (cs : List Conflict) : Updating (List Conflict) := do
  let cs ← Updating.each u.offerSolutions cs
  Updating.work (Work.note .info "update" s!"Detected {cs.length} conflict(s)")
  return cs

/-- Work on a sequence that may break off and keeps the sequence. -/
abbrev Change := Solving (Except UpdateError Detection × UpdateSequence)

/-- Write down how a change begins and how it ends. -/
def tracked (operation : String) (change : Change) : Change := do
  Solving.work (Work.began "update" operation)
  let (outcome, u) ← change
  match outcome with
  | .ok _ => Solving.work (Work.completed "update" operation)
  | .error _ => Solving.work (Work.failed "update" operation)
  return (outcome, u)

/-- The sequence with what a detection found out about it. -/
def withFindings (u : UpdateSequence) (f : Findings) : UpdateSequence :=
  { u with conflicts := f.conflicts, answerSets := f.answerSets }

/-- Replace what is known about the sequence by what a detection finds. -/
def refresh (u : UpdateSequence) : Change := do
  match ← (detectSequence u.mark u.programs).run with
  | .error e => return (.error e, u)
  | .ok (.failed cause) =>
    return (.ok (.failed cause), u.withFindings {})
  | .ok (.completed findings) => do
    let u := u.withFindings findings
    match ← (u.offerAll findings.conflicts).run with
    | .error e => return (.error e, u)
    | .ok conflicts =>
      let findings := { findings with conflicts }
      return (.ok (.completed findings), u.withFindings findings)

/-- Detect conflicts and look for solutions. -/
def detect (u : UpdateSequence) : Change :=
  tracked "detect_conflicts" u.refresh

/-! ## Accepting -/

/-- The operations of a solution as they are logged. -/
def operationsOf (s : Solution) : List AppliedOperation :=
  s.operations.map fun (kind, rule) => { kind, rule }

/-- Apply a solution and detect again. -/
def applySolution (u : UpdateSequence) (s : Solution) : Change := do
  match ← Solving.work (s.applyTo u.programs).run with
  | .error e => do
    Solving.note .warning "update" s!"Rejected solution: {e.message}"
    return (.ok (.failed (.solution e)), u)
  | .ok programs => do
    Solving.note .info "update" s!"Accepted solution: {s.text}"
    detect { u with programs, log := u.log ++ operationsOf s }

/-- Accept a solution.  One that is missing or changes nothing, or that cannot be applied, changes
nothing and is answered with a failure. -/
def accept (u : UpdateSequence) (solution : Option Solution) : Change :=
  tracked "accept_solution" do
    match solution.filter fun s => !s.isEmpty with
    | none => return (.ok (.failed .emptySolution), u)
    | some s => u.applySolution s

end CausalUpdate.UpdateSequence
