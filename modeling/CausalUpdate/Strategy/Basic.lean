import CausalUpdate.Conflict.Basic
import CausalUpdate.Program.Edit
import CausalUpdate.Strategy.Modifications

/-!
# Strategies

A strategy looks for solutions of a conflict in a sequence of programs.  There are three methods,
each of which tries both rules of the conflict as the one that is to give way, the older one first.

* `direct` — another version of the rule itself.
* `indirect` — other versions of all rules that derive a literal of its positive body.
* `rejectionRule` — a new rule that derives a literal of its negative body.

`Strategy.apply` adds the solutions to the conflict; the programs stay as they are.
-/

namespace CausalUpdate

inductive StrategyError
  /-- The programs cannot be merged. -/
  | program (error : ProgramError)
  /-- The versions do not make a solution. -/
  | solution (error : SolutionError)
deriving DecidableEq, Repr

def StrategyError.message : StrategyError → String
  | .program e => e.message
  | .solution e => e.message

/-- Merging as a part of a strategy. -/
def mergedPrograms (ps : List Program) : Attempt StrategyError Program :=
  Attempt.adapt .program (Program.merge ps)

/-- Work for every item of a list, with the results that there are. -/
def Attempt.collect {ε α β : Type} (f : α → Attempt ε (Option β)) :
    List α → Attempt ε (List β)
  | [] => pure []
  | a :: as => do
    let b ← f a
    let bs ← Attempt.collect f as
    return b.toList ++ bs

/-! ## Other versions of the rule -/

/-- The solution that gives the rejected rule the version with the most literals. -/
def directSolution? (rejected reference : Rule) : Attempt StrategyError (Option Solution) := do
  match ← findModifications rejected reference.toClause with
  | [] => return none
  | first :: others => do
    let s : Solution := { rootRule := some rejected.id }
    let s ← Attempt.adapt .solution (Attempt.of (s.chooseAmong .modify first others))
    return some s

/-- One solution for either rule, if it has other versions. -/
def directSolutions (c : Conflict) : Attempt StrategyError (List Solution) :=
  Attempt.collect (fun (rejected, reference) => directSolution? rejected reference) c.directions

/-! ## Other versions of rules that derive a body literal -/

/-- The rules that derive a literal and are exclusive with neither rule of the conflict. -/
def dependencies (merged : Program) (c : Conflict) (l : Literal) : List Rule :=
  merged.rules.filter fun r =>
    r.Derives l ∧ ¬ Exclusive c.older.toClause r.toClause ∧ ¬ Exclusive c.newer.toClause r.toClause

/-- The solution with the versions of further rules that exclude a reference clause, unless one of
them has none. -/
def excludeAll (reference : Clause) (l : Literal) (s : Solution) :
    List Rule → Attempt StrategyError (Option Solution)
  | [] => return some s
  | r :: rs => do
    match ← findModifications r reference with
    | [] => do
      Work.note .debug "resolution" s!"Rule {r.id} cannot be disabled, dropping {l.text}"
      return none
    | first :: others => do
      let s ← Attempt.adapt .solution (Attempt.of (s.chooseAmong .modify first others))
      excludeAll reference l s rs

/-- The solution that keeps the rules from deriving a literal, if they can be kept from it. -/
def indirectSolution? (merged : Program) (c : Conflict) (rejected reference : Rule) (l : Literal) :
    Attempt StrategyError (Option Solution) :=
  match dependencies merged c l with
  | [] => return none
  | rs => excludeAll reference.toClause l { rootRule := some rejected.id, target := some l } rs

/-- The literals of a body that are not among the other body, each once. -/
def unsharedLiterals (ls ms : List Literal) : List Literal :=
  (Literal.distinct ls).filter fun l => ¬ l.Among ms

/-- The solutions for the positive body literals of either rule that the other does not share. -/
def indirectSolutions (ps : List Program) (c : Conflict) :
    Attempt StrategyError (List Solution) := do
  let merged ← mergedPrograms ps
  let found ← c.directions.mapM fun (rejected, reference) =>
    Attempt.collect (indirectSolution? merged c rejected reference)
      (unsharedLiterals rejected.body reference.body)
  return found.flatten

/-! ## New rules -/

/-- Some rule derives the complement of a literal, and its bodies may hold together with those of
the reference clause. -/
def Contested (merged : Program) (reference : Clause) (l : Literal) : Prop :=
  ∃ r ∈ merged.rules, r.Derives l.complement ∧ ¬ Exclusive reference r.toClause

instance (merged : Program) (reference : Clause) (l : Literal) :
    Decidable (Contested merged reference l) :=
  inferInstanceAs (Decidable (∃ r ∈ merged.rules, _))

/-- The solution that derives a literal whenever the reference rule is active, unless the literal is
contested. -/
def rejectionSolution? (merged : Program) (rejected reference : Rule) (l : Literal) :
    Attempt StrategyError (Option Solution) :=
  if Contested merged reference.toClause l then return none
  else do
    let label := nextFreeLabel (merged.rules.map Rule.label) merged.size
    let r ← Rule.mint ⟨some l, reference.body, reference.negBody⟩ label
    let s : Solution := { rootRule := some rejected.id, target := some l }
    let s ← Attempt.adapt .solution (Attempt.of (s.choose .add r))
    return some s

/-- The solutions for the negative body literals of either rule that the other does not share. -/
def rejectionSolutions (ps : List Program) (c : Conflict) :
    Attempt StrategyError (List Solution) := do
  let merged ← mergedPrograms ps
  let found ← c.directions.mapM fun (rejected, reference) =>
    Attempt.collect (rejectionSolution? merged rejected reference)
      (unsharedLiterals rejected.negBody reference.negBody)
  return found.flatten

/-! ## Strategies -/

inductive Method
  | direct
  | indirect
  | rejectionRule
deriving DecidableEq, Repr

def Method.name : Method → String
  | .direct => "direct"
  | .indirect => "indirect"
  | .rejectionRule => "rejection_rule"

/-- The solutions that a method finds for a conflict. -/
def Method.solutions (ps : List Program) (c : Conflict) :
    Method → Attempt StrategyError (List Solution)
  | .direct => directSolutions c
  | .indirect => indirectSolutions ps c
  | .rejectionRule => rejectionSolutions ps c

/-- A method together with when it is used. -/
structure Strategy where
  method : Method
  /-- The strategy waits for its user and is not applied of its own accord. -/
  interactive : Bool := false
deriving DecidableEq, Repr

namespace Strategy

/-- All methods, none of them interactive, in the order in which they are applied. -/
def standard : List Strategy :=
  [⟨.direct, false⟩, ⟨.indirect, false⟩, ⟨.rejectionRule, false⟩]

/-- The conflict with the solutions that a strategy finds for it. -/
def apply (s : Strategy) (ps : List Program) (c : Conflict) : Attempt StrategyError Conflict := do
  let found ← s.method.solutions ps c
  Work.note .info "resolution"
    s!"{s.method.name}: {found.length} solution(s) for conflict {c.pairText}"
  return c.addSolutions (found.map fun f => { f with strategy := s.method.name })

/-- The conflict with the solutions of several strategies, applied one after the other. -/
def applyAll (ps : List Program) (c : Conflict) : List Strategy → Attempt StrategyError Conflict
  | [] => pure c
  | s :: rest => do
    let c ← s.apply ps c
    applyAll ps c rest

end Strategy

end CausalUpdate
