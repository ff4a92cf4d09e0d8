import CausalUpdate.AnswerSet.Basic
import CausalUpdate.Distance.Assignment
import CausalUpdate.Program.Basic
import CausalUpdate.Solution.Basic

/-!
# Distances

A solution is scored by how much it changes, in the rules and in the answer sets.

* `Clause.distance` — the literals by which two clauses differ.
* `Solution.ruleDistance` — the literals that a solution changes.
* `answerSetDistance` — the least number of literals by which two lists of answer sets differ when
  their members are paired off; a member without a partner counts all its literals.
-/

namespace CausalUpdate

/-! ## Rules -/

/-- The number of literals by which heads, positive bodies and negative bodies differ as sets. -/
def Clause.distance (c d : Clause) : Nat :=
  Literal.setDistance c.head.toList d.head.toList + Literal.setDistance c.body d.body +
    Literal.setDistance c.negBody d.negBody

/-- The rule with an identifier in the first program that has one. -/
def Program.findAmong? (ps : List Program) (id : Int) : Option Rule :=
  ps.findSome? fun p => p.find? id

/-- The number of literals in several rules. -/
def literalTotal (rs : List Rule) : Nat :=
  rs.foldr (fun r n => r.literalCount + n) 0

/-- The distance between the present version of a rule and a new one. -/
def changeOf? (ps : List Program) (r : Rule) : Option Nat :=
  (Program.findAmong? ps r.id).map fun s => s.toClause.distance r.toClause

/-- The number of literals that a solution changes.  A modified rule that no program has leaves the
distance open. -/
def Solution.ruleDistance (s : Solution) (ps : List Program) : Option Nat :=
  (s.modifications.mapM (changeOf? ps)).map fun changes =>
    literalTotal s.additions + literalTotal s.deletions + changes.foldr (· + ·) 0

/-! ## Answer sets -/

/-- The list with empty answer sets at its end, up to a length. -/
def padded (length : Nat) (ss : List AnswerSet) : List AnswerSet :=
  ss ++ List.replicate (length - ss.length) .empty

/-- The least total distance of pairing off two lists of answer sets, the shorter one padded with
empty answer sets. -/
def answerSetDistance (before after : List AnswerSet) : Nat :=
  let length := max before.length after.length
  assignmentCost AnswerSet.distance (padded length before) (padded length after)

end CausalUpdate
