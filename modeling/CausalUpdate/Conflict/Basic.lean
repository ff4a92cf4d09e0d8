import CausalUpdate.AnswerSet.Basic
import CausalUpdate.Solution.Basic

/-!
# Conflicts

A conflict is a pair of rules with complementary heads, the older one first, whose bodies hold
together in some answer set.  It carries these answer sets as witnesses, and the solutions that have
been found for it.
-/

namespace CausalUpdate

/-- Two rules that contradict each other. -/
structure Conflict where
  older : Rule
  newer : Rule
  /-- The witnesses. -/
  answerSets : List AnswerSet := []
  solutions : List Solution := []

namespace Conflict

/-- The identifiers of the two rules. -/
def pair (c : Conflict) : Int × Int :=
  (c.older.id, c.newer.id)

/-- The identifiers as they are written. -/
def pairText (c : Conflict) : String :=
  s!"({c.older.id}, {c.newer.id})"

/-- The rule of the conflict that `r` is not. -/
def otherRule (c : Conflict) (r : Rule) : Rule :=
  if r.id = c.older.id then c.newer else c.older

/-- Both ways to look at the conflict: the rule that is to give way, and the other one. -/
def directions (c : Conflict) : List (Rule × Rule) :=
  [(c.older, c.newer), (c.newer, c.older)]

/-- The conflict with one more witness. -/
def addWitness (c : Conflict) (s : AnswerSet) : Conflict :=
  { c with answerSets := c.answerSets ++ [s] }

def addSolutions (c : Conflict) (ss : List Solution) : Conflict :=
  { c with solutions := c.solutions ++ ss }

/-- The conflict as it is written. -/
def text (c : Conflict) : String :=
  c.older.text ++ "  <->  " ++ c.newer.text

end Conflict

end CausalUpdate
