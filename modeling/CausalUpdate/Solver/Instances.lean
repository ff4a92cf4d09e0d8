import CausalUpdate.Solver.Matching
import CausalUpdate.Solver.Reading
import CausalUpdate.Solver.Simplified
import CausalUpdate.StableModel.Basic

/-!
# Instances of rules

A rule with variables stands for all rules that come from it by putting ground terms for its
variables.  Of these only such matter whose positive body can be derived at all, and they are found
by walking along the body: every atom is matched with the atoms that may hold, and a match binds the
variables for the atoms behind it.

A part that stands for anything is a variable of its own.  Only in the functions of a default
negation it is none: there it means that nothing at all holds.

A rule with a senseless term in it stands for no rules at all, whatever else is wrong with it.

* `Schema` — a rule with variables.
* `Schema.simplified?` — the rule with simplified terms.
* `Schema.isSafe` — every variable of the rule is bound by its positive body.
* `Schema.instances` — the instances of a rule with positive bodies from a list of atoms.
* `reachable` — the atoms that may hold.
-/

namespace CausalUpdate

open Term

/-! ## Rules with variables -/

/-- A rule whose atoms have variables. -/
structure Schema where
  head : Option Term
  body : List Term
  negBody : List Term

/-- Every way of reading an optional literal. -/
def readHead? : Option Literal → Option (List (Option Term))
  | none => some [none]
  | some l => l.read?.map fun terms => terms.map some

/-- The rules that a clause stands for, if its text can be read. -/
def Clause.schemas? (c : Clause) : Option (List Schema) := do
  let heads ← readHead? c.head
  let bodies ← c.body.mapM Literal.read?
  let negBodies ← c.negBody.mapM Literal.read?
  return heads.flatMap fun head =>
    (choices bodies).flatMap fun body => (choices negBodies).map fun negBody =>
      { head, body, negBody }

/-- The rules that a program stands for, if its text can be read. -/
def Program.schemas? (p : Program) : Option (List Schema) :=
  (p.rules.mapM fun (r : Rule) => r.toClause.schemas?).map List.flatten

namespace Schema

/-- The rule with simplified terms, if all of them make sense. -/
def simplified? (s : Schema) : Option Schema := do
  let head ← simplifiedAll? (placedAll false [0] s.head.toList)
  let body ← simplifiedAll? (placedAll false [1] s.body)
  let negBody ← simplifiedAll? (placedAll true [2] s.negBody)
  return { head := head.head?, body, negBody }

/-- Every variable of the rule is bound by its positive body. -/
def isSafe (s : Schema) : Bool :=
  let bound := s.body.flatMap bindable
  let used := (s.head.toList ++ s.body ++ s.negBody).flatMap places
  used.all bound.contains

/-! ## Instances -/

/-- The matches of atoms with known ones, each with the known ones. -/
def matchesFrom (known : List GroundTerm) (f : Found) :
    List Term → List (Found × List GroundTerm)
  | [] => [(f, [])]
  | t :: ts => known.flatMap fun k =>
    match match? f t k with
    | none => []
    | some f => (matchesFrom known f ts).map fun (f, ks) => (f, k :: ks)

/-- The bindings under which the positive body is among the known atoms, each with these. -/
def bindings (known : List GroundTerm) (s : Schema) : List (Binding × List GroundTerm) :=
  ((matchesFrom known {} s.body).filter fun (f, _) => f.holds).map fun (f, ks) => (f.binding, ks)

/-- The atoms that a default-negated atom is about, for each of its values. -/
def negations (known : List GroundTerm) (b : Binding) (t : Term) : List (List GroundTerm) :=
  (t.patterns b).map fun
    | value g => [g]
    | t => known.filter fun k => (match? {} t k).isSome

/-- The heads of the instances of a rule under a binding. -/
def heads (s : Schema) (b : Binding) : List (Option GroundTerm) :=
  match s.head with
  | none => [none]
  | some t => (t.values b).map some

/-- The instances of a rule whose positive body is among the known atoms. -/
def instances (known : List GroundTerm) (s : Schema) : List GroundRule :=
  (s.bindings known).flatMap fun (b, body) =>
    (s.heads b).flatMap fun head =>
      (choices (s.negBody.map (negations known b))).map fun negBody =>
        { head := head.map GroundTerm.text
          pos := body.map GroundTerm.text
          neg := negBody.flatten.map GroundTerm.text }

end Schema

/-! ## Reachable atoms -/

/-- The atoms without those that are written like an earlier one. -/
def distinctTerms : List GroundTerm → List GroundTerm
  | [] => []
  | t :: ts => t :: (distinctTerms ts).filter fun u => !(u == t)

/-- The heads of instances that are not known yet. -/
def newHeads (rules : List Schema) (known : List GroundTerm) : List GroundTerm :=
  let heads := rules.flatMap fun s =>
    (s.bindings known).flatMap fun (b, _) => (s.heads b).filterMap id
  distinctTerms (heads.filter fun t => !known.contains t)

/-- The known atoms and those that follow from them in so many rounds, negation apart. -/
def reachable (rules : List Schema) : (rounds : Nat) → List GroundTerm → List GroundTerm
  | 0, known => known
  | rounds + 1, known =>
    match newHeads rules known with
    | [] => known
    | heads => reachable rules rounds (known ++ heads)

/-- The most rounds in which atoms are searched for.  A program whose atoms go on and on has no
instances that could be listed. -/
def roundLimit : Nat := 100000

def instancesOf (rules : List Schema) : List GroundRule :=
  let known := reachable rules roundLimit []
  rules.flatMap fun s => s.instances known

end CausalUpdate
