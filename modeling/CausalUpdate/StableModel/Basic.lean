/-!
# Stable models of ground programs

A ground rule is made of atoms that are told apart by their text; an atom that begins with `-` is
the classical negation of the atom behind the sign, and apart from that an atom of its own.

A set of atoms is a stable model when it holds exactly the atoms that can be derived while default
negation is read off the set itself, violates no constraint, and never holds an atom together with
its classical negation.

* `Derivable` — what follows from the rules, with default negation read off a given set.  For a
  fixed set this is the least model of the reduct.
* `IsStable` — the definition of a stable model.
-/

namespace CausalUpdate

/-- A rule over atoms given by their text; without a head it is a constraint. -/
structure GroundRule where
  head : Option String
  pos : List String
  neg : List String
deriving DecidableEq, Repr

/-- The atom follows from the rules, where a default-negated atom counts as true when `held` does
not hold it. -/
inductive Derivable (rules : List GroundRule) (held : String → Prop) : String → Prop
  /-- The head of a rule follows when its positive body does and no atom of its negative body is
  held. -/
  | rule {r : GroundRule} {a : String} (mem : r ∈ rules) (head : r.head = some a)
      (pos : ∀ b ∈ r.pos, Derivable rules held b) (neg : ∀ b ∈ r.neg, ¬ held b) :
      Derivable rules held a

/-- The body of a rule holds in a set of atoms. -/
def GroundRule.BodyHolds (r : GroundRule) (held : String → Prop) : Prop :=
  (∀ b ∈ r.pos, held b) ∧ ∀ b ∈ r.neg, ¬ held b

/-- The set of atoms is a stable model of the rules. -/
structure IsStable (rules : List GroundRule) (held : String → Prop) : Prop where
  /-- Exactly the derivable atoms are held. -/
  founded : ∀ a, held a ↔ Derivable rules held a
  /-- No constraint has a body that holds. -/
  constraints : ∀ r ∈ rules, r.head = none → ¬ r.BodyHolds held
  /-- No atom is held together with its classical negation. -/
  consistent : ∀ a, ¬ (held a ∧ held ("-" ++ a))

end CausalUpdate
