import CausalUpdate.Rule.Basic
import CausalUpdate.Work

/-!
# Versions of a rule that exclude another rule

A rule is kept from firing together with a reference rule by taking the opposite of what the
reference rule asks for into its own bodies: a literal of the positive body under default negation,
a literal of the negative body as it is.  The candidates are the body literals of the reference rule
that the rule does not mention; any non-empty set of them makes a version.

* `Exclusive` — two clauses whose bodies cannot hold together.
* `candidates` — the literals that a version can take in.
* `modifications` — all versions, those with the most literals first.
-/

namespace CausalUpdate

/-- The bodies of the clauses cannot hold together: their positive bodies clash, or one clause
negates by default what the other one asks for. -/
def Exclusive (c d : Clause) : Prop :=
  Literal.Clashing c.body d.body ∨ Literal.Meeting c.body d.negBody ∨
    Literal.Meeting c.negBody d.body

instance (c d : Clause) : Decidable (Exclusive c d) :=
  inferInstanceAs (Decidable (_ ∨ _ ∨ _))

/-! ## Versions -/

/-- The body literals of the reference clause that the rejected one does not mention, each once. -/
def candidates (rejected reference : Clause) : List Literal :=
  (Literal.distinct reference.completeBody).filter fun l => ¬ l.Among rejected.completeBody

/-- All selections from a list, in the order of counting with the first item as the lowest digit. -/
def selections {α : Type} : List α → List (List α)
  | [] => [[]]
  | a :: as => (selections as).flatMap fun s => [s, a :: s]

/-- The rule with a selection of literals taken in against a reference clause. -/
def Rule.against (r : Rule) (reference : Clause) (selection : List Literal) : Rule :=
  r.extend (selection.filter fun l => ¬ l.Among reference.body)
    (selection.filter fun l => l.Among reference.body)

/-- The versions of a rule that exclude a reference clause, those with the most literals first. -/
def modifications (rejected : Rule) (reference : Clause) : List Rule :=
  let chosen := (selections (candidates rejected.toClause reference)).filter fun s => !s.isEmpty
  (chosen.map fun s => rejected.against reference s).mergeSort fun a b =>
    b.literalCount ≤ a.literalCount

/-- Compute the versions of a rule and write down how many there are. -/
def findModifications (rejected : Rule) (reference : Clause) : Work (List Rule) := do
  let versions := modifications rejected reference
  let count := (candidates rejected.toClause reference).length
  Work.note .debug "resolution"
    s!"Rule {rejected.id}: {versions.length} modification(s) from {count} candidate literal(s)"
  return versions

end CausalUpdate
