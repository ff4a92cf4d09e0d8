import CausalUpdate.Literal.Basic

/-!
# Clauses and rules

A clause is what a rule says: at most one head, an ordered positive body and an ordered body of
literals negated by default.  A clause without a head is a constraint.  A rule is a clause with an
identifier, which tells rules of a program apart, and a label for display.

Two clauses are *equivalent*, written `≈`, when their heads are equivalent and each of their bodies
holds the same literals; the order and the number of body literals do not matter, and identifiers
and labels are no part of it.
-/

namespace CausalUpdate

/-! ## Clauses -/

structure Clause where
  head : Option Literal := none
  body : List Literal := []
  negBody : List Literal := []
deriving DecidableEq, Repr, Inhabited

namespace Clause

def isConstraint (c : Clause) : Bool :=
  c.head.isNone

/-- The clause has a head and nothing else. -/
def isFact (c : Clause) : Bool :=
  c.head.isSome && c.body.isEmpty && c.negBody.isEmpty

/-- The clause says nothing at all. -/
def isEmpty (c : Clause) : Bool :=
  c.head.isNone && c.body.isEmpty && c.negBody.isEmpty

/-- The literals of both bodies, the positive ones first. -/
def completeBody (c : Clause) : List Literal :=
  c.body ++ c.negBody

/-- The literals of the clause: head, positive body, negative body. -/
def literals (c : Clause) : List Literal :=
  c.head.toList ++ c.completeBody

/-- The number of literals, repetitions included. -/
def literalCount (c : Clause) : Nat :=
  c.literals.length

/-- The clause as it is written, with its terminating dot. -/
def text (c : Clause) : String :=
  let items := c.body.map Literal.text ++ c.negBody.map fun l => "not " ++ l.text
  let body := String.intercalate ", " items
  match c.head with
  | none => ":- " ++ body ++ "."
  | some h => if items.isEmpty then h.text ++ "." else h.text ++ " :- " ++ body ++ "."

/-- The clause with literals appended to its bodies. -/
def extended (c : Clause) (body negBody : List Literal) : Clause :=
  ⟨c.head, c.body ++ body, c.negBody ++ negBody⟩

/-! ## Equivalence -/

/-- Both heads are missing, or they are equivalent. -/
def SameHead : Option Literal → Option Literal → Prop
  | none, none => True
  | some l, some m => l ≈ m
  | _, _ => False

instance : (h k : Option Literal) → Decidable (SameHead h k)
  | none, none => inferInstanceAs (Decidable True)
  | some l, some m => inferInstanceAs (Decidable (l ≈ m))
  | none, some _ => inferInstanceAs (Decidable False)
  | some _, none => inferInstanceAs (Decidable False)

theorem sameHead_equivalence : Equivalence SameHead where
  refl h := by cases h <;> simp [SameHead, Setoid.refl]
  symm {h k} e := by
    cases h <;> cases k <;> simp_all [SameHead]
    exact Setoid.symm e
  trans {h k j} e e' := by
    cases h <;> cases k <;> cases j <;> simp_all [SameHead]
    exact Setoid.trans e e'

/-- Equivalent heads and the same literals in each body. -/
def Equiv (c d : Clause) : Prop :=
  SameHead c.head d.head ∧ Literal.SameSet c.body d.body ∧ Literal.SameSet c.negBody d.negBody

theorem equiv_equivalence : Equivalence Equiv where
  refl c :=
    ⟨sameHead_equivalence.refl c.head, Literal.sameSet_equivalence.refl c.body,
     Literal.sameSet_equivalence.refl c.negBody⟩
  symm h :=
    ⟨sameHead_equivalence.symm h.1, Literal.sameSet_equivalence.symm h.2.1,
     Literal.sameSet_equivalence.symm h.2.2⟩
  trans h k :=
    ⟨sameHead_equivalence.trans h.1 k.1, Literal.sameSet_equivalence.trans h.2.1 k.2.1,
     Literal.sameSet_equivalence.trans h.2.2 k.2.2⟩

instance : Setoid Clause := ⟨Equiv, equiv_equivalence⟩

instance (c d : Clause) : Decidable (c ≈ d) :=
  inferInstanceAs (Decidable (_ ∧ _ ∧ _))

/-- Both clauses have heads, and these are complementary. -/
def Opposed (c d : Clause) : Prop :=
  match c.head, d.head with
  | some l, some m => l.Complementary m
  | _, _ => False

instance (c d : Clause) : Decidable (c.Opposed d) := by
  unfold Opposed
  split <;> infer_instance

/-- The head of the clause is a literal equivalent to this one. -/
def Derives (c : Clause) (l : Literal) : Prop :=
  SameHead c.head (some l)

instance (c : Clause) (l : Literal) : Decidable (c.Derives l) :=
  inferInstanceAs (Decidable (SameHead _ _))

end Clause

/-! ## Rules -/

/-- A clause with a label and an identifier. -/
structure Rule extends Clause where
  label : Int := 0
  id : Int
deriving DecidableEq, Repr, Inhabited

namespace Rule

def withClause (r : Rule) (c : Clause) : Rule :=
  { r with toClause := c }

def withLabel (r : Rule) (label : Int) : Rule :=
  { r with label }

def withId (r : Rule) (id : Int) : Rule :=
  { r with id }

/-- The rule with literals appended to its bodies, under the same identifier and label. -/
def extend (r : Rule) (body negBody : List Literal) : Rule :=
  r.withClause (r.toClause.extended body negBody)

/-- The constant that names the rule inside an update program. -/
def constant (r : Rule) : String :=
  "r" ++ toString r.id

end Rule

end CausalUpdate
