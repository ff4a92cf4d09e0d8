import CausalUpdate.Literal.Basic

/-!
# Answer sets

An answer set is a finite set of literals, no two of them equivalent.  It is listed and written in
the order of the texts of its literals.
-/

namespace CausalUpdate

structure AnswerSet where
  literals : List Literal
  /-- No two literals of the set are equivalent. -/
  distinct : literals.Pairwise fun a b => ¬ a ≈ b

namespace AnswerSet

/-- The set of the literals of a list; of equivalent literals the first is kept. -/
def ofList (ls : List Literal) : AnswerSet :=
  ⟨Literal.distinct ls, Literal.pairwise_distinct ls⟩

def empty : AnswerSet :=
  ⟨[], .nil⟩

instance : Inhabited AnswerSet := ⟨empty⟩

instance : Membership Literal AnswerSet := ⟨fun s l => l.Among s.literals⟩

instance (l : Literal) (s : AnswerSet) : Decidable (l ∈ s) :=
  inferInstanceAs (Decidable (l.Among s.literals))

/-- The two sets hold the same literals. -/
instance : Setoid AnswerSet where
  r s t := Literal.SameSet s.literals t.literals
  iseqv :=
    ⟨fun s => Literal.sameSet_equivalence.refl s.literals, Literal.sameSet_equivalence.symm,
     Literal.sameSet_equivalence.trans⟩

instance (s t : AnswerSet) : Decidable (s ≈ t) :=
  inferInstanceAs (Decidable (Literal.SameSet s.literals t.literals))

theorem mem_ofList {l : Literal} {ls : List Literal} : l ∈ ofList ls ↔ l.Among ls :=
  Literal.among_distinct

def size (s : AnswerSet) : Nat :=
  s.literals.length

/-- The literals in the order of their texts. -/
def sorted (s : AnswerSet) : List Literal :=
  Literal.sortByText s.literals

/-- The texts of the literals in order. -/
def texts (s : AnswerSet) : List String :=
  s.sorted.map Literal.text

/-- The set as it is written, between braces. -/
def text (s : AnswerSet) : String :=
  "\x7b" ++ String.intercalate ", " s.texts ++ "\x7d"

/-- The literals of the set that are among a base. -/
def restrictedTo (s : AnswerSet) (base : List Literal) : AnswerSet :=
  ⟨s.literals.filter fun l => l.Among base, s.distinct.filter _⟩

/-- The number of literals in exactly one of the two sets. -/
def distance (s t : AnswerSet) : Nat :=
  (s.literals.filter fun l => l ∉ t).length + (t.literals.filter fun l => l ∉ s).length

end AnswerSet

end CausalUpdate
