/-!
# Atoms and literals

An atom is a predicate applied to ground terms; a literal is an atom that may carry classical
negation.  Default negation is no part of a literal: a rule keeps the literals it negates by default
in a body of their own.

There are two ways to compare literals.  Two literals are *equivalent*, written `≈`, when they have
the same sign, the same predicate and the same set of terms, so that `p(a,b)` and `p(b,a)` are
equivalent.  A solver tells literals apart by their *text*, where the order of the terms shows.  The
notions of this library are about equivalence unless they say otherwise.

* `Literal.Among` — some literal of a list is equivalent to this one.
* `Literal.SameSet` — two lists hold the same literals.
* `Literal.distinct` — the first of every class of equivalent literals.
-/

namespace CausalUpdate

/-! ## Atoms -/

/-- A predicate applied to an ordered list of ground terms. -/
structure Atom where
  predicate : String
  terms : List String := []
deriving DecidableEq, Repr, Inhabited

namespace Atom

def arity (a : Atom) : Nat :=
  a.terms.length

/-- The atom as it is written: the terms in their order between parentheses, if there are any. -/
def text (a : Atom) : String :=
  if a.terms.isEmpty then a.predicate
  else a.predicate ++ "(" ++ String.intercalate "," a.terms ++ ")"

/-- The same predicate applied to the same set of terms. -/
def Equiv (a b : Atom) : Prop :=
  a.predicate = b.predicate ∧ (∀ t ∈ a.terms, t ∈ b.terms) ∧ ∀ t ∈ b.terms, t ∈ a.terms

theorem equiv_equivalence : Equivalence Equiv where
  refl _ := ⟨rfl, fun _ h => h, fun _ h => h⟩
  symm h := ⟨h.1.symm, h.2.2, h.2.1⟩
  trans h k :=
    ⟨h.1.trans k.1, fun t ht => k.2.1 t (h.2.1 t ht), fun t ht => h.2.2 t (k.2.2 t ht)⟩

instance : Setoid Atom := ⟨Equiv, equiv_equivalence⟩

instance (a b : Atom) : Decidable (a ≈ b) :=
  inferInstanceAs (Decidable (_ ∧ _ ∧ _))

end Atom

/-! ## Literals -/

/-- An atom with an optional classical negation. -/
structure Literal where
  atom : Atom
  negated : Bool := false
deriving DecidableEq, Repr, Inhabited

namespace Literal

/-- The literal with the opposite sign. -/
def complement (l : Literal) : Literal :=
  ⟨l.atom, !l.negated⟩

/-- The literal with `suffix` behind its predicate. -/
def withSuffix (l : Literal) (suffix : String) : Literal :=
  ⟨⟨l.atom.predicate ++ suffix, l.atom.terms⟩, l.negated⟩

/-- The literal as it is written, with `-` in front of a negated atom. -/
def text (l : Literal) : String :=
  if l.negated then "-" ++ l.atom.text else l.atom.text

/-- Equivalent atoms under the same sign. -/
def Equiv (a b : Literal) : Prop :=
  a.atom ≈ b.atom ∧ a.negated = b.negated

theorem equiv_equivalence : Equivalence Equiv where
  refl a := ⟨Setoid.refl a.atom, rfl⟩
  symm h := ⟨Setoid.symm h.1, h.2.symm⟩
  trans h k := ⟨Setoid.trans h.1 k.1, h.2.trans k.2⟩

instance : Setoid Literal := ⟨Equiv, equiv_equivalence⟩

instance (a b : Literal) : Decidable (a ≈ b) :=
  inferInstanceAs (Decidable (_ ∧ _))

def Complementary (a b : Literal) : Prop :=
  a.atom ≈ b.atom ∧ a.negated ≠ b.negated

instance (a b : Literal) : Decidable (Complementary a b) :=
  inferInstanceAs (Decidable (_ ∧ _))

@[simp] theorem complement_complement (l : Literal) : l.complement.complement = l := by
  simp [complement]

/-- Complementary literals are those that are equivalent once one of them is complemented. -/
theorem complementary_iff {a b : Literal} : Complementary a b ↔ a.complement ≈ b := by
  have sign : a.negated ≠ b.negated ↔ (!a.negated) = b.negated := by
    cases a.negated <;> cases b.negated <;> simp
  exact and_congr_right fun _ => sign

/-! ## Lists of literals as sets -/

/-- Some literal of the list is equivalent to this one. -/
def Among (l : Literal) (ls : List Literal) : Prop :=
  ∃ m ∈ ls, l ≈ m

instance (l : Literal) (ls : List Literal) : Decidable (l.Among ls) :=
  inferInstanceAs (Decidable (∃ m ∈ ls, l ≈ m))

/-- Every literal of the first list is among the second. -/
def AllAmong (ls ms : List Literal) : Prop :=
  ∀ l ∈ ls, l.Among ms

instance (ls ms : List Literal) : Decidable (AllAmong ls ms) :=
  inferInstanceAs (Decidable (∀ l ∈ ls, l.Among ms))

/-- The two lists hold the same literals. -/
def SameSet (ls ms : List Literal) : Prop :=
  AllAmong ls ms ∧ AllAmong ms ls

instance (ls ms : List Literal) : Decidable (SameSet ls ms) :=
  inferInstanceAs (Decidable (_ ∧ _))

theorem among_of_mem {l : Literal} {ls : List Literal} (h : l ∈ ls) : l.Among ls :=
  ⟨l, h, Setoid.refl l⟩

theorem among_congr {l m : Literal} {ls : List Literal} (h : l ≈ m) : l.Among ls ↔ m.Among ls :=
  ⟨fun ⟨k, hk, e⟩ => ⟨k, hk, Setoid.trans (Setoid.symm h) e⟩,
   fun ⟨k, hk, e⟩ => ⟨k, hk, Setoid.trans h e⟩⟩

theorem AllAmong.among {l : Literal} {ls ms : List Literal} (h : AllAmong ls ms) (hl : l.Among ls) :
    l.Among ms := by
  obtain ⟨k, hk, e⟩ := hl
  exact (among_congr e).2 (h k hk)

theorem AllAmong.refl (ls : List Literal) : AllAmong ls ls :=
  fun _ h => among_of_mem h

theorem AllAmong.trans {ls ms ns : List Literal} (h : AllAmong ls ms) (k : AllAmong ms ns) :
    AllAmong ls ns :=
  fun l hl => k.among (h l hl)

theorem sameSet_equivalence : Equivalence SameSet where
  refl ls := ⟨.refl ls, .refl ls⟩
  symm h := ⟨h.2, h.1⟩
  trans h k := ⟨h.1.trans k.1, k.2.trans h.2⟩

/-- Every literal that no earlier one is equivalent to, in order. -/
def distinct : List Literal → List Literal
  | [] => []
  | l :: ls => l :: (distinct ls).filter fun m => ¬ l ≈ m

/-- A literal is among the distinct ones exactly when it is among them all. -/
theorem among_distinct {l : Literal} {ls : List Literal} : l.Among (distinct ls) ↔ l.Among ls := by
  induction ls with
  | nil => exact Iff.rfl
  | cons m ls ih =>
    constructor
    · rintro ⟨k, hk, e⟩
      rcases List.mem_cons.1 hk with rfl | hk
      · exact ⟨k, List.mem_cons_self, e⟩
      · obtain ⟨j, hj, e'⟩ := ih.1 ⟨k, (List.mem_filter.1 hk).1, e⟩
        exact ⟨j, List.mem_cons_of_mem _ hj, e'⟩
    · rintro ⟨k, hk, e⟩
      by_cases hm : m ≈ l
      · exact ⟨m, List.mem_cons_self, Setoid.symm hm⟩
      · rcases List.mem_cons.1 hk with rfl | hk
        · exact absurd (Setoid.symm e) hm
        · obtain ⟨j, hj, e'⟩ := ih.2 ⟨k, hk, e⟩
          refine ⟨j, List.mem_cons_of_mem _ (List.mem_filter.2 ⟨hj, ?_⟩), e'⟩
          simpa using fun h => hm (Setoid.trans h (Setoid.symm e'))

/-- No two of the distinct literals are equivalent. -/
theorem pairwise_distinct (ls : List Literal) : (distinct ls).Pairwise fun a b => ¬ a ≈ b := by
  induction ls with
  | nil => exact .nil
  | cons l ls ih =>
    refine .cons ?_ (ih.filter _)
    intro m hm
    simpa using (List.mem_filter.1 hm).2

/-- Some literal of the first list is the complement of one among the second. -/
def Clashing (ls ms : List Literal) : Prop :=
  ∃ l ∈ ls, l.complement.Among ms

instance (ls ms : List Literal) : Decidable (Clashing ls ms) :=
  inferInstanceAs (Decidable (∃ l ∈ ls, l.complement.Among ms))

/-- Some literal is among both lists. -/
def Meeting (ls ms : List Literal) : Prop :=
  ∃ l ∈ ls, l.Among ms

instance (ls ms : List Literal) : Decidable (Meeting ls ms) :=
  inferInstanceAs (Decidable (∃ l ∈ ls, l.Among ms))

/-- The number of literals in exactly one of two sets, each given by a list that may repeat. -/
def setDistance (ls ms : List Literal) : Nat :=
  ((distinct ls).filter fun l => ¬ l.Among ms).length +
    ((distinct ms).filter fun m => ¬ m.Among ls).length

/-- Literals in the order of their texts. -/
def sortByText (ls : List Literal) : List Literal :=
  ls.mergeSort fun a b => a.text ≤ b.text

end Literal

end CausalUpdate
