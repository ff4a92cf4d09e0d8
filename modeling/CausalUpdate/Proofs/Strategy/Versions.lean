import CausalUpdate.Proofs.Literal.Text
import CausalUpdate.Strategy.Modifications
import Mathlib.Data.List.Sublists
import Mathlib.Tactic.Common

/-!
# Versions of a rule

A version of a rule has more literals in its bodies than the rule, and one of them stands in the
other body of the rule it was made against, in the same spelling.  The two can then never fire
together, whatever a solver takes for the same atom, and no later extension changes that.

* `Rule.Extends` — more literals in the bodies.
* `Clause.Blocks` — bodies that cannot hold together.
* `IsVersion.extension`, `IsVersion.blocks` — what versions are.
-/

namespace CausalUpdate

/-- The first rule is the second one, possibly with more literals in its bodies. -/
structure Rule.Extends (r q : Rule) : Prop where
  id : r.id = q.id
  head : r.head = q.head
  body : ∀ l ∈ q.body, l ∈ r.body
  negBody : ∀ l ∈ q.negBody, l ∈ r.negBody

lemma Rule.Extends.refl (r : Rule) : r.Extends r :=
  ⟨rfl, rfl, fun _ h => h, fun _ h => h⟩

/-- Literals that are taken in make no rule empty. -/
lemma Rule.Extends.not_isEmpty {r q : Rule} (h : r.Extends q) (nonempty : q.isEmpty = false) :
    r.isEmpty = false := by
  rw [← Bool.not_eq_true]
  intro empty
  simp only [Clause.isEmpty, Bool.and_eq_true, List.isEmpty_iff] at empty
  obtain ⟨⟨head, body⟩, negBody⟩ := empty
  have no_body : q.body = [] :=
    List.eq_nil_iff_forall_not_mem.2 fun l hl => List.not_mem_nil (body ▸ h.body l hl)
  have no_negBody : q.negBody = [] :=
    List.eq_nil_iff_forall_not_mem.2 fun l hl => List.not_mem_nil (negBody ▸ h.negBody l hl)
  rw [Clause.isEmpty, ← h.head, head, no_body, no_negBody] at nonempty
  cases nonempty

/-- A literal stands in the positive body of one clause and in the negative body of the other. -/
def Clause.Blocks (c d : Clause) : Prop :=
  ∃ l, l ∈ c.body ∧ l ∈ d.negBody ∨ l ∈ c.negBody ∧ l ∈ d.body

lemma Clause.Blocks.symm {c d : Clause} (h : c.Blocks d) : d.Blocks c := by
  obtain ⟨l, h⟩ := h
  exact ⟨l, h.symm.imp And.symm And.symm⟩

/-- Rules that cannot fire together cannot do so with more literals in their bodies. -/
lemma Clause.Blocks.of_extends {a a' b b' : Rule} (h : a.Blocks b.toClause) (ha : a'.Extends a)
    (hb : b'.Extends b) : a'.Blocks b'.toClause := by
  obtain ⟨l, ⟨pos, neg⟩ | ⟨neg, pos⟩⟩ := h
  · exact ⟨l, Or.inl ⟨ha.body l pos, hb.negBody l neg⟩⟩
  · exact ⟨l, Or.inr ⟨ha.negBody l neg, hb.body l pos⟩⟩

/-! ## Candidates -/

/-- Of equivalent literals, those of the first list come first. -/
lemma mem_or_not_among_of_mem_distinct {l : Literal} {ls ms : List Literal}
    (h : l ∈ Literal.distinct (ls ++ ms)) : l ∈ ls ∨ ¬ l.Among ls := by
  induction ls with
  | nil => exact Or.inr fun ⟨_, hm, _⟩ => List.not_mem_nil hm
  | cons k ls ih =>
      rcases List.mem_cons.1 h with rfl | h
      · exact Or.inl List.mem_cons_self
      · obtain ⟨hl, different⟩ := List.mem_filter.1 h
        rw [decide_eq_true_eq] at different
        refine (ih hl).imp (List.mem_cons_of_mem _) fun unique => ?_
        rintro ⟨m, hm, e⟩
        rcases List.mem_cons.1 hm with rfl | hm
        · exact different (Setoid.symm e)
        · exact unique ⟨m, hm, e⟩

lemma selections_eq_sublists {α : Type} (as : List α) : selections as = as.sublists := by
  induction as with
  | nil => rfl
  | cons a as ih =>
      rw [selections, ih, List.sublists_cons]
      rfl

lemma mem_selections {α : Type} {as s : List α} : s ∈ selections as ↔ s.Sublist as := by
  rw [selections_eq_sublists, List.mem_sublists]

/-! ## Versions -/

/-- The rule is made from another one by taking in some of the candidates against a clause. -/
def IsVersion (rejected : Rule) (reference : Clause) (r : Rule) : Prop :=
  ∃ s, s ≠ [] ∧ (∀ l ∈ s, l ∈ candidates rejected.toClause reference) ∧
    r = rejected.against reference s

lemma isVersion_of_mem_modifications {rejected r : Rule} {reference : Clause}
    (h : r ∈ modifications rejected reference) : IsVersion rejected reference r := by
  obtain ⟨s, hs, rfl⟩ := List.mem_map.1 (List.mem_mergeSort.1 h)
  obtain ⟨hs, nonempty⟩ := List.mem_filter.1 hs
  exact ⟨s, by simpa using nonempty, fun l hl => (mem_selections.1 hs).subset hl, rfl⟩

/-- The rule is one of the versions that there are of a rule against a clause. -/
def Offered (rejected : Rule) (reference : Clause) (r : Rule) : Prop :=
  r ∈ modifications rejected reference

lemma Offered.isVersion {rejected r : Rule} {reference : Clause}
    (h : Offered rejected reference r) : IsVersion rejected reference r :=
  isVersion_of_mem_modifications h

namespace IsVersion

variable {rejected r : Rule} {reference : Clause}

/-- **A version extends its rule.** -/
lemma extension (h : IsVersion rejected reference r) : r.Extends rejected := by
  obtain ⟨s, -, -, rfl⟩ := h
  exact ⟨rfl, rfl, fun l hl => List.mem_append_left _ hl, fun l hl => List.mem_append_left _ hl⟩

lemma label (h : IsVersion rejected reference r) : r.label = rejected.label := by
  obtain ⟨s, -, -, rfl⟩ := h
  rfl

/-- A version takes in at least one literal that its rule does not mention. -/
lemma takes (h : IsVersion rejected reference r) : ∃ l, ¬ l.Among rejected.completeBody ∧
    (l ∈ r.body ∧ l ∈ reference.negBody ∨ l ∈ r.negBody ∧ l ∈ reference.body) := by
  obtain ⟨s, nonempty, inside, rfl⟩ := h
  obtain ⟨l, hl⟩ := List.exists_mem_of_ne_nil s nonempty
  obtain ⟨candidate, new⟩ := List.mem_filter.1 (inside l hl)
  refine ⟨l, of_decide_eq_true new, ?_⟩
  by_cases among : l.Among reference.body
  · refine Or.inr ⟨List.mem_append_right _ (List.mem_filter.2 ⟨hl, decide_eq_true among⟩), ?_⟩
    exact (mem_or_not_among_of_mem_distinct candidate).resolve_right fun h => h among
  · refine Or.inl ⟨List.mem_append_right _ (List.mem_filter.2 ⟨hl, decide_eq_true among⟩), ?_⟩
    refine (List.mem_append.1 (mem_of_mem_distinct candidate)).resolve_left fun h => ?_
    exact among (Literal.among_of_mem h)

/-- What a version has in its positive body is its rule's, or opposes the clause. -/
lemma mem_body (h : IsVersion rejected reference r) {l : Literal} (hl : l ∈ r.body) :
    l ∈ rejected.body ∨ l ∈ reference.negBody := by
  obtain ⟨s, -, inside, rfl⟩ := h
  refine (List.mem_append.1 hl).imp id fun hl => ?_
  obtain ⟨hs, new⟩ := List.mem_filter.1 hl
  have candidate := mem_of_mem_distinct (List.mem_filter.1 (inside l hs)).1
  refine (List.mem_append.1 candidate).resolve_left fun h => ?_
  exact (of_decide_eq_true new) (Literal.among_of_mem h)

/-- What a version has in its negative body is its rule's, or opposes the clause. -/
lemma mem_negBody (h : IsVersion rejected reference r) {l : Literal} (hl : l ∈ r.negBody) :
    l ∈ rejected.negBody ∨ l ∈ reference.body := by
  obtain ⟨s, -, inside, rfl⟩ := h
  refine (List.mem_append.1 hl).imp id fun hl => ?_
  obtain ⟨hs, among⟩ := List.mem_filter.1 hl
  have candidate := (List.mem_filter.1 (inside l hs)).1
  exact (mem_or_not_among_of_mem_distinct candidate).resolve_right fun h =>
    h (of_decide_eq_true among)

/-- **A version cannot fire together with what it was made against.** -/
theorem blocks (h : IsVersion rejected reference r) : r.Blocks reference := by
  obtain ⟨l, -, both⟩ := h.takes
  exact ⟨l, both⟩

/-- A version brings in no literals but those of the bodies it was made against. -/
lemma mem_literals (h : IsVersion rejected reference r) {l : Literal} (hl : l ∈ r.literals) :
    l ∈ rejected.literals ∨ l ∈ reference.literals := by
  have head := h.extension.head
  simp only [Clause.literals, Clause.completeBody, List.mem_append] at hl ⊢
  rcases hl with hl | hl | hl
  · exact Or.inl (Or.inl (head ▸ hl))
  · exact (h.mem_body hl).imp (fun h => Or.inr (Or.inl h)) fun h => Or.inr (Or.inr h)
  · exact (h.mem_negBody hl).imp (fun h => Or.inr (Or.inr h)) fun h => Or.inr (Or.inl h)

end IsVersion

end CausalUpdate
