import CausalUpdate.Proofs.Rule.Weight
import CausalUpdate.Proofs.Strategy.Versions

/-!
# Versions up to equivalence

A version may be written in other ways: with its literals in another order, or with their terms in
another order.  It is still heavier than the rule it was made from.  And as long as the rules are
not exclusive with the clause, the versions they have against it tell them apart as well as the
rules themselves do.

* `LikeVersion` — rules that say what a version says.
* `LikeVersion.weight_lt` — versions are heavier than their rules.
* `LikeVersion.equiv_of_equiv`, `LikeVersion.not_equiv_of_free` — what equivalent versions say of
  their rules.
-/

namespace CausalUpdate

/-- The rule says what some version says that is made from a rule against a clause, under the same
identifier. -/
def LikeVersion (rejected : Rule) (reference : Clause) (r : Rule) : Prop :=
  ∃ v, IsVersion rejected reference v ∧ r.id = v.id ∧ v.toClause ≈ r.toClause

variable {rejected rejected' r r' : Rule} {reference : Clause}

lemma IsVersion.like (h : IsVersion rejected reference r) : LikeVersion rejected reference r :=
  ⟨r, h, rfl, Setoid.refl _⟩

lemma IsVersion.weight_lt (h : IsVersion rejected reference r) : rejected.weight < r.weight := by
  have extension := h.extension
  obtain ⟨l, new, both⟩ := h.takes
  have new : ¬ l.Among rejected.body ∧ ¬ l.Among rejected.negBody :=
    ⟨fun ⟨k, hk, e⟩ => new ⟨k, List.mem_append_left _ hk, e⟩,
      fun ⟨k, hk, e⟩ => new ⟨k, List.mem_append_right _ hk, e⟩⟩
  refine Clause.weight_lt (fun l hl => Literal.among_of_mem (extension.body l hl))
    (fun l hl => Literal.among_of_mem (extension.negBody l hl)) ?_
  exact both.imp (fun h => ⟨l, h.1, new.1⟩) fun h => ⟨l, h.1, new.2⟩

/-- Equivalent clauses are both empty or neither is. -/
lemma Clause.isEmpty_congr {c d : Clause} (e : c ≈ d) (nonempty : c.isEmpty = false) :
    d.isEmpty = false := by
  rw [← Bool.not_eq_true] at nonempty ⊢
  refine fun empty => nonempty ?_
  simp only [isEmpty, Bool.and_eq_true, Option.isNone_iff_eq_none, List.isEmpty_iff] at empty ⊢
  obtain ⟨⟨head, body⟩, negBody⟩ := empty
  have none : ∀ {ls ms : List Literal}, Literal.AllAmong ls ms → ms = [] → ls = [] := by
    rintro ls ms sub rfl
    refine List.eq_nil_iff_forall_not_mem.2 fun l hl => ?_
    obtain ⟨k, hk, -⟩ := sub l hl
    exact List.not_mem_nil hk
  refine ⟨⟨?_, none e.2.1.1 body⟩, none e.2.2.1 negBody⟩
  have heads := e.1
  rw [head] at heads
  cases h : c.head with
  | none => rfl
  | some l =>
      rw [h] at heads
      exact heads.elim

/-- Equivalent clauses have the same literals. -/
lemma Clause.allAmong_literals {c d : Clause} (e : c ≈ d) :
    Literal.AllAmong c.literals d.literals := by
  intro l hl
  simp only [literals, completeBody, List.mem_append, Option.mem_toList] at hl
  have body : Literal.AllAmong d.body d.literals := fun k hk =>
    Literal.among_of_mem (by simp [literals, completeBody, hk])
  have negBody : Literal.AllAmong d.negBody d.literals := fun k hk =>
    Literal.among_of_mem (by simp [literals, completeBody, hk])
  rcases hl with hl | hl | hl
  · have heads := e.1
    rw [hl] at heads
    cases h : d.head with
    | none =>
        rw [h] at heads
        exact heads.elim
    | some k =>
        rw [h] at heads
        exact ⟨k, by simp [literals, h], heads⟩
  · exact body.among (e.2.1.1 l hl)
  · exact negBody.among (e.2.2.1 l hl)

/-- It does not matter to exclusion how a clause is written. -/
lemma Exclusive.of_equiv {c d d' : Clause} (h : Exclusive c d) (e : d ≈ d') : Exclusive c d' := by
  rcases h with ⟨l, hl, clash⟩ | ⟨l, hl, meet⟩ | ⟨l, hl, meet⟩
  · exact Or.inl ⟨l, hl, e.2.1.1.among clash⟩
  · exact Or.inr (Or.inl ⟨l, hl, e.2.2.1.among meet⟩)
  · exact Or.inr (Or.inr ⟨l, hl, e.2.1.1.among meet⟩)

namespace LikeVersion

lemma of_equiv (h : LikeVersion rejected reference r) (id : r'.id = r.id)
    (e : r.toClause ≈ r'.toClause) : LikeVersion rejected reference r' := by
  obtain ⟨v, version, id', e'⟩ := h
  exact ⟨v, version, id.trans id', Setoid.trans e' e⟩

lemma id (h : LikeVersion rejected reference r) : r.id = rejected.id := by
  obtain ⟨v, version, id, -⟩ := h
  exact id.trans version.extension.id

/-- **Versions are heavier than their rules.** -/
theorem weight_lt (h : LikeVersion rejected reference r) : rejected.weight < r.weight := by
  obtain ⟨v, version, -, e⟩ := h
  exact Clause.weight_congr e ▸ version.weight_lt

lemma not_isEmpty (h : LikeVersion rejected reference r) (nonempty : rejected.isEmpty = false) :
    r.isEmpty = false := by
  obtain ⟨v, version, -, e⟩ := h
  exact Clause.isEmpty_congr e (version.extension.not_isEmpty nonempty)

/-- Versions bring in no literals but those of the bodies they were made against. -/
lemma among_literals (h : LikeVersion rejected reference r) {l : Literal} (hl : l ∈ r.literals) :
    l.Among (rejected.literals ++ reference.literals) := by
  obtain ⟨v, version, -, e⟩ := h
  obtain ⟨k, hk, e⟩ := Clause.allAmong_literals (Setoid.symm e) l hl
  exact ⟨k, List.mem_append.2 (version.mem_literals hk), e⟩

lemma not_equiv (h : LikeVersion rejected reference r) : ¬ rejected.toClause ≈ r.toClause :=
  fun e => absurd (Clause.weight_congr e) (Nat.ne_of_lt h.weight_lt)

/-- A clause that is not exclusive with the reference clause says what no version says. -/
theorem not_equiv_of_free (h : LikeVersion rejected reference r) {c : Clause}
    (free : ¬ Exclusive reference c) : ¬ c ≈ r.toClause := by
  obtain ⟨v, version, -, e⟩ := h
  intro e'
  have e := Setoid.trans e (Setoid.symm e')
  obtain ⟨l, -, both⟩ := version.takes
  rcases both with ⟨hl, opposed⟩ | ⟨hl, opposed⟩
  · exact free (Or.inr (Or.inr ⟨l, opposed, e.2.1.1 l hl⟩))
  · exact free (Or.inr (Or.inl ⟨l, opposed, e.2.2.1 l hl⟩))

/-- **Rules with equivalent versions are equivalent**, if they are not exclusive with the reference
clause. -/
theorem equiv_of_equiv (h : LikeVersion rejected reference r)
    (h' : LikeVersion rejected' reference r') (free : ¬ Exclusive reference rejected.toClause)
    (free' : ¬ Exclusive reference rejected'.toClause) (e : r.toClause ≈ r'.toClause) :
    rejected.toClause ≈ rejected'.toClause := by
  have half : ∀ {q q' v v' : Rule}, IsVersion q reference v → IsVersion q' reference v' →
      ¬ Exclusive reference q.toClause → v.toClause ≈ v'.toClause →
      Literal.AllAmong q.body q'.body ∧ Literal.AllAmong q.negBody q'.negBody := by
    intro q q' v v' version version' free e
    constructor
    · intro l hl
      obtain ⟨k, hk, e'⟩ := e.2.1.1 l (version.extension.body l hl)
      refine ⟨k, (version'.mem_body hk).resolve_right fun opposed => free ?_, e'⟩
      exact Or.inr (Or.inr ⟨k, opposed, l, hl, Setoid.symm e'⟩)
    · intro l hl
      obtain ⟨k, hk, e'⟩ := e.2.2.1 l (version.extension.negBody l hl)
      refine ⟨k, (version'.mem_negBody hk).resolve_right fun opposed => free ?_, e'⟩
      exact Or.inr (Or.inl ⟨k, opposed, l, hl, Setoid.symm e'⟩)
  obtain ⟨v, version, -, ev⟩ := h
  obtain ⟨v', version', -, ev'⟩ := h'
  have e := Setoid.trans ev (Setoid.trans e (Setoid.symm ev'))
  obtain ⟨body, negBody⟩ := half version version' free e
  obtain ⟨body', negBody'⟩ := half version' version free' (Setoid.symm e)
  refine ⟨?_, ⟨body, body'⟩, negBody, negBody'⟩
  rw [← version.extension.head, ← version'.extension.head]
  exact e.1

end LikeVersion

end CausalUpdate
