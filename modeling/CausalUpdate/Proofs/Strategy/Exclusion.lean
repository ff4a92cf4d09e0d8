import CausalUpdate.Proofs.Literal.Distinct
import CausalUpdate.Strategy.Modifications
import Mathlib.Data.Set.Operations
import Mathlib.Tactic.Common

/-!
# What exclusive clauses exclude

`Exclusive` looks for two body literals that do not go together, one from each clause.  What it
means is said by sets of literals: a set satisfies a clause if it holds the positive body and
nothing of the negative body, where equivalent literals count as the same.  Clauses are exclusive
with themselves if nothing consistent satisfies them, and two clauses that may be satisfied on their
own are exclusive with each other if nothing consistent satisfies both.

* `Literal.Consistent`, `Clause.SatisfiedBy` — consistent sets, and the clauses that they satisfy.
* `satisfiable_iff`, `compatible_iff` — which clauses can be satisfied, alone and together.
* `exclusive_exact` — what it means that rules are exclusive.
-/

namespace CausalUpdate

/-! ## Sets of literals -/

/-- Some literal of the set is equivalent to this one. -/
def Literal.Within (l : Literal) (xs : Set Literal) : Prop :=
  ∃ m ∈ xs, l ≈ m

/-- No two literals of the set are complementary. -/
def Literal.Consistent (xs : Set Literal) : Prop :=
  ∀ l ∈ xs, ∀ m ∈ xs, ¬ l.Complementary m

/-- The set holds the positive body of the clause and nothing of the negative body. -/
def Clause.SatisfiedBy (c : Clause) (xs : Set Literal) : Prop :=
  (∀ l ∈ c.body, l.Within xs) ∧ ∀ l ∈ c.negBody, ¬ l.Within xs

variable {c d : Clause} {ls ms ns : List Literal} {xs : Set Literal}

namespace Literal

lemma Within.of_equiv {l m : Literal} (h : l.Within xs) (e : m ≈ l) : m.Within xs := by
  obtain ⟨k, hk, e'⟩ := h
  exact ⟨k, hk, Setoid.trans e e'⟩

/-- A consistent set does not hold equivalents of two complementary literals. -/
lemma Consistent.not_complementary {l m : Literal} (h : Consistent xs) (hl : l.Within xs)
    (hm : m.Within xs) : ¬ l.Complementary m := by
  obtain ⟨k, hk, e⟩ := hl
  obtain ⟨j, hj, e'⟩ := hm
  rintro ⟨atoms, signs⟩
  refine h k hk j hj ⟨Setoid.trans (Setoid.symm e.1) (Setoid.trans atoms e'.1), ?_⟩
  rwa [← e.2, ← e'.2]

/-! ## Literals of two lists -/

lemma clashing_iff : Clashing ls ms ↔ ∃ l ∈ ls, ∃ m ∈ ms, l.Complementary m := by
  simp only [Clashing, Among, complementary_iff]

lemma clashing_comm : Clashing ls ms ↔ Clashing ms ls := by
  have turned : ∀ {ls ms : List Literal}, Clashing ls ms → Clashing ms ls := by
    intro ls ms h
    obtain ⟨l, hl, m, hm, atoms, signs⟩ := clashing_iff.1 h
    exact clashing_iff.2 ⟨m, hm, l, hl, Setoid.symm atoms, signs.symm⟩
  exact ⟨turned, turned⟩

lemma meeting_comm : Meeting ls ms ↔ Meeting ms ls := by
  have turned : ∀ {ls ms : List Literal}, Meeting ls ms → Meeting ms ls := by
    rintro ls ms ⟨l, hl, m, hm, e⟩
    exact ⟨m, hm, l, hl, Setoid.symm e⟩
  exact ⟨turned, turned⟩

lemma clashing_append_left : Clashing (ls ++ ms) ns ↔ Clashing ls ns ∨ Clashing ms ns := by
  simp only [Clashing, List.mem_append, or_and_right, exists_or]

lemma clashing_append_right : Clashing ls (ms ++ ns) ↔ Clashing ls ms ∨ Clashing ls ns := by
  simp only [Clashing, among_append, and_or_left, exists_or]

lemma meeting_append_left : Meeting (ls ++ ms) ns ↔ Meeting ls ns ∨ Meeting ms ns := by
  simp only [Meeting, List.mem_append, or_and_right, exists_or]

lemma meeting_append_right : Meeting ls (ms ++ ns) ↔ Meeting ls ms ∨ Meeting ls ns := by
  simp only [Meeting, among_append, and_or_left, exists_or]

end Literal

open Literal (Consistent)

/-! ## Exclusive clauses -/

lemma exclusive_comm : Exclusive c d ↔ Exclusive d c := by
  rw [Exclusive, Exclusive, Literal.clashing_comm, @Literal.meeting_comm c.body,
    @Literal.meeting_comm c.negBody, or_comm (a := Literal.Meeting d.negBody c.body)]

lemma Exclusive.symm (h : Exclusive c d) : Exclusive d c :=
  exclusive_comm.1 h

/-- Of a clause that has taken in the bodies of another one, two literals do not go together if this
is so within either of the clauses or between them. -/
lemma exclusive_extended (c d : Clause) :
    Exclusive (c.extended d.body d.negBody) (c.extended d.body d.negBody) ↔
      Exclusive c c ∨ Exclusive d d ∨ Exclusive c d := by
  have clash := @Literal.clashing_comm d.body c.body
  have meet := @Literal.meeting_comm d.body c.negBody
  have meet' := @Literal.meeting_comm d.negBody c.body
  simp only [Exclusive, Clause.extended, Literal.clashing_append_left,
    Literal.clashing_append_right, Literal.meeting_append_left, Literal.meeting_append_right]
  grind

lemma satisfiedBy_extended (c d : Clause) :
    (c.extended d.body d.negBody).SatisfiedBy xs ↔ c.SatisfiedBy xs ∧ d.SatisfiedBy xs := by
  simp only [Clause.SatisfiedBy, Clause.extended, List.forall_mem_append]
  exact and_and_and_comm

/-! ## Satisfied clauses -/

/-- The positive body of a clause that is not exclusive with itself satisfies it. -/
lemma satisfiedBy_body (free : ¬ Exclusive c c) :
    Consistent {l | l ∈ c.body} ∧ c.SatisfiedBy {l | l ∈ c.body} := by
  refine ⟨fun l hl m hm complementary => ?_, fun l hl => ⟨l, hl, Setoid.refl l⟩, fun l hl => ?_⟩
  · exact free (Or.inl (Literal.clashing_iff.2 ⟨l, hl, m, hm, complementary⟩))
  · rintro ⟨m, hm, e⟩
    exact free (Or.inr (Or.inr ⟨l, hl, m, hm, e⟩))

/-- **A clause can be satisfied unless it is exclusive with itself.** -/
theorem satisfiable_iff (c : Clause) :
    (∃ xs, Consistent xs ∧ c.SatisfiedBy xs) ↔ ¬ Exclusive c c := by
  refine ⟨?_, fun free => ⟨_, satisfiedBy_body free⟩⟩
  rintro ⟨xs, consistent, pos, neg⟩
  have apart : ¬ Literal.Meeting c.body c.negBody := by
    rintro ⟨l, hl, m, hm, e⟩
    exact neg m hm ((pos l hl).of_equiv (Setoid.symm e))
  rintro (clash | meet | meet)
  · obtain ⟨l, hl, m, hm, complementary⟩ := Literal.clashing_iff.1 clash
    exact consistent.not_complementary (pos l hl) (pos m hm) complementary
  · exact apart meet
  · exact apart (Literal.meeting_comm.1 meet)

/-- **Two clauses can be satisfied together** if neither of them is exclusive with itself, nor with
the other one. -/
theorem compatible_iff (c d : Clause) :
    (∃ xs, Consistent xs ∧ c.SatisfiedBy xs ∧ d.SatisfiedBy xs) ↔
      ¬ Exclusive c c ∧ ¬ Exclusive d d ∧ ¬ Exclusive c d := by
  have joined := satisfiable_iff (c.extended d.body d.negBody)
  rw [exclusive_extended, not_or, not_or] at joined
  simpa only [satisfiedBy_extended] using joined

/-- **Rules are exclusive exactly if no consistent set of literals satisfies both**, provided that
either of them is satisfied by some consistent set.  Without this proviso nothing consistent
satisfies both of two exclusive rules, either.  It makes no difference which rule comes first. -/
theorem exclusive_exact (q r : Rule) :
    (Exclusive q.toClause r.toClause →
      ∀ xs, Consistent xs → ¬ (q.SatisfiedBy xs ∧ r.SatisfiedBy xs)) ∧
    ((∃ xs, Consistent xs ∧ q.SatisfiedBy xs) → (∃ xs, Consistent xs ∧ r.SatisfiedBy xs) →
      (Exclusive q.toClause r.toClause ↔
        ∀ xs, Consistent xs → ¬ (q.SatisfiedBy xs ∧ r.SatisfiedBy xs))) ∧
    (Exclusive q.toClause r.toClause ↔ Exclusive r.toClause q.toClause) := by
  have together := compatible_iff q.toClause r.toClause
  have sound : Exclusive q.toClause r.toClause →
      ∀ xs, Consistent xs → ¬ (q.SatisfiedBy xs ∧ r.SatisfiedBy xs) :=
    fun exclusive xs consistent both => (together.1 ⟨xs, consistent, both⟩).2.2 exclusive
  refine ⟨sound, fun hq hr => ⟨sound, fun none => ?_⟩, exclusive_comm⟩
  by_contra free
  obtain ⟨xs, consistent, both⟩ :=
    together.2 ⟨(satisfiable_iff _).1 hq, (satisfiable_iff _).1 hr, free⟩
  exact none xs consistent both

/-- A rule that asks for an atom and one that negates it by default, with the terms in another
order. -/
theorem exclusive_exact_order :
    let b : Literal := ⟨⟨"b", []⟩, false⟩
    let q : Rule := { head := some b, body := [⟨⟨"p", ["x", "y"]⟩, false⟩], id := 1 }
    let r : Rule :=
      { head := some b.complement, body := [b], negBody := [⟨⟨"p", ["y", "x"]⟩, false⟩], id := 2 }
    (∃ xs, Consistent xs ∧ q.SatisfiedBy xs) ∧ (∃ xs, Consistent xs ∧ r.SatisfiedBy xs) ∧
      Exclusive q.toClause r.toClause ∧
        ∀ xs, Consistent xs → ¬ (q.SatisfiedBy xs ∧ r.SatisfiedBy xs) := by
  intro b q r
  have hq : ∃ xs, Consistent xs ∧ q.SatisfiedBy xs := (satisfiable_iff _).2 (by decide)
  have hr : ∃ xs, Consistent xs ∧ r.SatisfiedBy xs := (satisfiable_iff _).2 (by decide)
  have exclusive : Exclusive q.toClause r.toClause := by decide
  exact ⟨hq, hr, exclusive, ((exclusive_exact q r).2.1 hq hr).1 exclusive⟩

end CausalUpdate
