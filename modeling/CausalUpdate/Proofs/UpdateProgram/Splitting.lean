import CausalUpdate.Proofs.UpdateProgram.CausalRejection

/-!
# Programs that have nothing in common

Clauses that share no predicate with others neither help nor hinder them.  The answer sets of both
together are the unions of an answer set of either, and every answer set of both is put together
in this way.  Nothing is opposed then, so the same holds of the survivors of two programs.

* `ApartClauses` — clauses without a predicate in common.
* `isAnswerSet_append_iff` — the answer sets of such clauses.
* `isAnswerSet_survivors_apart_iff` — the same for two programs of which one comes after the other.
-/

namespace CausalUpdate

/-- No predicate is in both lists of clauses. -/
def ApartClauses (cs ds : List Clause) : Prop :=
  ∀ c ∈ cs, ∀ l ∈ c.literals, ∀ d ∈ ds, ∀ m ∈ d.literals, l.atom.predicate ≠ m.atom.predicate

/-- What a set holds of the predicates of clauses. -/
def heldBy (cs : List Clause) (held : Set Literal) : Set Literal :=
  {l ∈ held | ∃ c ∈ cs, ∃ m ∈ c.literals, m.atom.predicate = l.atom.predicate}

section

variable {cs ds : List Clause} {held xs ys : Set Literal} {c : Clause} {l : Literal}

lemma ApartClauses.symm (h : ApartClauses cs ds) : ApartClauses ds cs :=
  fun d hd m hm c hc l hl e => h c hc l hl d hd m hm e.symm

lemma Clause.mem_literals_of_head (head : c.head = some l) : l ∈ c.literals := by
  simp [Clause.literals, head]

lemma Clause.mem_literals_of_body (h : l ∈ c.completeBody) : l ∈ c.literals := by
  simp [Clause.literals, h]

/-! ## Putting answer sets together -/

/-- What the second clauses derive does not matter to the first ones. -/
lemma ApartClauses.mem_union_iff (apart : ApartClauses cs ds) (answer : IsAnswerSet ds ys)
    (hc : c ∈ cs) (hl : l ∈ c.literals) : l ∈ xs ∪ ys ↔ l ∈ xs := by
  refine or_iff_left fun hy => ?_
  obtain ⟨d, hd, head, -⟩ := answer.mem_iff.1 hy
  exact apart c hc l hl d hd l (d.mem_literals_of_head head) rfl

lemma ApartClauses.holdsIn_union_iff (apart : ApartClauses cs ds) (answer : IsAnswerSet ds ys)
    (hc : c ∈ cs) : c.HoldsIn (xs ∪ ys) ↔ c.HoldsIn xs :=
  Clause.holdsIn_congr fun _ hl => apart.mem_union_iff answer hc (c.mem_literals_of_body hl)

lemma ApartClauses.follows_union (apart : ApartClauses cs ds) (answer : IsAnswerSet ds ys)
    (follows : Follows cs xs l) : Follows (cs ++ ds) (xs ∪ ys) l := by
  refine (follows.congr fun c hc m hm => ?_).mono fun c hc => List.mem_append_left _ hc
  exact (apart.mem_union_iff answer hc
    (c.mem_literals_of_body (List.mem_append_right _ hm))).symm

/-- The literals of two answer sets do not clash, if the clauses have nothing in common. -/
lemma ApartClauses.complement_not_mem (apart : ApartClauses cs ds) (hx : IsAnswerSet cs xs)
    (hy : IsAnswerSet ds ys) (hl : l ∈ xs) : l.complement ∉ xs ∪ ys := by
  rintro (hm | hm)
  · exact hx.consistent l hl hm
  · obtain ⟨c, hc, head, -⟩ := hx.mem_iff.1 hl
    obtain ⟨d, hd, head', -⟩ := hy.mem_iff.1 hm
    exact apart c hc l (c.mem_literals_of_head head) d hd _ (d.mem_literals_of_head head') rfl

/-- **Answer sets of clauses that have nothing in common can be put together.** -/
theorem IsAnswerSet.union (apart : ApartClauses cs ds) (hx : IsAnswerSet cs xs)
    (hy : IsAnswerSet ds ys) : IsAnswerSet (cs ++ ds) (xs ∪ ys) where
  founded l := by
    constructor
    · rintro (hl | hl)
      · exact apart.follows_union hy ((hx.founded l).1 hl)
      · rw [Set.union_comm]
        refine (apart.symm.follows_union hx ((hy.founded l).1 hl)).mono fun c hc => ?_
        exact List.mem_append.2 (List.mem_append.1 hc).symm
    · intro follows
      induction follows with
      | @clause c l mem head pos neg ih =>
          have holds : c.HoldsIn (xs ∪ ys) := ⟨ih, neg⟩
          rcases List.mem_append.1 mem with hc | hd
          · exact Or.inl (hx.mem_iff.2 ⟨c, hc, head, (apart.holdsIn_union_iff hy hc).1 holds⟩)
          · rw [Set.union_comm] at holds
            exact Or.inr (hy.mem_iff.2
              ⟨c, hd, head, (apart.symm.holdsIn_union_iff hx hd).1 holds⟩)
  constraints c mem head holds := by
    rcases List.mem_append.1 mem with hc | hd
    · exact hx.constraints c hc head ((apart.holdsIn_union_iff hy hc).1 holds)
    · rw [Set.union_comm] at holds
      exact hy.constraints c hd head ((apart.symm.holdsIn_union_iff hx hd).1 holds)
  consistent l hl := by
    rcases hl with hl | hl
    · exact apart.complement_not_mem hx hy hl
    · rw [Set.union_comm]
      exact apart.symm.complement_not_mem hy hx hl

/-! ## Taking answer sets apart -/

lemma mem_heldBy_iff (hc : c ∈ cs) (hl : l ∈ c.literals) : l ∈ heldBy cs held ↔ l ∈ held :=
  and_iff_left ⟨c, hc, l, hl, rfl⟩

lemma holdsIn_heldBy_iff (hc : c ∈ cs) : c.HoldsIn (heldBy cs held) ↔ c.HoldsIn held :=
  Clause.holdsIn_congr fun _ hl => mem_heldBy_iff hc (c.mem_literals_of_body hl)

/-- What follows from both and is about the first clauses follows from these. -/
lemma ApartClauses.follows_heldBy (apart : ApartClauses cs ds) (follows : Follows (cs ++ ds) held l)
    (about : ∃ c ∈ cs, ∃ m ∈ c.literals, m.atom.predicate = l.atom.predicate) :
    Follows cs (heldBy cs held) l := by
  induction follows with
  | @clause c l mem head _ neg ih =>
      rcases List.mem_append.1 mem with hc | hd
      · refine .clause hc head (fun m hm => ih m hm ⟨c, hc, m, ?_, rfl⟩) fun m hm hm' => ?_
        · exact c.mem_literals_of_body (List.mem_append_left _ hm)
        · exact neg m hm hm'.1
      · obtain ⟨b, hb, m, hm, e⟩ := about
        exact absurd e (apart b hb m hm c hd l (c.mem_literals_of_head head))

/-- **An answer set of both clauses holds one of the first ones.** -/
theorem IsAnswerSet.heldBy (apart : ApartClauses cs ds) (h : IsAnswerSet (cs ++ ds) held) :
    IsAnswerSet cs (heldBy cs held) where
  founded l := by
    constructor
    · rintro ⟨hl, about⟩
      exact apart.follows_heldBy ((h.founded l).1 hl) about
    · intro follows
      obtain ⟨c, hc, head, -⟩ := follows_iff.1 follows
      refine (mem_heldBy_iff hc (c.mem_literals_of_head head)).2 ((h.founded l).2 ?_)
      refine (follows.congr fun c hc m hm => ?_).mono fun c hc => List.mem_append_left _ hc
      exact mem_heldBy_iff hc (c.mem_literals_of_body (List.mem_append_right _ hm))
  constraints c hc head holds :=
    h.constraints c (List.mem_append_left _ hc) head ((holdsIn_heldBy_iff hc).1 holds)
  consistent l hl hm := h.consistent l hl.1 hm.1

/-- **The answer sets of clauses that have nothing in common** are the unions of an answer set of
either. -/
theorem isAnswerSet_append_iff (apart : ApartClauses cs ds) : IsAnswerSet (cs ++ ds) held ↔
    ∃ xs ys, IsAnswerSet cs xs ∧ IsAnswerSet ds ys ∧ held = xs ∪ ys := by
  constructor
  · intro h
    have swapped : IsAnswerSet (ds ++ cs) held :=
      (isAnswerSet_congr fun c => by simp [or_comm]).1 h
    refine ⟨_, _, h.heldBy apart, swapped.heldBy apart.symm, Set.Subset.antisymm ?_ ?_⟩
    · intro l hl
      obtain ⟨c, hc, head, -⟩ := h.mem_iff.1 hl
      have inside := c.mem_literals_of_head head
      exact (List.mem_append.1 hc).imp (fun hc => (mem_heldBy_iff hc inside).2 hl)
        fun hd => (mem_heldBy_iff hd inside).2 hl
    · rintro l (hl | hl)
      · exact hl.1
      · exact hl.1
  · rintro ⟨xs, ys, hx, hy, rfl⟩
    exact hx.union apart hy

end

/-! ## Two programs -/

/-- **The answer sets of two programs that have nothing in common**, when one of them comes after
the other. -/
theorem isAnswerSet_survivors_apart_iff {older newer : Program} {held : Set Literal}
    (apart : ApartClauses older.clauses newer.clauses) :
    IsAnswerSet (survivors older newer held).clauses held ↔
      ∃ xs ys, IsAnswerSet older.clauses xs ∧ IsAnswerSet newer.clauses ys ∧ held = xs ∪ ys := by
  have unopposed : ∀ a ∈ older.rules, ¬ Overruled newer held a := by
    rintro a ha ⟨b, hb, opposed, -⟩
    obtain ⟨l, m, hl, hm, complementary⟩ := opposed.heads
    exact apart _ (List.mem_map_of_mem ha) l (Clause.mem_literals_of_head hl) _
      (List.mem_map_of_mem hb) m (Clause.mem_literals_of_head hm) complementary.1.1
  rw [← isAnswerSet_append_iff apart]
  refine isAnswerSet_congr fun c => ?_
  rw [mem_survivors, List.mem_append, Program.clauses, Program.clauses, List.mem_map, List.mem_map]
  refine or_congr_left (exists_congr fun a => and_congr_right fun ha => ?_)
  exact and_iff_right (unopposed a ha)

end CausalUpdate
