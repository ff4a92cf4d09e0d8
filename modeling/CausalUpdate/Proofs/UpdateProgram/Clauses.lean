import CausalUpdate.Proofs.StableModel.Basic
import CausalUpdate.Proofs.UpdateProgram.Vocabulary

/-!
# The clauses of an update program

`UpdateClause` lists what an update program says, one constructor for every kind of clause, and the
lemmas on heads say which clauses derive a given literal.  The update program itself leaves out
clauses that are equivalent to earlier ones; for clean programs such clauses repeat each other, so
that the solver's models are those of all clauses (`isStable_updateProgram_iff`).
-/

namespace CausalUpdate

/-! ## Kinds of clauses -/

/-- A clause of the update program of two programs. -/
inductive UpdateClause (mark : Mark) (older newer : Program) : Clause → Prop
  | constraint {p : Program} {r : Rule} (hp : p ∈ [older, newer]) (hr : r ∈ p.rules)
      (hc : r.head = none) : UpdateClause mark older newer r.toClause
  | older {a : Rule} {h : Literal} (ha : a ∈ older.rules) (head : a.head = some h) :
      UpdateClause mark older newer
        ⟨some (h.withSuffix olderSuffix), a.body, a.negBody ++ [a.rejected mark]⟩
  | newer {b : Rule} {h : Literal} (hb : b ∈ newer.rules) (head : b.head = some h) :
      UpdateClause mark older newer ⟨some (h.withSuffix newerSuffix), b.body, b.negBody⟩
  | active {b : Rule} {h : Literal} (hb : b ∈ newer.rules) (head : b.head = some h) :
      UpdateClause mark older newer ⟨some (b.active mark), b.body, b.negBody⟩
  | cause {a b : Rule} (ha : a ∈ older.rules) (hb : b ∈ newer.rules)
      (opposed : a.Opposed b.toClause) :
      UpdateClause mark older newer
        ⟨some (a.rejectedBy mark b), a.body ++ [b.active mark], a.negBody⟩
  | rejected {a b : Rule} (ha : a ∈ older.rules) (hb : b ∈ newer.rules)
      (opposed : a.Opposed b.toClause) :
      UpdateClause mark older newer ⟨some (a.rejected mark), [a.rejectedBy mark b], []⟩
  | copyNewer {l : Literal} (hl : l ∈ Program.literalBase [older, newer]) :
      UpdateClause mark older newer
        ⟨some (l.withSuffix olderSuffix), [l.withSuffix newerSuffix], []⟩
  | copyOlder {l : Literal} (hl : l ∈ Program.literalBase [older, newer]) :
      UpdateClause mark older newer ⟨some l, [l.withSuffix olderSuffix], []⟩

lemma mem_constraintClauses {p : Program} {c : Clause} :
    c ∈ constraintClauses p ↔ ∃ r ∈ p.rules, r.head = none ∧ r.toClause = c := by
  simp [constraintClauses, Clause.isConstraint, and_assoc]

lemma mem_olderClauses {mark : Mark} {a : Rule} {c : Clause} :
    c ∈ olderClauses mark a ↔ ∃ h, a.head = some h ∧
      c = ⟨some (h.withSuffix olderSuffix), a.body, a.negBody ++ [a.rejected mark]⟩ := by
  unfold olderClauses
  split <;> simp_all

lemma mem_newerClauses {mark : Mark} {b : Rule} {c : Clause} :
    c ∈ newerClauses mark b ↔ ∃ h, b.head = some h ∧
      (c = ⟨some (h.withSuffix newerSuffix), b.body, b.negBody⟩ ∨
        c = ⟨some (b.active mark), b.body, b.negBody⟩) := by
  unfold newerClauses
  split <;> simp_all

lemma mem_opposedPairs {older newer : Program} {a b : Rule} :
    (a, b) ∈ opposedPairs older newer ↔
      a ∈ older.rules ∧ b ∈ newer.rules ∧ a.Opposed b.toClause := by
  simp [opposedPairs]

/-- **The update program says what the constructors list.** -/
theorem mem_updateClauses {mark : Mark} {older newer : Program} {c : Clause} :
    c ∈ updateClauses mark older newer ↔ UpdateClause mark older newer c := by
  simp only [updateClauses, List.mem_append, List.mem_flatMap, Prod.exists, mem_constraintClauses,
    mem_olderClauses, mem_newerClauses, mem_opposedPairs, rejectionClauses, copyClauses,
    List.mem_cons, List.not_mem_nil, or_false]
  constructor
  · rintro (((((⟨r, hr, hc, rfl⟩ | ⟨r, hr, hc, rfl⟩) | ⟨a, ha, h, head, rfl⟩) |
      ⟨b, hb, h, head, rfl | rfl⟩) | ⟨a, b, ⟨ha, hb, opposed⟩, rfl | rfl⟩) | ⟨l, hl, rfl | rfl⟩)
    · exact .constraint (by simp) hr hc
    · exact .constraint (by simp) hr hc
    · exact .older ha head
    · exact .newer hb head
    · exact .active hb head
    · exact .cause ha hb opposed
    · exact .rejected ha hb opposed
    · exact .copyNewer hl
    · exact .copyOlder hl
  · rintro (⟨hp, hr, hc⟩ | ⟨ha, head⟩ | ⟨hb, head⟩ | ⟨hb, head⟩ | ⟨ha, hb, opposed⟩ |
      ⟨ha, hb, opposed⟩ | hl | hl)
    · rcases List.mem_cons.1 hp with rfl | hp
      · exact Or.inl (Or.inl (Or.inl (Or.inl (Or.inl ⟨_, hr, hc, rfl⟩))))
      · rw [List.mem_singleton.1 hp] at hr
        exact Or.inl (Or.inl (Or.inl (Or.inl (Or.inr ⟨_, hr, hc, rfl⟩))))
    · exact Or.inl (Or.inl (Or.inl (Or.inr ⟨_, ha, _, head, rfl⟩)))
    · exact Or.inl (Or.inl (Or.inr ⟨_, hb, _, head, Or.inl rfl⟩))
    · exact Or.inl (Or.inl (Or.inr ⟨_, hb, _, head, Or.inr rfl⟩))
    · exact Or.inl (Or.inr ⟨_, _, ⟨ha, hb, opposed⟩, Or.inl rfl⟩)
    · exact Or.inl (Or.inr ⟨_, _, ⟨ha, hb, opposed⟩, Or.inr rfl⟩)
    · exact Or.inr ⟨_, hl, Or.inl rfl⟩
    · exact Or.inr ⟨_, hl, Or.inr rfl⟩

/-- Clauses with complementary heads have heads. -/
lemma Clause.Opposed.heads {c d : Clause} (h : c.Opposed d) :
    ∃ l m, c.head = some l ∧ d.head = some m ∧ l.Complementary m := by
  unfold Clause.Opposed at h
  split at h
  · rename_i l m hl hm
    exact ⟨l, m, hl, hm, h⟩
  · exact h.elim

lemma Clause.opposed_of_heads {c d : Clause} {l m : Literal} (hl : c.head = some l)
    (hm : d.head = some m) (h : l.Complementary m) : c.Opposed d := by
  rw [Clause.Opposed, hl, hm]
  exact h

lemma Literal.Complementary.symm {l m : Literal} (h : l.Complementary m) : m.Complementary l :=
  ⟨Setoid.symm h.1, h.2.symm⟩

lemma Clause.Opposed.symm {c d : Clause} (h : c.Opposed d) : d.Opposed c := by
  obtain ⟨l, m, hl, hm, complementary⟩ := h.heads
  exact opposed_of_heads hm hl complementary.symm

/-! ## What derives a literal -/

namespace UpdateClause

variable {mark : Mark} {older newer : Program} {c : Clause} {l : Literal}

/-- What is said of rules is derived by clauses of three kinds only. -/
lemma of_isReserved (wf : WellFormed mark [older, newer]) (hc : UpdateClause mark older newer c)
    (head : c.head = some l) (reserved : l.IsReserved mark) :
    (∃ b ∈ newer.rules, ∃ h, b.head = some h ∧ l = b.active mark ∧
      c = ⟨some (b.active mark), b.body, b.negBody⟩) ∨
    (∃ a ∈ older.rules, ∃ b ∈ newer.rules, a.Opposed b.toClause ∧ l = a.rejectedBy mark b ∧
      c = ⟨some (a.rejectedBy mark b), a.body ++ [b.active mark], a.negBody⟩) ∨
    ∃ a ∈ older.rules, ∃ b ∈ newer.rules, a.Opposed b.toClause ∧ l = a.rejected mark ∧
      c = ⟨some (a.rejected mark), [a.rejectedBy mark b], []⟩ := by
  cases hc with
  | constraint hp hr hnone => simp [hnone] at head
  | older _ _ => cases head; exact absurd reserved (by simp)
  | newer _ _ => cases head; exact absurd reserved (by simp)
  | @active b h hb hh => cases head; exact Or.inl ⟨b, hb, h, hh, rfl, rfl⟩
  | @cause a b ha hb opposed =>
      cases head; exact Or.inr (Or.inl ⟨a, ha, b, hb, opposed, rfl, rfl⟩)
  | @rejected a b ha hb opposed =>
      cases head; exact Or.inr (Or.inr ⟨a, ha, b, hb, opposed, rfl, rfl⟩)
  | copyNewer _ => cases head; exact absurd reserved (by simp)
  | copyOlder hl =>
      cases head
      exact absurd reserved (wf.not_isReserved (mentioned_of_mem_literalBase hl))

/-- A rule is active only because its bodies hold. -/
lemma of_active (wf : WellFormed mark [older, newer]) (hc : UpdateClause mark older newer c)
    (head : c.head = some l) (hl : l.atom.predicate = mark.activePredicate) :
    ∃ b ∈ newer.rules, ∃ h, b.head = some h ∧ l = b.active mark ∧
      c = ⟨some (b.active mark), b.body, b.negBody⟩ := by
  rcases hc.of_isReserved wf head (by simp [Literal.IsReserved, hl]) with
    found | ⟨a, -, b, -, -, rfl, -⟩ | ⟨a, -, b, -, -, rfl, -⟩
  · exact found
  · exact absurd (show mark.causePredicate = mark.activePredicate from hl) mark.active_ne_cause.symm
  · exact absurd (show mark.rejectedPredicate = mark.activePredicate from hl)
      mark.active_ne_rejected.symm

/-- A cause of rejection is two rules with complementary heads. -/
lemma of_cause (wf : WellFormed mark [older, newer]) (hc : UpdateClause mark older newer c)
    (head : c.head = some l) (hl : l.atom.predicate = mark.causePredicate) :
    ∃ a ∈ older.rules, ∃ b ∈ newer.rules, a.Opposed b.toClause ∧ l = a.rejectedBy mark b ∧
      c = ⟨some (a.rejectedBy mark b), a.body ++ [b.active mark], a.negBody⟩ := by
  rcases hc.of_isReserved wf head (by simp [Literal.IsReserved, hl]) with
    ⟨b, -, h, -, rfl, -⟩ | found | ⟨a, -, b, -, -, rfl, -⟩
  · exact absurd (show mark.activePredicate = mark.causePredicate from hl) mark.active_ne_cause
  · exact found
  · exact absurd (show mark.rejectedPredicate = mark.causePredicate from hl) mark.rejected_ne_cause

/-- A rule is rejected only for a cause. -/
lemma of_rejected (wf : WellFormed mark [older, newer]) (hc : UpdateClause mark older newer c)
    (head : c.head = some l) (hl : l.atom.predicate = mark.rejectedPredicate) :
    ∃ a ∈ older.rules, ∃ b ∈ newer.rules, a.Opposed b.toClause ∧ l = a.rejected mark ∧
      c = ⟨some (a.rejected mark), [a.rejectedBy mark b], []⟩ := by
  rcases hc.of_isReserved wf head (by simp [Literal.IsReserved, hl]) with
    ⟨b, -, h, -, rfl, -⟩ | ⟨a, -, b, -, -, rfl, -⟩ | found
  · exact absurd (show mark.activePredicate = mark.rejectedPredicate from hl)
      mark.active_ne_rejected
  · exact absurd (show mark.causePredicate = mark.rejectedPredicate from hl)
      mark.rejected_ne_cause.symm
  · exact found

/-- What the programs mention holds only because it does in the older copy. -/
lemma of_mentioned (clean : Clean mark [older, newer]) (hc : UpdateClause mark older newer c)
    (hl : l ∈ mentioned [older, newer]) (head : c.head = some l) :
    c = ⟨some l, [l.withSuffix olderSuffix], []⟩ := by
  have unreserved := clean.not_isReserved hl
  cases hc with
  | constraint hp hr hnone => simp [hnone] at head
  | older ha hh =>
      exact absurd (Option.some.inj head).symm (clean.ne_older hl (mentioned_head (by simp) ha hh))
  | newer hb hh =>
      exact absurd (Option.some.inj head).symm (clean.ne_newer hl (mentioned_head (by simp) hb hh))
  | active _ _ => cases head; exact absurd (by simp) unreserved
  | cause _ _ _ => cases head; exact absurd (by simp) unreserved
  | rejected _ _ _ => cases head; exact absurd (by simp) unreserved
  | copyNewer hm =>
      exact absurd (Option.some.inj head).symm (clean.ne_older hl (mentioned_of_mem_literalBase hm))
  | copyOlder hm => cases head; rfl

/-- A literal of the older copy holds because of a rule of the older program or because it does in
the newer copy. -/
lemma of_older (clean : Clean mark [older, newer]) (hc : UpdateClause mark older newer c)
    (head : c.head = some (l.withSuffix olderSuffix)) (hl : l ∈ mentioned [older, newer]) :
    (∃ a ∈ older.rules, a.head = some l ∧
      c = ⟨some (l.withSuffix olderSuffix), a.body, a.negBody ++ [a.rejected mark]⟩) ∨
    c = ⟨some (l.withSuffix olderSuffix), [l.withSuffix newerSuffix], []⟩ := by
  have unreserved := l.not_isReserved_older mark
  cases hc with
  | constraint hp hr hnone => simp [hnone] at head
  | @older a h ha hh =>
      obtain rfl := Literal.withSuffix_inj.1 (Option.some.inj head)
      exact Or.inl ⟨a, ha, hh, rfl⟩
  | newer _ _ => exact absurd (Option.some.inj head) (by simp)
  | active _ _ => rw [← Option.some.inj head] at unreserved; exact absurd (by simp) unreserved
  | cause _ _ _ => rw [← Option.some.inj head] at unreserved; exact absurd (by simp) unreserved
  | rejected _ _ _ => rw [← Option.some.inj head] at unreserved; exact absurd (by simp) unreserved
  | copyNewer hm =>
      obtain rfl := Literal.withSuffix_inj.1 (Option.some.inj head)
      exact Or.inr rfl
  | copyOlder hm =>
      exact absurd (Option.some.inj head) (clean.ne_older (mentioned_of_mem_literalBase hm) hl)

/-- A literal of the newer copy holds because of a rule of the newer program. -/
lemma of_newer (clean : Clean mark [older, newer]) (hc : UpdateClause mark older newer c)
    (head : c.head = some (l.withSuffix newerSuffix)) (hl : l ∈ mentioned [older, newer]) :
    ∃ b ∈ newer.rules, b.head = some l ∧
      c = ⟨some (l.withSuffix newerSuffix), b.body, b.negBody⟩ := by
  have unreserved := l.not_isReserved_newer mark
  cases hc with
  | constraint hp hr hnone => simp [hnone] at head
  | older _ _ => exact absurd (Option.some.inj head) (by simp)
  | @newer b h hb hh =>
      obtain rfl := Literal.withSuffix_inj.1 (Option.some.inj head)
      exact ⟨b, hb, hh, rfl⟩
  | active _ _ => rw [← Option.some.inj head] at unreserved; exact absurd (by simp) unreserved
  | cause _ _ _ => rw [← Option.some.inj head] at unreserved; exact absurd (by simp) unreserved
  | rejected _ _ _ => rw [← Option.some.inj head] at unreserved; exact absurd (by simp) unreserved
  | copyNewer hm => exact absurd (Option.some.inj head) (by simp)
  | copyOlder hm =>
      exact absurd (Option.some.inj head) (clean.ne_newer (mentioned_of_mem_literalBase hm) hl)

end UpdateClause

end CausalUpdate
