import CausalUpdate.Proofs.UpdateProgram.CausalRejection

/-!
# Answer sets that are listed

A list of literals makes an answer set if each of them is derived from those before it, nothing else
can be derived, and none of them contradicts another one.  This can be decided, and so can the
question which rules survive in such a set.

* `ListsAnswerSet` — lists that make an answer set.
* `ListsAnswerSet.isAnswerSet`, `isAnswerSet_survivors` — they do.
-/

namespace CausalUpdate

instance (c : Clause) (ls : List Literal) : Decidable (c.HoldsIn {l | l ∈ ls}) :=
  inferInstanceAs (Decidable ((∀ l ∈ c.body, l ∈ ls) ∧ ∀ l ∈ c.negBody, l ∉ ls))

instance (newer : Program) (ls : List Literal) (a : Rule) :
    Decidable (Overruled newer {l | l ∈ ls} a) :=
  inferInstanceAs (Decidable (∃ b ∈ newer.rules,
    a.Opposed b.toClause ∧ a.HoldsIn {l | l ∈ ls} ∧ b.HoldsIn {l | l ∈ ls}))

/-- The clauses derive the literals one after the other, and nothing else. -/
structure ListsAnswerSet (cs : List Clause) (ls : List Literal) : Prop where
  derived : ∀ i (h : i < ls.length), ∃ c ∈ cs, c.head = some ls[i] ∧
    (∀ m ∈ c.body, m ∈ ls.take i) ∧ ∀ m ∈ c.negBody, m ∉ ls
  closed : ∀ c ∈ cs, c.HoldsIn {l | l ∈ ls} → ∃ l ∈ ls, c.head = some l
  consistent : ∀ l ∈ ls, l.complement ∉ ls

lemma listsAnswerSet_def {cs : List Clause} {ls : List Literal} : ListsAnswerSet cs ls ↔
    (∀ i (h : i < ls.length), ∃ c ∈ cs, c.head = some ls[i] ∧ (∀ m ∈ c.body, m ∈ ls.take i) ∧
      ∀ m ∈ c.negBody, m ∉ ls) ∧
    (∀ c ∈ cs, c.HoldsIn {l | l ∈ ls} → ∃ l ∈ ls, c.head = some l) ∧
    ∀ l ∈ ls, l.complement ∉ ls :=
  ⟨fun h => ⟨h.1, h.2, h.3⟩, fun h => ⟨h.1, h.2.1, h.2.2⟩⟩

instance (cs : List Clause) (ls : List Literal) : Decidable (ListsAnswerSet cs ls) :=
  decidable_of_iff _ listsAnswerSet_def.symm

/-- **Lists that the clauses derive make answer sets.** -/
theorem ListsAnswerSet.isAnswerSet {cs : List Clause} {ls : List Literal}
    (h : ListsAnswerSet cs ls) : IsAnswerSet cs {l | l ∈ ls} := by
  have follows : ∀ i (hi : i < ls.length), Follows cs {l | l ∈ ls} ls[i] := by
    intro i
    induction i using Nat.strong_induction_on with
    | _ i ih =>
        intro hi
        obtain ⟨c, hc, head, pos, neg⟩ := h.derived i hi
        refine .clause hc head (fun m hm => ?_) neg
        obtain ⟨j, hj, rfl⟩ := List.mem_take_iff_getElem.1 (pos m hm)
        exact ih j (by omega) (by omega)
  refine ⟨fun l => ⟨fun hl => ?_, fun derived => ?_⟩, fun c hc none holds => ?_, h.consistent⟩
  · obtain ⟨i, hi, rfl⟩ := List.getElem_of_mem hl
    exact follows i hi
  · induction derived with
    | clause hc head _ neg ih =>
        obtain ⟨k, hk, head'⟩ := h.closed _ hc ⟨ih, neg⟩
        rw [head, Option.some.injEq] at head'
        exact head' ▸ hk
  · obtain ⟨l, -, head⟩ := h.closed c hc holds
    rw [none] at head
    cases head

/-- The clauses of the rules that survive among the literals of a list. -/
def survivingClauses (older newer : Program) (ls : List Literal) : List Clause :=
  (older.rules.filter fun a => ¬ Overruled newer {l | l ∈ ls} a).map Rule.toClause ++ newer.clauses

lemma isAnswerSet_survivors {older newer : Program} {ls : List Literal}
    (h : ListsAnswerSet (survivingClauses older newer ls) ls) :
    IsAnswerSet (survivors older newer {l | l ∈ ls}).clauses {l | l ∈ ls} := by
  refine (isAnswerSet_congr fun c => ?_).1 h.isAnswerSet
  rw [mem_survivors]
  simp [survivingClauses, Program.clauses, and_assoc]

end CausalUpdate
