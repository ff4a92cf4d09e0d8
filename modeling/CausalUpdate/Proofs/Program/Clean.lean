import CausalUpdate.Proofs.Literal.Reading
import CausalUpdate.Proofs.Program.Gathering
import CausalUpdate.Proofs.Program.Index
import CausalUpdate.UpdateProgram.Basic

/-!
# Clean programs

The update program writes its own literals next to those of the programs it compares, and tells
literals apart by their texts, where rules are compared by sets of terms.  Programs for which
neither leads to confusion are called clean.

* `WellFormed` — programs that reading and editing give: distinct identifiers, no empty rules,
  literals that can be written in a program text, and no reserved predicates.
* `Clean` — well-formed programs without predicates that look like copies of others, and without
  two ways to write one atom.
* `Coherent` — programs that write equivalent atoms in the same way.
* `Clean.mem_literalBase` — the base of clean programs lists the literals they mention.
-/

namespace CausalUpdate

/-- The literals that rules of the programs mention, repetitions included. -/
def mentioned (ps : List Program) : List Literal :=
  ps.flatMap fun p => p.rules.flatMap fun r => r.literals

lemma mem_mentioned {ps : List Program} {l : Literal} :
    l ∈ mentioned ps ↔ ∃ p ∈ ps, ∃ r ∈ p.rules, l ∈ r.literals := by
  simp [mentioned]

/-- The predicates that a detector with the mark keeps for itself. -/
def Mark.reservedPredicates (mark : Mark) : List String :=
  [mark.rejectedPredicate, mark.causePredicate, mark.activePredicate]

/-- The programs are such as reading and editing give, and use no reserved predicate. -/
structure WellFormed (mark : Mark) (ps : List Program) : Prop where
  ids : ∀ p ∈ ps, p.ids.Nodup
  nonempty : ∀ p ∈ ps, ∀ r ∈ p.rules, r.isEmpty = false
  readable : ∀ l ∈ mentioned ps, l.Readable
  unreserved : ∀ l ∈ mentioned ps, l.atom.predicate ∉ mark.reservedPredicates

/-- The programs are well-formed, no predicate is a copy of another one, and equivalent atoms are
written in the same way. -/
structure Clean (mark : Mark) (ps : List Program) : Prop extends WellFormed mark ps where
  uncopied : ∀ l ∈ mentioned ps, ∀ m ∈ mentioned ps, ∀ suffix ∈ [olderSuffix, newerSuffix],
    l.atom.predicate ≠ m.atom.predicate ++ suffix
  coherent : ∀ l ∈ mentioned ps, ∀ m ∈ mentioned ps, l.atom ≈ m.atom → l.atom = m.atom

/-- The programs write equivalent atoms in the same way. -/
def Coherent (ps : List Program) : Prop :=
  ∀ l ∈ mentioned ps, ∀ m ∈ mentioned ps, l.atom ≈ m.atom → l.atom = m.atom

instance (ps : List Program) : Decidable (Coherent ps) :=
  inferInstanceAs (Decidable (∀ l ∈ mentioned ps, ∀ m ∈ mentioned ps, _ → _))

lemma wellFormed_def {mark : Mark} {ps : List Program} : WellFormed mark ps ↔
    (∀ p ∈ ps, p.ids.Nodup) ∧ (∀ p ∈ ps, ∀ r ∈ p.rules, r.isEmpty = false) ∧
    (∀ l ∈ mentioned ps, l.Readable) ∧
      ∀ l ∈ mentioned ps, l.atom.predicate ∉ mark.reservedPredicates :=
  ⟨fun h => ⟨h.1, h.2, h.3, h.4⟩, fun h => ⟨h.1, h.2.1, h.2.2.1, h.2.2.2⟩⟩

instance (mark : Mark) (ps : List Program) : Decidable (WellFormed mark ps) :=
  decidable_of_iff _ wellFormed_def.symm

lemma clean_def {mark : Mark} {ps : List Program} : Clean mark ps ↔ WellFormed mark ps ∧
    (∀ l ∈ mentioned ps, ∀ m ∈ mentioned ps, ∀ suffix ∈ [olderSuffix, newerSuffix],
      l.atom.predicate ≠ m.atom.predicate ++ suffix) ∧
    ∀ l ∈ mentioned ps, ∀ m ∈ mentioned ps, l.atom ≈ m.atom → l.atom = m.atom :=
  ⟨fun h => ⟨h.1, h.2, h.3⟩, fun h => ⟨h.1, h.2.1, h.2.2⟩⟩

instance (mark : Mark) (ps : List Program) : Decidable (Clean mark ps) :=
  decidable_of_iff _ clean_def.symm

/-- The identifiers of the programs are positive. -/
def Positive (ps : List Program) : Prop :=
  ∀ p ∈ ps, ∀ id ∈ p.ids, 0 < id

lemma Positive.rule {ps : List Program} (h : Positive ps) {p : Program} (hp : p ∈ ps) {r : Rule}
    (hr : r ∈ p.rules) : 0 < r.id :=
  h p hp r.id (List.mem_map_of_mem hr)

/-- The rule and the constant that names it can be written and read again. -/
def Rule.Writable (r : Rule) : Prop :=
  0 ≤ r.id ∧ ∀ l ∈ r.literals, l.Readable

instance (r : Rule) : Decidable r.Writable :=
  inferInstanceAs (Decidable (_ ∧ _))

/-- All rules of the program can be written and read again, and their constants as well. -/
def Program.Writable (p : Program) : Prop :=
  ∀ r ∈ p.rules, r.Writable

instance (p : Program) : Decidable p.Writable :=
  inferInstanceAs (Decidable (∀ r ∈ p.rules, _))

lemma WellFormed.writable {mark : Mark} {ps : List Program} (h : WellFormed mark ps)
    (positive : Positive ps) {p : Program} (hp : p ∈ ps) : p.Writable :=
  fun _ hr => ⟨Int.le_of_lt (positive.rule hp hr), fun l hl =>
    h.readable l (mem_mentioned.2 ⟨p, hp, _, hr, hl⟩)⟩

/-! ## Literals of the programs -/

section

variable {mark : Mark} {ps : List Program} {p : Program} {r : Rule} {l m : Literal}

lemma mentioned_head (hp : p ∈ ps) (hr : r ∈ p.rules) (hl : r.head = some l) : l ∈ mentioned ps :=
  mem_mentioned.2 ⟨p, hp, r, hr, by simp [Clause.literals, hl]⟩

lemma mentioned_body (hp : p ∈ ps) (hr : r ∈ p.rules) (hl : l ∈ r.body) : l ∈ mentioned ps :=
  mem_mentioned.2 ⟨p, hp, r, hr, by simp [Clause.literals, Clause.completeBody, hl]⟩

lemma mentioned_negBody (hp : p ∈ ps) (hr : r ∈ p.rules) (hl : l ∈ r.negBody) :
    l ∈ mentioned ps :=
  mem_mentioned.2 ⟨p, hp, r, hr, by simp [Clause.literals, Clause.completeBody, hl]⟩

/-- Only literals that are mentioned are in the base, each of them up to equivalence. -/
lemma among_literalBase : l.Among (Program.literalBase ps) ↔ l.Among (mentioned ps) := by
  rw [Program.literalBase_eq, Literal.among_distinct, mentioned]

lemma mentioned_of_mem_literalBase (h : l ∈ Program.literalBase ps) : l ∈ mentioned ps := by
  rw [Program.literalBase_eq] at h
  exact mem_of_mem_distinct h

namespace Coherent

/-- Equivalent literals of coherent programs are the same. -/
lemma eq_of_equiv (h : Coherent ps) (hl : l ∈ mentioned ps) (hm : m ∈ mentioned ps) (e : l ≈ m) :
    l = m := by
  have atoms := h l hl m hm e.1
  rcases l with ⟨la, ln⟩
  rcases m with ⟨ma, mn⟩
  simp only at atoms
  rw [atoms, show ln = mn from e.2]

/-- Complementary literals of coherent programs are complements of each other. -/
lemma eq_complement (h : Coherent ps) (hl : l ∈ mentioned ps) (hm : m ∈ mentioned ps)
    (e : l.Complementary m) : m = l.complement := by
  have atoms := h l hl m hm e.1
  have signs := e.2
  rcases l with ⟨la, ln⟩
  rcases m with ⟨ma, mn⟩
  simp only at atoms signs
  rw [← atoms, Literal.complement]
  cases ln <;> cases mn <;> simp_all

end Coherent

namespace Clean

/-- Equivalent literals of clean programs are the same. -/
lemma eq_of_equiv (h : Clean mark ps) (hl : l ∈ mentioned ps) (hm : m ∈ mentioned ps) (e : l ≈ m) :
    l = m :=
  Coherent.eq_of_equiv h.coherent hl hm e

/-- **The base of clean programs lists the literals they mention.** -/
theorem mem_literalBase (h : Clean mark ps) : l ∈ Program.literalBase ps ↔ l ∈ mentioned ps := by
  constructor
  · exact mentioned_of_mem_literalBase
  · intro hl
    obtain ⟨m, hm, e⟩ := among_literalBase.2 (Literal.among_of_mem hl)
    rwa [h.eq_of_equiv hl (mentioned_of_mem_literalBase hm) e]

/-- Complementary literals of clean programs are complements of each other. -/
lemma eq_complement (h : Clean mark ps) (hl : l ∈ mentioned ps) (hm : m ∈ mentioned ps)
    (e : l.Complementary m) : m = l.complement :=
  Coherent.eq_complement h.coherent hl hm e

end Clean

end

end CausalUpdate
