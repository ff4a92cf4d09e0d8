import CausalUpdate.Proofs.Conflict.Recording
import CausalUpdate.Proofs.UpdateProgram.Models

/-!
# Naming pairs of rules

Of the literals of an update program, the causes of rejection and no others name pairs of rules, as
long as their identifiers can be read.

* `Named` — identifiers that can be read.
* `UpdateLiteral.rules_of_namedPair?` — what a pair that is named says about the literal.
-/

namespace CausalUpdate

/-- The identifiers of the programs can be read as numbers. -/
def Named (ps : List Program) : Prop :=
  ∀ p ∈ ps, ∀ r ∈ p.rules, r.Named

instance (ps : List Program) : Decidable (Named ps) :=
  inferInstanceAs (Decidable (∀ p ∈ ps, ∀ r ∈ p.rules, r.Named))

lemma Named.positive {ps : List Program} (h : Named ps) : Positive ps := by
  intro p hp id hid
  obtain ⟨r, hr, rfl⟩ := List.mem_map.1 hid
  exact (h p hp r hr).1

lemma Program.isSome_find? {p : Program} {r : Rule} (hr : r ∈ p.rules) :
    (p.find? r.id).isSome := by
  rw [find?, List.find?_isSome]
  exact ⟨r, hr, by simp⟩

section

variable {mark : Mark} {older newer : Program} {a b : Rule} {l : Literal}

/-! ## Causes -/

lemma Rule.causePair_rejectedBy (ha : a.Named) (hb : b.Named) :
    (a.rejectedBy mark b).causePair mark = .ok (some (a.id, b.id)) := by
  simp only [Literal.causePair, rejectedBy, ne_eq, not_true_eq_false, decide_false, Bool.or_false,
    Bool.false_eq_true, if_false, readConstant_constant ha, readConstant_constant hb]
  rfl

lemma Rule.namedPair?_rejectedBy (ha : a.Named) (hb : b.Named) :
    (a.rejectedBy mark b).namedPair? mark = some (a.id, b.id) := by
  rw [Literal.namedPair?, causePair_rejectedBy ha hb]
  rfl

/-- If a cause can be read, so can the identifiers of its rules. -/
lemma Rule.named_of_causePair (ha : 0 < a.id) (hb : 0 < b.id) {o : Option (Int × Int)}
    (read : (a.rejectedBy mark b).causePair mark = .ok o) : a.Named ∧ b.Named := by
  simp only [Literal.causePair, rejectedBy, ne_eq, not_true_eq_false, decide_false, Bool.or_false,
    Bool.false_eq_true, if_false] at read
  cases ea : readConstant a.constant.toList with
  | error e =>
      rw [ea] at read
      cases read
  | ok x =>
      cases eb : readConstant b.constant.toList with
      | error e =>
          rw [ea, eb] at read
          cases read
      | ok y => exact ⟨named_of_readConstant ha ea, named_of_readConstant hb eb⟩

lemma Literal.causePair_of_ne (h : l.atom.predicate ≠ mark.causePredicate) :
    l.causePair mark = .ok none := by
  rw [causePair, if_pos (by simp [h])]

lemma Literal.causePair_of_namedPair? {pair : Int × Int} (h : l.namedPair? mark = some pair) :
    l.causePair mark = .ok (some pair) := by
  rw [namedPair?] at h
  cases e : l.causePair mark with
  | error e' =>
      rw [e] at h
      cases h
  | ok o =>
      rw [e] at h
      exact congrArg Except.ok h

/-! ## Literals of an update program -/

/-- The literals of an update program are causes, or name no pair. -/
lemma UpdateLiteral.cause_or_causePair (wf : WellFormed mark [older, newer])
    (h : UpdateLiteral mark older newer l) :
    (∃ a ∈ older.rules, ∃ b ∈ newer.rules, l = a.rejectedBy mark b) ∨
      l.causePair mark = .ok none := by
  have reserved := mark.cause_mem
  cases h with
  | plain hl => exact Or.inr (Literal.causePair_of_ne fun e => wf.unreserved l hl (e ▸ reserved))
  | olderCopy _ =>
      exact Or.inr (Literal.causePair_of_ne fun e =>
        Literal.not_isReserved_older mark _ (e ▸ reserved))
  | newerCopy _ =>
      exact Or.inr (Literal.causePair_of_ne fun e =>
        Literal.not_isReserved_newer mark _ (e ▸ reserved))
  | active _ => exact Or.inr (Literal.causePair_of_ne mark.active_ne_cause)
  | rejected _ => exact Or.inr (Literal.causePair_of_ne mark.rejected_ne_cause)
  | rejectedBy ha hb => exact Or.inl ⟨_, ha, _, hb, rfl⟩

/-- **A pair is named by the cause of its rules.** -/
lemma UpdateLiteral.rules_of_namedPair? (wf : WellFormed mark [older, newer])
    (positive : Positive [older, newer]) (h : UpdateLiteral mark older newer l) {pair : Int × Int}
    (named : l.namedPair? mark = some pair) :
    ∃ a ∈ older.rules, ∃ b ∈ newer.rules, l = a.rejectedBy mark b ∧ pair = (a.id, b.id) := by
  have read := Literal.causePair_of_namedPair? named
  rcases h.cause_or_causePair wf with ⟨a, ha, b, hb, rfl⟩ | none
  · obtain ⟨na, nb⟩ := Rule.named_of_causePair (positive.rule (by simp) ha)
      (positive.rule (by simp) hb) read
    rw [Rule.namedPair?_rejectedBy na nb, Option.some.injEq] at named
    exact ⟨a, ha, b, hb, rfl, named.symm⟩
  · rw [none] at read
    cases read

/-- A pair of identifiers is named by the cause of its rules only, as long as it can be read. -/
lemma UpdateLiteral.namedPair?_eq_some_iff (wf : WellFormed mark [older, newer])
    (positive : Positive [older, newer]) (h : UpdateLiteral mark older newer l)
    (read : ∃ o, l.causePair mark = .ok o) (ha : a ∈ older.rules) (hb : b ∈ newer.rules) :
    l.namedPair? mark = some (a.id, b.id) ↔ l = a.rejectedBy mark b := by
  constructor
  · intro e
    obtain ⟨a', -, b', -, rfl, ids⟩ := h.rules_of_namedPair? wf positive e
    rw [Prod.mk.injEq] at ids
    exact Rule.rejectedBy_inj.2 ⟨ids.1.symm, ids.2.symm⟩
  · rintro rfl
    obtain ⟨o, read⟩ := read
    obtain ⟨na, nb⟩ := Rule.named_of_causePair (positive.rule (by simp) ha)
      (positive.rule (by simp) hb) read
    exact Rule.namedPair?_rejectedBy na nb

/-! ## Sets that are read -/

variable {answerSets : List AnswerSet} {s : AnswerSet}

lemma ReadSets.updateLiteral (h : ReadSets mark older newer answerSets) (hs : s ∈ answerSets)
    (hl : l ∈ s.literals) : UpdateLiteral mark older newer l := by
  obtain ⟨held, answer, represents⟩ := h.read s hs
  exact answer.updateLiteral (represents.sound l hl)

/-- No identifier that a set names is too long. -/
lemma ReadSets.causePair (wf : WellFormed mark [older, newer]) (named : Named [older, newer])
    (h : ReadSets mark older newer answerSets) :
    ∀ s ∈ answerSets, ∀ l ∈ s.literals, ∃ o, l.causePair mark = .ok o := by
  intro s hs l hl
  rcases (h.updateLiteral hs hl).cause_or_causePair wf with ⟨a, ha, b, hb, rfl⟩ | e
  · have na := named older (by simp) a ha
    have nb := named newer (by simp) b hb
    exact ⟨_, Rule.causePair_rejectedBy na nb⟩
  · exact ⟨_, e⟩

end

end CausalUpdate
