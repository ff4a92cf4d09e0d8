import CausalUpdate.Proofs.Detection.Unblocked
import CausalUpdate.Proofs.Solution.Applying

/-!
# Settled pairs

Two rules are settled once they block each other.  A version of one of them, made against the other
one, settles them as soon as it is applied, and nothing that is applied later unsettles them: rules
are only ever extended.  Settled rules are not reported.
-/

namespace CausalUpdate

/-- Among the rules are two with these identifiers, which block each other. -/
def Settled (ps : List Program) (pair : Int × Int) : Prop :=
  ∃ a ∈ rulesOf ps, ∃ b ∈ rulesOf ps, (a.id, b.id) = pair ∧ a.Blocks b.toClause

/-- The solution changes one rule, and all versions that it knows are made against the other one. -/
structure Solution.Rejects (rejected reference : Rule) (s : Solution) : Prop where
  versions : s.Edits (IsVersion rejected reference.toClause)
  one : s.modifications.length = 1

lemma Solution.Rejects.swapped {rejected reference : Rule} {s t : Solution}
    (h : s.Rejects rejected reference) (swapped : s.Swapped t) : t.Rejects rejected reference := by
  obtain ⟨versions, ids⟩ := h.versions.swapped swapped
  refine ⟨versions, ?_⟩
  rw [← List.length_map Rule.id, ids, List.length_map, h.one]

lemma Solution.Rejects.of_sameEdit {rejected reference : Rule} {s t : Solution}
    (h : t.Rejects rejected reference) (same : s.SameEdit t) : s.Rejects rejected reference :=
  ⟨h.versions.of_sameEdit same, by rw [same.modifications, h.one]⟩

section

variable {mark : Mark} {next : Nat} {ps ps' : List Program} {pair : Int × Int} {i j : Int}
  {rejected reference : Rule} {s : Solution} {c : Conflict} {g g' : Ledger}

lemma Settled.symm (h : Settled ps (i, j)) : Settled ps (j, i) := by
  obtain ⟨a, ha, b, hb, e, blocks⟩ := h
  cases e
  exact ⟨b, hb, a, ha, rfl, blocks.symm⟩

/-- **Settled pairs stay settled** as long as rules are only extended. -/
theorem Settled.grown (h : Settled ps pair) (grown : Grown ps ps') : Settled ps' pair := by
  obtain ⟨a, ha, b, hb, e, blocks⟩ := h
  obtain ⟨a', ha', extension⟩ := grown a ha
  obtain ⟨b', hb', extension'⟩ := grown b hb
  exact ⟨a', ha', b', hb', by rw [extension.id, extension'.id, e],
    blocks.of_extends extension extension'⟩

/-- **Settled pairs are not reported.** -/
theorem Settled.unreported (h : Settled ps pair) (live : Live mark next ps)
    (reported : Unblocked ps c) : c.pair ≠ pair := by
  obtain ⟨a, ha, b, hb, rfl, blocks⟩ := h
  intro e
  obtain ⟨ea, eb⟩ := Prod.mk.inj e
  rw [← live.toOrderly.eq_of_id_eq reported.older ha ea,
    ← live.toOrderly.eq_of_id_eq reported.newer hb eb] at blocks
  exact reported.apart blocks

/-- A version of a rule against another one excludes the rule. -/
lemma Solution.Rejects.excludes (h : s.Rejects rejected reference)
    (hrejected : rejected ∈ rulesOf ps) (hreference : reference ∈ rulesOf ps) :
    s.Excludes IsVersion ps reference [rejected] where
  versions := h.versions.imp fun _ version => ⟨rejected, List.mem_cons_self, version⟩
  ids := by
    obtain ⟨v, single⟩ := List.length_eq_one_iff.1 h.one
    have version := h.versions.chosen v (by simp [single])
    rw [single, List.map_singleton, List.map_singleton, version.extension.id]
  against := hreference
  there := List.forall_mem_singleton.2 hrejected
  some := List.cons_ne_nil _ _
  distinct := List.nodup_singleton _
  apart := List.pairwise_singleton _ _

lemma Solution.Rejects.suits (h : s.Rejects rejected reference)
    (hrejected : rejected ∈ rulesOf ps) (hreference : reference ∈ rulesOf ps) :
    Suits IsVersion next ps s :=
  .excludes (h.excludes hrejected hreference)

/-- **A version that is applied settles the two rules.** -/
theorem Solution.Rejects.settles (h : s.Rejects rejected reference) (live : Live mark next ps)
    (hrejected : rejected ∈ rulesOf ps) (hreference : reference ∈ rulesOf ps)
    (run : (s.applyTo ps).run g = (.ok ps', g')) : Settled ps' (rejected.id, reference.id) := by
  have applied := (h.suits hrejected hreference).applied IsVersion.like live.toOrderly run
  -- what has become of the rejected rule is the version
  obtain ⟨v, single⟩ := List.length_eq_one_iff.1 h.one
  have version := h.versions.chosen v (by simp [single])
  have there := applied.like.chosen v (by simp [single])
  obtain ⟨b, hb, extension⟩ := applied.grown live.toOrderly reference hreference
  exact ⟨v, there, b, hb, by rw [version.extension.id, extension.id],
    Clause.Blocks.of_extends (b := reference) version.blocks (.refl v) extension⟩

end

end CausalUpdate
