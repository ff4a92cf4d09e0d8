import CausalUpdate.Proofs.Rule.Weight
import CausalUpdate.Proofs.Solution.Applying
import Mathlib.Algebra.Order.BigOperators.Group.List
import Mathlib.Algebra.Order.Ring.Nat

/-!
# Progress

Applying a solution makes programs heavier, all in all, and mentions nothing new.  Programs that say
nothing twice can only be so heavy, so that solutions cannot be applied for ever.

* `totalWeight` — the weight of all rules together.
* `Applied.totalWeight_lt` — every solution that is applied adds to it.
* `totalWeight_le` — how heavy programs can be.
-/

namespace CausalUpdate

/-- The weights of all rules of the programs, taken together. -/
def totalWeight (ps : List Program) : Nat :=
  ((rulesOf ps).map fun r => r.weight).sum

/-- How heavy a number of programs can be over a number of literals: each program has not more rules
than there are clauses that differ, and each rule has each of the literals in either body. -/
def weightBound (programs literals : Nat) : Nat :=
  programs * ((literals + 1) * (2 ^ literals * 2 ^ literals) * (1 + 2 * literals))

variable {next : Nat} {ps ps' : List Program} {s : Solution}

lemma totalWeight_cons (p : Program) (ps : List Program) :
    totalWeight (p :: ps) = (p.rules.map fun r => r.weight).sum + totalWeight ps := by
  rw [totalWeight, totalWeight, rulesOf_cons, List.map_append, List.sum_append]

namespace Applied

/-- **Solutions that are applied make programs heavier.** -/
theorem totalWeight_lt (h : Applied LikeVersion next ps s (.ok ps')) (orderly : Orderly next ps) :
    totalWeight ps < totalWeight ps' := by
  cases h with
  | modified versions fresh =>
      have distinct : (s.modifications.map Rule.id).Nodup := versions.ids ▸ versions.distinct
      have one : ∀ q ∈ rulesOf ps, q.weight ≤ (q.updated s.modifications).weight ∧
          (q.updated s.modifications ∈ s.modifications →
            q.weight < (q.updated s.modifications).weight) := by
        intro q hq
        have lighter : q.updated s.modifications ∈ s.modifications →
            q.weight < (q.updated s.modifications).weight := by
          intro new
          obtain ⟨r, hr, like⟩ := versions.versions.chosen _ new
          have same : r.id = q.id := like.id.symm.trans (q.id_updated _)
          exact orderly.eq_of_id_eq (versions.there r hr) hq same ▸ like.weight_lt
        refine ⟨?_, lighter⟩
        rcases Rule.updated_cases s.modifications q with ⟨e, -⟩ | ⟨new, -⟩
        · rw [e]
        · exact (lighter new).le
      rw [totalWeight, totalWeight, rulesOf_map_updated, List.map_map]
      obtain ⟨v, hv⟩ := List.exists_mem_of_ne_nil _ versions.changes
      obtain ⟨r, hr, like⟩ := versions.versions.chosen v hv
      refine List.sum_lt_sum _ _ (fun q hq => (one q hq).1) ⟨r, versions.there r hr, ?_⟩
      refine (one r (versions.there r hr)).2 ?_
      rw [Rule.updated_eq distinct hv like.id]
      exact hv
  | @added front p r split addition fresh =>
      subst split
      have positive : 0 < r.weight := by
        rw [Clause.weight]
        omega
      rw [totalWeight, totalWeight, rulesOf_push, List.map_append, List.sum_append]
      simpa using positive

/-- The number of programs stays the same. -/
lemma length_eq (h : Applied LikeVersion next ps s (.ok ps')) : ps'.length = ps.length := by
  cases h with
  | modified _ _ => rw [List.length_map]
  | added split _ _ =>
      subst split
      simp

end Applied

/-! ## The bound -/

/-- There are as many classes as the literal base has literals. -/
lemma card_classes_mentioned (ps : List Program) :
    (Literal.classes (mentioned ps)).card = (Program.literalBase ps).length := by
  rw [Program.literalBase_eq, Literal.card_classes, mentioned]

/-- A program that says nothing twice can only be so heavy. -/
lemma Program.Unrepeated.weight_le {p : Program} {base : List Literal} (h : p.Unrepeated)
    (inside : ∀ r ∈ p.rules, Literal.AllAmong r.literals base) :
    (p.rules.map fun r => r.weight).sum ≤
      ((Literal.classes base).card + 1) *
          (2 ^ (Literal.classes base).card * 2 ^ (Literal.classes base).card) *
        (1 + 2 * (Literal.classes base).card) := by
  have among : ∀ c ∈ p.clauses, Literal.AllAmong c.literals base := by
    intro c hc
    obtain ⟨r, hr, rfl⟩ := List.mem_map.1 hc
    exact inside r hr
  have length := Clause.length_le h among
  rw [Program.clauses, List.length_map] at length
  have weights : ∀ w ∈ p.rules.map fun r => r.weight,
      w ≤ 1 + 2 * (Literal.classes base).card := by
    intro w hw
    obtain ⟨r, hr, rfl⟩ := List.mem_map.1 hw
    exact Clause.weight_le (inside r hr)
  refine (List.sum_le_card_nsmul _ _ weights).trans ?_
  rw [List.length_map, Nat.nsmul_eq_mul]
  exact Nat.mul_le_mul_right _ length

/-- **Programs that say nothing twice can only be so heavy.** -/
theorem totalWeight_le {base : List Literal} (unrepeated : ∀ p ∈ ps, p.Unrepeated)
    (inside : Literal.AllAmong (mentioned ps) base) :
    totalWeight ps ≤ weightBound ps.length (Literal.classes base).card := by
  induction ps with
  | nil => exact Nat.zero_le _
  | cons p ps ih =>
      obtain ⟨first, rest⟩ := List.forall_mem_cons.1 unrepeated
      have among : ∀ r ∈ p.rules, Literal.AllAmong r.literals base := fun r hr l hl =>
        inside l (mem_mentioned.2 ⟨p, List.mem_cons_self, r, hr, hl⟩)
      have heavy := first.weight_le among
      have others := ih rest fun l hl => inside l <| by
        obtain ⟨q, hq, rest⟩ := mem_mentioned.1 hl
        exact mem_mentioned.2 ⟨q, List.mem_cons_of_mem _ hq, rest⟩
      rw [totalWeight_cons, weightBound, List.length_cons, Nat.succ_mul, Nat.add_comm]
      exact Nat.add_le_add others heavy

end CausalUpdate
