import CausalUpdate.Proofs.Detection.Surviving
import CausalUpdate.Proofs.Distance.Metric
import Mathlib.Data.Set.Card

/-!
# Distances between answer sets

How far two lists of answer sets are apart is the least total of all ways to pair them off, and it
depends on nothing but what the sets hold: neither on how the literals of a set are listed nor on
the order of the sets.

* `heldDistance` — the distance of two sets of literals.
* `answerSetDistance_isLeast` — the least total, in terms of what the sets hold.
* `answerSetDistance_congr` — what the distance does not depend on.
-/

namespace CausalUpdate

/-- The literals of the first set that have no equivalent in the second one. -/
def unmatched (xs ys : Set Literal) : Set Literal :=
  {l ∈ xs | ¬ ∃ m ∈ ys, l ≈ m}

/-- The number of literals in one of the two sets that have no equivalent in the other one. -/
noncomputable def heldDistance (xs ys : Set Literal) : Nat :=
  (unmatched xs ys).ncard + (unmatched ys xs).ncard

lemma AnswerSet.length_unmatched (s t : AnswerSet) :
    (s.literals.filter fun l => l ∉ t).length = (unmatched s.held t.held).ncard := by
  have nodup : s.literals.Nodup := by
    refine s.distinct.imp ?_
    rintro l _ different rfl
    exact different (Setoid.refl l)
  have same : unmatched s.held t.held = ↑(s.literals.filter fun l => l ∉ t).toFinset := by
    ext l
    simp only [unmatched, held, Set.mem_ofPred_eq, List.coe_toFinset, List.mem_filter,
      decide_eq_true_eq]
    rfl
  rw [same, Set.ncard_coe_finset, List.toFinset_card_of_nodup (nodup.filter _)]

/-- The distance of answer sets is that of what they hold. -/
lemma AnswerSet.distance_eq (s t : AnswerSet) : s.distance t = heldDistance s.held t.held := by
  rw [distance, heldDistance, length_unmatched, length_unmatched]

variable {before before' after after' : List AnswerSet}

lemma held_padded (n : Nat) (ss : List AnswerSet) : (padded n ss).map AnswerSet.held =
    ss.map AnswerSet.held ++ List.replicate (n - ss.length) ∅ := by
  rw [padded, List.map_append, List.map_replicate]
  congr
  simp [AnswerSet.held, AnswerSet.empty]

/-- **The distance is the least total of pairing off** what the answer sets hold, empty sets
included. -/
theorem answerSetDistance_isLeast (before after : List AnswerSet) :
    IsLeast (assignmentCosts heldDistance
      ((padded (max before.length after.length) before).map AnswerSet.held)
      ((padded (max before.length after.length) after).map AnswerSet.held))
      (answerSetDistance before after) := by
  rw [← assignmentCosts_map AnswerSet.distance_eq]
  exact (isLeast_padded (Nat.le_max_left _ _) (Nat.le_max_right _ _)).2
    (answerSetDistance_isLeast_pairingCosts before after)

/-- **The distance depends on nothing but what the answer sets hold**, in any order. -/
theorem answerSetDistance_congr
    (h : (before.map AnswerSet.held).Perm (before'.map AnswerSet.held))
    (k : (after.map AnswerSet.held).Perm (after'.map AnswerSet.held)) :
    answerSetDistance before after = answerSetDistance before' after' := by
  have length : before.length = before'.length := by simpa using h.length_eq
  have length' : after.length = after'.length := by simpa using k.length_eq
  have least := answerSetDistance_isLeast before' after'
  rw [held_padded, held_padded, ← length, ← length'] at least
  rw [← assignmentCosts_perm (h.append_right _) (k.append_right _) ?_] at least
  · rw [← held_padded, ← held_padded] at least
    exact (answerSetDistance_isLeast before after).unique least
  · simp only [List.length_append, List.length_map, List.length_replicate]
    omega

end CausalUpdate
