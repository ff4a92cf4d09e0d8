import CausalUpdate.Distance.Basic
import CausalUpdate.Proofs.Distance.Pairing
import CausalUpdate.Proofs.Rule.Weight

/-!
# How far lists of answer sets are apart

The distance of two lists is computed with the shorter one padded.  It is the least cost of pairing
off some of their sets, where a set that stays alone counts all its literals.  Padding both lists
further does not change it.  So three lists can be compared at one length, and the distance is a
pseudometric; it overlooks nothing but empty sets and the order of the lists.

* `AnswerSet.distance_triangle`, `AnswerSet.distance_eq_zero_iff` — two sets.
* `isLeast_padded` — padded lists, however long.
* `answerSetDistance_pseudometric` — two lists, or three of them.
-/

namespace CausalUpdate

/-! ## Two sets -/

namespace AnswerSet

open Literal (length_le_of_allAmong)

variable {s t u : AnswerSet}

lemma size_congr (h : s ≈ t) : s.size = t.size :=
  (length_le_of_allAmong s.distinct h.1).antisymm
    (length_le_of_allAmong t.distinct h.2)

lemma distance_comm (s t : AnswerSet) : s.distance t = t.distance s :=
  Nat.add_comm _ _

lemma distance_empty (s : AnswerSet) : s.distance empty = s.size := by
  have all : s.literals.filter (fun l => l ∉ empty) = s.literals :=
    List.filter_eq_self.2 fun l _ => decide_eq_true fun ⟨m, hm, _⟩ => List.not_mem_nil hm
  rw [distance, all]
  rfl

lemma distance_le (s t : AnswerSet) : s.distance t ≤ s.size + t.size :=
  Nat.add_le_add (List.length_filter_le _ _) (List.length_filter_le _ _)

lemma distance_eq_zero_iff : s.distance t = 0 ↔ s ≈ t := by
  simp only [distance, Nat.add_eq_zero_iff, List.length_eq_zero_iff, List.filter_eq_nil_iff,
    decide_eq_true_eq, not_not]
  rfl

/-- What one set has over a third one, it has over the second one or the second one has over the
third one. -/
lemma excess_triangle (s t u : AnswerSet) : (s.literals.filter fun l => l ∉ u).length ≤
    (s.literals.filter fun l => l ∉ t).length + (t.literals.filter fun l => l ∉ u).length := by
  rw [← List.length_append]
  refine length_le_of_allAmong (s.distinct.filter _) fun l hl => ?_
  rw [List.mem_filter, decide_eq_true_eq] at hl
  obtain ⟨hl, outside⟩ := hl
  by_cases inside : l ∈ t
  · obtain ⟨m, hm, e⟩ := inside
    refine ⟨m, List.mem_append_right _ (List.mem_filter.2 ⟨hm, decide_eq_true ?_⟩), e⟩
    exact fun h => outside ((Literal.among_congr e).2 h)
  · refine ⟨l, List.mem_append_left _ (List.mem_filter.2 ⟨hl, decide_eq_true inside⟩), ?_⟩
    exact Setoid.refl l

theorem distance_triangle (s t u : AnswerSet) : s.distance u ≤ s.distance t + t.distance u := by
  have there := excess_triangle s t u
  have back := excess_triangle u t s
  simp only [distance]
  omega

end AnswerSet

/-! ## Padded lists -/

variable {A B C : List AnswerSet} {length n : Nat}

lemma length_padded (h : A.length ≤ length) : (padded length A).length = length := by
  simp [padded, h]

/-- A blank stands for an empty set. -/
lemma padded_eq (length : Nat) (A : List AnswerSet) : padded length A =
    (extended (length - A.length) A).map fun o => o.getD .empty := by
  rw [padded, extended, List.map_append, List.map_map, List.map_replicate]
  simp [Function.comp_def]

lemma distance_getD (o p : Option AnswerSet) : (o.getD .empty).distance (p.getD .empty) =
    costOrAlone AnswerSet.distance AnswerSet.size AnswerSet.size o p := by
  rcases o with _ | s <;> rcases p with _ | t
  · rfl
  · exact (AnswerSet.distance_comm _ _).trans t.distance_empty
  · exact s.distance_empty
  · rfl

/-- What it costs to pair off some of the answer sets of two lists.  A pair counts the literals in
which its sets differ, and a set that stays alone counts all its literals. -/
abbrev AnswerSet.pairingCosts (A B : List AnswerSet) : Set Nat :=
  CausalUpdate.pairingCosts AnswerSet.distance AnswerSet.size AnswerSet.size A B

/-- **Pairing off is an assignment of padded lists**, however long these are. -/
theorem isLeast_padded (hA : A.length ≤ length) (hB : B.length ≤ length) :
    IsLeast (assignmentCosts AnswerSet.distance (padded length A) (padded length B)) n ↔
      IsLeast (AnswerSet.pairingCosts A B) n := by
  rw [padded_eq, padded_eq, ← assignmentCosts_map fun o p => (distance_getD o p).symm]
  exact (isLeast_pairingCosts AnswerSet.distance_le (by omega)).symm

lemma answerSetDistance_isLeast_pairingCosts (A B : List AnswerSet) :
    IsLeast (AnswerSet.pairingCosts A B) (answerSetDistance A B) := by
  have hA := Nat.le_max_left A.length B.length
  have hB := Nat.le_max_right A.length B.length
  exact (isLeast_padded hA hB).1
    (assignmentCost_isLeast ((length_padded hA).trans (length_padded hB).symm))

/-! ## Three lists -/

/-- Going over a third list is no shorter. -/
lemma sum_zipWith_distance_le (as bs cs : List AnswerSet) (same : as.length = bs.length) :
    (List.zipWith AnswerSet.distance as cs).sum ≤
      (List.zipWith AnswerSet.distance as bs).sum +
        (List.zipWith AnswerSet.distance bs cs).sum := by
  induction as generalizing bs cs with
  | nil => exact Nat.zero_le _
  | cons a as ih =>
      obtain ⟨b, bs, rfl⟩ := List.exists_cons_of_length_eq_add_one same.symm
      cases cs with
      | nil => exact Nat.zero_le _
      | cons c cs =>
          have first := AnswerSet.distance_triangle a b c
          have rest := ih bs cs (Nat.succ.inj same)
          simp only [List.zipWith_cons_cons, List.sum_cons]
          omega

lemma answerSetDistance_triangle (A B C : List AnswerSet) :
    answerSetDistance A C ≤ answerSetDistance A B + answerSetDistance B C := by
  -- all three lists are padded to one length, and the assignments are put one after the other
  obtain ⟨length, hA, hB, hC⟩ : ∃ length, A.length ≤ length ∧ B.length ≤ length ∧
      C.length ≤ length := ⟨A.length + B.length + C.length, by omega, by omega, by omega⟩
  obtain ⟨⟨bs, permB, sumB⟩, -⟩ :=
    (isLeast_padded hA hB).2 (answerSetDistance_isLeast_pairingCosts A B)
  obtain ⟨there, -⟩ := (isLeast_padded hB hC).2 (answerSetDistance_isLeast_pairingCosts B C)
  rw [assignmentCosts_perm permB.symm (.refl _)
    ((length_padded hB).trans (length_padded hC).symm)] at there
  obtain ⟨cs, permC, sumC⟩ := there
  have bound := ((isLeast_padded hA hC).2 (answerSetDistance_isLeast_pairingCosts A C)).2
    ⟨cs, permC, rfl⟩
  rw [← sumB, ← sumC]
  refine bound.trans (sum_zipWith_distance_le _ _ _ ?_)
  rw [length_padded hA, permB.length_eq, length_padded hB]

/-! ## Lists at no distance -/

/-- The lists hold the same sets, but for empty ones, each of them equally often. -/
def SameSets (A B : List AnswerSet) : Prop :=
  ∀ s : AnswerSet, s.size ≠ 0 → A.countP (· ≈ s) = B.countP (· ≈ s)

lemma sameSets_of_zero_mem (h : 0 ∈ AnswerSet.pairingCosts A B) : SameSets A B := by
  obtain ⟨pairs, xs, ys, first, second, sum⟩ := h
  simp only [eq_comm (a := 0), Nat.add_eq_zero_iff, List.sum_eq_zero_iff_forall_eq_nat,
    List.forall_mem_map] at sum
  obtain ⟨⟨paired, left⟩, right⟩ := sum
  intro s nonempty
  have none : ∀ xs : List AnswerSet, (∀ t ∈ xs, t.size = 0) → xs.countP (· ≈ s) = 0 :=
    fun xs empty => List.countP_eq_zero.2 fun t ht e =>
      nonempty ((AnswerSet.size_congr (of_decide_eq_true e)).symm.trans (empty t ht))
  rw [← first.countP_eq, ← second.countP_eq, List.countP_append, List.countP_append, none xs left,
    none ys right, List.countP_map, List.countP_map]
  refine congrArg (· + 0) (List.countP_congr fun p hp => ?_)
  have e := AnswerSet.distance_eq_zero_iff.1 (paired p hp)
  simp only [Function.comp_apply, decide_eq_true_eq]
  exact ⟨fun h => Setoid.trans (Setoid.symm e) h, fun h => Setoid.trans e h⟩

lemma zero_mem_of_sameSets (h : SameSets A B) : 0 ∈ AnswerSet.pairingCosts A B := by
  induction A generalizing B with
  | nil =>
      refine ⟨[], [], B, .nil, .refl _, ?_⟩
      have empty : ∀ t ∈ B, t.size = 0 := fun t ht => by
        by_contra nonempty
        exact List.countP_eq_zero.1 (h t nonempty).symm t ht (decide_eq_true (Setoid.refl t))
      rw [List.map_nil, List.map_nil, List.map_eq_replicate_iff.2 empty]
      simp
  | cons a A ih =>
      by_cases empty : a.size = 0
      · have rest : SameSets A B := fun s nonempty => by
          have other : ¬ a ≈ s := fun e => nonempty ((AnswerSet.size_congr e).symm.trans empty)
          rw [← h s nonempty, List.countP_cons, if_neg (by simpa using other), Nat.add_zero]
        have cost := alone_left_mem (a := a) (ih rest)
        rwa [empty] at cost
      · -- some set of the second list is the partner
        have positive : 0 < B.countP (· ≈ a) := by
          rw [← h a empty]
          exact List.countP_pos_iff.2 ⟨a, List.mem_cons_self, decide_eq_true (Setoid.refl a)⟩
        obtain ⟨b, hb, e⟩ := List.countP_pos_iff.1 positive
        have e : b ≈ a := of_decide_eq_true e
        obtain ⟨front, back, rfl⟩ := List.append_of_mem hb
        have rest : SameSets A (front ++ back) := fun s nonempty => by
          have both : (a ≈ s) = (b ≈ s) :=
            propext ⟨fun h => Setoid.trans e h, fun h => Setoid.trans (Setoid.symm e) h⟩
          have counts := h s nonempty
          rw [List.perm_middle.countP_eq, List.countP_cons, List.countP_cons] at counts
          simpa only [both, Nat.add_right_cancel_iff] using counts
        have cost := pair_mem (a := a) (b := b) (ih rest)
        rw [AnswerSet.distance_eq_zero_iff.2 (Setoid.symm e)] at cost
        rwa [AnswerSet.pairingCosts, pairingCosts_perm (.refl _) List.perm_middle]

/-- **The distance of lists of answer sets** is the least cost of pairing off some of their sets.
It depends neither on the order of the sets nor on which list comes first, and going over a third
list is no shorter.  Lists are at no distance exactly if they hold the same sets, each of them
equally often, but for empty ones. -/
theorem answerSetDistance_pseudometric (A B C : List AnswerSet) :
    IsLeast (AnswerSet.pairingCosts A B) (answerSetDistance A B) ∧
      (∀ A' B', A.Perm A' → B.Perm B' → answerSetDistance A' B' = answerSetDistance A B) ∧
      answerSetDistance A B = answerSetDistance B A ∧
      answerSetDistance A C ≤ answerSetDistance A B + answerSetDistance B C ∧
      (answerSetDistance A B = 0 ↔ SameSets A B) := by
  have least := answerSetDistance_isLeast_pairingCosts
  refine ⟨least A B, fun A' B' hA hB => ?_, ?_, answerSetDistance_triangle A B C, ?_, ?_⟩
  · have least' := least A' B'
    rw [AnswerSet.pairingCosts, ← pairingCosts_perm hA hB] at least'
    exact least'.unique (least A B)
  · have turned : (fun s t : AnswerSet => t.distance s) = AnswerSet.distance :=
      funext₂ fun s t => t.distance_comm s
    have least' := least B A
    rw [AnswerSet.pairingCosts, pairingCosts_comm, turned] at least'
    exact (least A B).unique least'
  · intro zero
    exact sameSets_of_zero_mem (zero ▸ (least A B).1)
  · intro same
    exact Nat.le_zero.1 ((least A B).2 (zero_mem_of_sameSets same))

/-- Two answer sets in either order against one of them. -/
theorem answerSetDistance_pseudometric_uneven :
    let a : AnswerSet := .ofList [⟨⟨"a", []⟩, false⟩]
    let bc : AnswerSet := .ofList [⟨⟨"b", []⟩, false⟩, ⟨⟨"c", []⟩, false⟩]
    [bc, a].Perm [a, bc] ∧ answerSetDistance [a, bc] [a] = answerSetDistance [bc, a] [a] ∧
      answerSetDistance [bc, a] [a] = 2 := by
  intro a bc
  have perm : [bc, a].Perm [a, bc] := .swap a bc []
  obtain ⟨-, reordered, -⟩ := answerSetDistance_pseudometric [bc, a] [a] []
  exact ⟨perm, reordered _ _ perm (.refl _), by decide +kernel⟩

end CausalUpdate
