import CausalUpdate.Proofs.Distance.Assignment
import Mathlib.Data.List.ReduceOption

/-!
# Pairing off some of the items

An assignment pairs off all items of two lists that have the same length.  Lists of any lengths can
be paired off in part: an item that stays alone has a cost of its own.  The two come to the same if
a pair never costs more than its items would alone.  Then it only takes enough blanks at the end of
either list for the least cost of an assignment to be the least cost of pairing off.

* `pairingCosts` — the costs of all ways to pair off some of the items.
* `extended`, `costOrAlone` — lists with blanks, and their costs.
* `isLeast_pairingCosts` — pairing off in part is an assignment with blanks.
-/

namespace CausalUpdate

variable {α β : Type} {cost : α → β → Nat} {alone : α → Nat} {alone' : β → Nat} {as : List α}
  {bs : List β} {j k n : Nat}

/-- What it costs to pair off some items of the first list with some of the second one.  Every item
is in one pair or stays alone. -/
def pairingCosts (cost : α → β → Nat) (alone : α → Nat) (alone' : β → Nat) (as : List α)
    (bs : List β) : Set Nat :=
  {n | ∃ (pairs : List (α × β)) (xs : List α) (ys : List β),
    (pairs.map Prod.fst ++ xs).Perm as ∧ (pairs.map Prod.snd ++ ys).Perm bs ∧
      n = (pairs.map fun p => cost p.1 p.2).sum + (xs.map alone).sum + (ys.map alone').sum}

lemma alone_left_mem {a : α} (h : n ∈ pairingCosts cost alone alone' as bs) :
    alone a + n ∈ pairingCosts cost alone alone' (a :: as) bs := by
  obtain ⟨pairs, xs, ys, first, second, rfl⟩ := h
  refine ⟨pairs, a :: xs, ys, List.perm_middle.trans (first.cons a), second, ?_⟩
  rw [List.map_cons, List.sum_cons]
  omega

lemma alone_right_mem {b : β} (h : n ∈ pairingCosts cost alone alone' as bs) :
    alone' b + n ∈ pairingCosts cost alone alone' as (b :: bs) := by
  obtain ⟨pairs, xs, ys, first, second, rfl⟩ := h
  refine ⟨pairs, xs, b :: ys, first, List.perm_middle.trans (second.cons b), ?_⟩
  rw [List.map_cons, List.sum_cons]
  omega

lemma pair_mem {a : α} {b : β} (h : n ∈ pairingCosts cost alone alone' as bs) :
    cost a b + n ∈ pairingCosts cost alone alone' (a :: as) (b :: bs) := by
  obtain ⟨pairs, xs, ys, first, second, rfl⟩ := h
  refine ⟨(a, b) :: pairs, xs, ys, first.cons a, second.cons b, ?_⟩
  simp only [List.map_cons, List.sum_cons]
  omega

/-- **The order of the items does not matter.** -/
theorem pairingCosts_perm {as' : List α} {bs' : List β} (ha : as.Perm as') (hb : bs.Perm bs') :
    pairingCosts cost alone alone' as bs = pairingCosts cost alone alone' as' bs' := by
  ext n
  constructor
  · rintro ⟨pairs, xs, ys, first, second, sum⟩
    exact ⟨pairs, xs, ys, first.trans ha, second.trans hb, sum⟩
  · rintro ⟨pairs, xs, ys, first, second, sum⟩
    exact ⟨pairs, xs, ys, first.trans ha.symm, second.trans hb.symm, sum⟩

/-- **It does not matter which list comes first.** -/
theorem pairingCosts_comm : pairingCosts cost alone alone' as bs =
    pairingCosts (fun b a => cost a b) alone' alone bs as := by
  have sub : ∀ {α β : Type} {cost : α → β → Nat} {alone : α → Nat} {alone' : β → Nat} {as bs},
      pairingCosts cost alone alone' as bs ⊆
        pairingCosts (fun b a => cost a b) alone' alone bs as := by
    rintro α β cost alone alone' as bs _ ⟨pairs, xs, ys, first, second, rfl⟩
    refine ⟨pairs.map Prod.swap, ys, xs, ?_, ?_, ?_⟩
    · simpa [Function.comp_def] using second
    · simpa [Function.comp_def] using first
    · rw [List.map_map, Nat.add_right_comm]
      rfl
  exact Set.Subset.antisymm sub sub

/-! ## Blanks -/

/-- The list with blanks at its end. -/
def extended (k : Nat) (as : List α) : List (Option α) :=
  as.map some ++ List.replicate k none

/-- The cost of a pair; with a blank, an item is alone. -/
def costOrAlone (cost : α → β → Nat) (alone : α → Nat) (alone' : β → Nat) :
    Option α → Option β → Nat
  | some a, some b => cost a b
  | some a, none => alone a
  | none, some b => alone' b
  | none, none => 0

@[simp] lemma length_extended (k : Nat) (as : List α) : (extended k as).length = as.length + k := by
  simp [extended]

@[simp] lemma reduceOption_extended (k : Nat) (as : List α) :
    (extended k as).reduceOption = as := by
  simp [extended, List.reduceOption, List.filterMap_map]

lemma extended_append (k : Nat) (as as' : List α) :
    extended k (as ++ as') = as.map some ++ extended k as' := by
  rw [extended, extended, List.map_append, List.append_assoc]

/-- Items and blanks that stand side by side are a way to pair off the items. -/
lemma sum_mem_pairingCosts (cost : α → β → Nat) (alone : α → Nat) (alone' : β → Nat)
    (zs : List (Option α × Option β)) :
    (zs.map fun z => costOrAlone cost alone alone' z.1 z.2).sum ∈
      pairingCosts cost alone alone' (zs.map Prod.fst).reduceOption
        (zs.map Prod.snd).reduceOption := by
  induction zs with
  | nil => exact ⟨[], [], [], .nil, .nil, rfl⟩
  | cons z zs ih =>
      simp only [List.map_cons, List.sum_cons]
      obtain ⟨_ | a, _ | b⟩ := z
      · rwa [costOrAlone, Nat.zero_add]
      · exact alone_right_mem ih
      · exact alone_left_mem ih
      · exact pair_mem ih

lemma assignmentCosts_subset_pairingCosts (same : as.length + j = bs.length + k) :
    assignmentCosts (costOrAlone cost alone alone') (extended j as) (extended k bs) ⊆
      pairingCosts cost alone alone' as bs := by
  rintro _ ⟨cs, perm, rfl⟩
  have length : (extended j as).length = cs.length := by
    rw [perm.length_eq, length_extended, length_extended, same]
  obtain ⟨pairs, xs, ys, first, second, sum⟩ :=
    sum_mem_pairingCosts cost alone alone' ((extended j as).zip cs)
  rw [List.map_fst_zip length.le, reduceOption_extended] at first
  rw [List.map_snd_zip length.ge] at second
  have items : cs.reduceOption.Perm bs := by
    rw [← reduceOption_extended k bs]
    exact perm.filterMap id
  refine ⟨pairs, xs, ys, first, second.trans items, ?_⟩
  rw [← sum, List.zip_eq_zipWith, List.map_zipWith]

/-- Items that are given blanks and each other cost no more than they do alone. -/
lemma sum_zipWith_le (bounded : ∀ a b, cost a b ≤ alone a + alone' b) (as : List (Option α))
    (bs : List (Option β)) :
    (List.zipWith (costOrAlone cost alone alone') as bs).sum ≤
      (as.reduceOption.map alone).sum + (bs.reduceOption.map alone').sum := by
  induction as generalizing bs with
  | nil => exact Nat.zero_le _
  | cons a as ih =>
      cases bs with
      | nil => exact Nat.zero_le _
      | cons b bs =>
          have rest := ih bs
          rcases a with _ | a <;> rcases b with _ | b <;>
            simp only [List.zipWith_cons_cons, List.sum_cons, costOrAlone, List.map_cons,
              List.reduceOption_cons_of_none, List.reduceOption_cons_of_some]
          · omega
          · omega
          · omega
          · have := bounded a b
            omega

lemma exists_assignment_le (bounded : ∀ a b, cost a b ≤ alone a + alone' b)
    (same : as.length + j = bs.length + k) (h : n ∈ pairingCosts cost alone alone' as bs) :
    ∃ m ∈ assignmentCosts (costOrAlone cost alone alone') (extended j as) (extended k bs),
      m ≤ n := by
  obtain ⟨pairs, xs, ys, first, second, rfl⟩ := h
  have reordered : ∀ {α : Type} {as as' : List α} {k : Nat}, as.Perm as' →
      (extended k as).Perm (extended k as') := fun h => (h.map some).append_right _
  rw [assignmentCosts_perm (reordered first.symm) (reordered second.symm) (by simpa using same)]
  refine ⟨_, ⟨_, .refl _, rfl⟩, ?_⟩
  have rest := sum_zipWith_le bounded (extended j xs) (extended k ys)
  rw [reduceOption_extended, reduceOption_extended] at rest
  have paired : List.zipWith (costOrAlone cost alone alone') ((pairs.map Prod.fst).map some)
      ((pairs.map Prod.snd).map some) = pairs.map fun p => cost p.1 p.2 := by
    simp [List.zipWith_map, List.zipWith_self, costOrAlone]
  rw [extended_append, extended_append, List.zipWith_append (by simp), List.sum_append, paired]
  omega

/-- **Pairing off in part is an assignment with blanks.** -/
theorem isLeast_pairingCosts (bounded : ∀ a b, cost a b ≤ alone a + alone' b)
    (same : as.length + j = bs.length + k) :
    IsLeast (pairingCosts cost alone alone' as bs) n ↔
      IsLeast (assignmentCosts (costOrAlone cost alone alone') (extended j as) (extended k bs))
        n := by
  have sub : assignmentCosts (costOrAlone cost alone alone') (extended j as) (extended k bs) ⊆
      pairingCosts cost alone alone' as bs := assignmentCosts_subset_pairingCosts same
  constructor
  · rintro ⟨there, below⟩
    obtain ⟨m, hm, le⟩ := exists_assignment_le bounded same there
    obtain rfl := le.antisymm (below (sub hm))
    exact ⟨hm, fun _ h => below (sub h)⟩
  · rintro ⟨there, below⟩
    refine ⟨sub there, fun _ h => ?_⟩
    obtain ⟨m, hm, le⟩ := exists_assignment_le bounded same h
    exact (below hm).trans le

end CausalUpdate
