import CausalUpdate.Distance.Assignment
import Mathlib.Algebra.BigOperators.Group.List.Basic
import Mathlib.Algebra.GroupWithZero.Nat
import Mathlib.Algebra.Ring.Int.Defs
import Mathlib.Data.List.Perm.Basic
import Mathlib.Order.Bounds.Basic
import Mathlib.Tactic.Common

/-!
# The least cost of an assignment

Between lists of the same length, the cost that is computed is the least one of all assignments, no
matter whether the search has found it or every assignment was looked at.  So it depends neither on
how the search goes nor on the order of the lists.

* `assignmentCosts` — the costs of all assignments.
* `leastCost_isLeast`, `Assignment.Optimal.isLeast` — either way leads to the least one.
* `assignmentCost_isLeast` — what is computed.
* `assignmentCosts_map`, `assignmentCosts_perm` — what the costs do not depend on.
-/

namespace CausalUpdate

variable {α β γ δ : Type} {cost : α → β → Nat} {as as' : List α} {bs bs' cs : List β}

/-- What the assignments of the items of the second list to those of the first one cost.  An
assignment is an order of the second list. -/
def assignmentCosts (cost : α → β → Nat) (as : List α) (bs : List β) : Set Nat :=
  {n | ∃ cs : List β, cs.Perm bs ∧ (List.zipWith cost as cs).sum = n}

/-! ## All assignments -/

/-- Picking an item takes it out. -/
lemma perm_of_mem_picks {b : β} {rest : List β} (h : (b, rest) ∈ picks bs) :
    (b :: rest).Perm bs := by
  induction bs generalizing rest with
  | nil => exact absurd h List.not_mem_nil
  | cons c bs ih =>
      rcases List.mem_cons.1 h with e | h
      · cases e
        exact .refl _
      · obtain ⟨⟨_, rest⟩, hr, e⟩ := List.mem_map.1 h
        cases e
        exact (List.Perm.swap c b rest).trans ((ih hr).cons c)

/-- Every item can be picked. -/
lemma exists_mem_picks {b : β} (h : b ∈ bs) : ∃ rest, (b, rest) ∈ picks bs := by
  induction bs with
  | nil => exact absurd h List.not_mem_nil
  | cons c bs ih =>
      rcases List.mem_cons.1 h with rfl | h
      · exact ⟨bs, List.mem_cons_self⟩
      · obtain ⟨rest, hr⟩ := ih h
        exact ⟨c :: rest, List.mem_cons_of_mem _ (List.mem_map_of_mem hr)⟩

/-- **Looking at every assignment gives the least cost.** -/
theorem leastCost_isLeast (enough : as.length ≤ bs.length) :
    IsLeast (assignmentCosts cost as bs) (leastCost cost as bs) := by
  induction as generalizing bs with
  | nil => exact ⟨⟨bs, .refl _, rfl⟩, fun n _ => Nat.zero_le n⟩
  | cons a as ih =>
      have fewer : ∀ {b rest}, (b, rest) ∈ picks bs → as.length ≤ rest.length := fun h => by
        have length := (perm_of_mem_picks h).length_eq
        simp only [List.length_cons] at length enough
        omega
      have step : leastCost cost (a :: as) bs =
          ((picks bs).map fun c => cost a c.1 + leastCost cost as c.2).min?.getD 0 := rfl
      obtain ⟨n, least⟩ : ∃ n, ((picks bs).map fun c =>
          cost a c.1 + leastCost cost as c.2).min? = some n := by
        obtain ⟨b, hb⟩ := List.exists_mem_of_length_pos (Nat.zero_lt_of_lt enough)
        obtain ⟨rest, hr⟩ := exists_mem_picks hb
        exact Option.isSome_iff_exists.1 (List.isSome_min?_of_mem (List.mem_map_of_mem hr))
      rw [step, least, Option.getD_some]
      obtain ⟨there, below⟩ := List.min?_eq_some_iff.1 least
      constructor
      · obtain ⟨⟨b, rest⟩, hr, rfl⟩ := List.mem_map.1 there
        obtain ⟨cs, perm, sum⟩ := (ih (fewer hr)).1
        exact ⟨b :: cs, (perm.cons b).trans (perm_of_mem_picks hr), by simp [sum]⟩
      · rintro _ ⟨cs, perm, rfl⟩
        cases cs with
        | nil => simp [← perm.length_eq] at enough
        | cons b cs =>
            obtain ⟨rest, hr⟩ := exists_mem_picks (perm.subset List.mem_cons_self)
            have perm : cs.Perm rest := (perm.trans (perm_of_mem_picks hr).symm).cons_inv
            have others := (ih (fewer hr)).2 ⟨cs, perm, rfl⟩
            have first : n ≤ cost a b + leastCost cost as rest :=
              below _ (List.mem_map_of_mem hr)
            simp only [List.zipWith_cons_cons, List.sum_cons]
            omega

/-! ## Checked assignments -/

/-- The table of the costs. -/
def costTable (cost : α → β → Nat) (as : List α) (bs : List β) : List (List Nat) :=
  as.map fun a => bs.map (cost a)

namespace Assignment

variable {x : Assignment}

/-- Prices that no entry falls below add up to no more than any assignment costs. -/
lemma prices_le {rowPrices columnPrices : List Int} {pairs : List (β × Int)}
    (given : List.Forall₂ (fun c q => (c, q) ∈ pairs) cs columnPrices)
    (rows : rowPrices.length = as.length) (same : as.length = cs.length)
    (affordable : ∀ ap ∈ as.zip rowPrices, ∀ bq ∈ pairs, ap.2 + bq.2 ≤ (cost ap.1 bq.1 : Int)) :
    rowPrices.sum + columnPrices.sum ≤ ((List.zipWith cost as cs).sum : Int) := by
  induction given generalizing as rowPrices with
  | nil =>
      obtain rfl := List.length_eq_zero_iff.1 same
      obtain rfl := List.length_eq_zero_iff.1 rows
      simp
  | @cons c q cs qs first _ ih =>
      obtain ⟨a, as, rfl⟩ := List.exists_cons_of_length_eq_add_one same
      obtain ⟨p, ps, rfl⟩ := List.exists_cons_of_length_eq_add_one rows
      simp only [List.length_cons, Nat.add_right_cancel_iff] at rows same
      have here : p + q ≤ (cost a c : Int) := affordable (a, p) List.mem_cons_self (c, q) first
      have there := ih rows same fun ap hap => affordable ap (List.mem_cons_of_mem _ hap)
      simp only [List.sum_cons, List.zipWith_cons_cons, Int.natCast_add]
      omega

/-- The columns that are given to the rows make an assignment. -/
lemma total_mem (same : as.length = bs.length)
    (columns : x.columns.Perm (List.range (costTable cost as bs).length)) :
    x.total (costTable cost as bs) ∈ assignmentCosts cost as bs := by
  have places : List.Forall₂ (fun j b => bs[j]? = some b)
      (List.range (costTable cost as bs).length) bs := by
    refine List.forall₂_iff_get.2 ⟨by simp [costTable, same], fun i hi hi' => ?_⟩
    simp
  obtain ⟨cs, given, perm⟩ := List.perm_comp_forall₂ columns places
  refine ⟨cs, perm, ?_⟩
  rw [total, ← List.sum_eq_foldr, costTable]
  clear columns places perm same
  generalize x.columns = js at given
  induction given generalizing as with
  | nil => simp
  | @cons j c js cs first _ ih =>
      cases as with
      | nil => rfl
      | cons a as => simp [ih, first]

/-- **An assignment that passes the check has the least cost.** -/
theorem Optimal.isLeast (h : x.Optimal (costTable cost as bs)) (same : as.length = bs.length) :
    IsLeast (assignmentCosts cost as bs) (x.total (costTable cost as bs)) := by
  obtain ⟨columns, rows, width, affordable, paid⟩ := h
  refine ⟨total_mem same (List.isPerm_iff.1 columns), ?_⟩
  rintro _ ⟨cs, perm, rfl⟩
  rw [costTable, List.length_map] at rows width
  -- the prices of the columns go with the items that stand there
  have priced : List.Forall₂ (fun b q => (b, q) ∈ bs.zip x.columnPrices) bs x.columnPrices := by
    refine List.forall₂_iff_zip.2 ⟨by omega, fun h => h⟩
  obtain ⟨qs, given, prices⟩ := List.perm_comp_forall₂ perm priced
  have sum : qs.sum = x.columnPrices.sum := prices.sum_eq
  have bounded : ∀ ap ∈ as.zip x.rowPrices, ∀ bq ∈ bs.zip x.columnPrices,
      ap.2 + bq.2 ≤ (cost ap.1 bq.1 : Int) := by
    rintro ⟨a, p⟩ hap ⟨b, q⟩ hbq
    refine affordable (bs.map (cost a), p) ?_ (cost a b, q) ?_
    · rw [costTable, List.zip_map_left]
      exact List.mem_map_of_mem hap
    · rw [List.zip_map_left]
      exact List.mem_map_of_mem hbq
  have bound := prices_le given rows (same.trans perm.length_eq.symm) bounded
  rw [← List.sum_eq_foldr, List.sum_append] at paid
  omega

end Assignment

/-- **What is computed is the least cost of an assignment.** -/
theorem assignmentCost_isLeast (same : as.length = bs.length) :
    IsLeast (assignmentCosts cost as bs) (assignmentCost cost as bs) := by
  rw [assignmentCost]
  split
  · rename_i optimal
    exact Assignment.Optimal.isLeast optimal same
  · exact leastCost_isLeast same.le

/-! ## What the costs depend on -/

lemma exists_perm_of_perm_map {f : α → γ} {ds : List γ} (h : ds.Perm (as.map f)) :
    ∃ cs : List α, ds = cs.map f ∧ cs.Perm as := by
  have comp : Relation.Comp (fun ds cs => ds = List.map f cs) List.Perm ds as := by
    rwa [List.eq_map_comp_perm]
  exact comp

/-- Items that have the same costs have the same assignments. -/
lemma assignmentCosts_map {cost' : γ → δ → Nat} {f : α → γ} {g : β → δ}
    (same : ∀ a b, cost a b = cost' (f a) (g b)) :
    assignmentCosts cost as bs = assignmentCosts cost' (as.map f) (bs.map g) := by
  have sums : ∀ cs : List β, (List.zipWith cost' (as.map f) (cs.map g)) =
      List.zipWith cost as cs := fun cs => by
    simp only [List.zipWith_map, ← same]
  ext n
  constructor
  · rintro ⟨cs, perm, rfl⟩
    exact ⟨cs.map g, perm.map g, by rw [sums]⟩
  · rintro ⟨ds, perm, rfl⟩
    obtain ⟨cs, rfl, order⟩ := exists_perm_of_perm_map perm
    exact ⟨cs, order, by rw [sums]⟩

lemma assignmentCosts_subset (ha : as.Perm as') (hb : bs.Perm bs')
    (same : as.length = bs.length) :
    assignmentCosts cost as bs ⊆ assignmentCosts cost as' bs' := by
  rintro _ ⟨cs, perm, rfl⟩
  -- the pairs are put in the new order of the first list
  have length : as.length = cs.length := same.trans perm.length_eq.symm
  have first : as'.Perm ((as.zip cs).map Prod.fst) := by
    rw [List.map_fst_zip length.le]
    exact ha.symm
  obtain ⟨pairs, rfl, order⟩ := exists_perm_of_perm_map first
  refine ⟨pairs.map Prod.snd, ?_, ?_⟩
  · have second := order.map Prod.snd
    rw [List.map_snd_zip length.ge] at second
    exact second.trans (perm.trans hb)
  · have costs : ∀ ps : List (α × β), List.zipWith cost (ps.map Prod.fst) (ps.map Prod.snd) =
        ps.map fun p => cost p.1 p.2 := fun ps => by
      rw [List.zipWith_map, List.zipWith_self]
    rw [costs, (order.map _).sum_eq, ← costs, List.map_fst_zip length.le,
      List.map_snd_zip length.ge]

/-- **The order of the items does not matter.** -/
theorem assignmentCosts_perm (ha : as.Perm as') (hb : bs.Perm bs') (same : as.length = bs.length) :
    assignmentCosts cost as bs = assignmentCosts cost as' bs' :=
  Set.Subset.antisymm (assignmentCosts_subset ha hb same)
    (assignmentCosts_subset ha.symm hb.symm (by rw [← ha.length_eq, ← hb.length_eq, same]))

end CausalUpdate
