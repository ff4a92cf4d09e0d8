import Mathlib.Data.List.Induction
import Mathlib.Data.List.Nodup
import Mathlib.Tactic.Common

/-!
# Lists of texts in order

Sorted texts are in order, texts without repetitions are distinct, and a sorted list without
repetitions is in strict order (`pairwise_lt_sort`).  The order of texts says little about that of
their beginnings: these are in order as well, unless the later one is a part of the other
(`lt_or_isPrefix_of_lt`).
-/

namespace CausalUpdate.Text

lemma nodup_eraseDups {α : Type} [BEq α] [LawfulBEq α] (as : List α) : as.eraseDups.Nodup := by
  induction h : as.length using Nat.strongRecOn generalizing as with
  | ind n ih =>
      cases as with
      | nil => simp
      | cons a as =>
          rw [List.eraseDups_cons]
          refine List.nodup_cons.2 ⟨by simp [List.mem_eraseDups], ih _ ?_ _ rfl⟩
          rw [← h, List.length_cons]
          exact Nat.lt_succ_of_le (List.length_filter_le _ _)

/-- A list without repetitions is left as it is. -/
lemma eraseDups_eq_self {α : Type} [BEq α] [LawfulBEq α] {as : List α} (h : as.Nodup) :
    as.eraseDups = as := by
  induction as with
  | nil => rfl
  | cons a as ih =>
      obtain ⟨fresh, distinct⟩ := List.nodup_cons.1 h
      have kept : as.filter (fun b => !b == a) = as := by
        refine List.filter_eq_self.2 fun b hb => ?_
        rw [Bool.not_eq_true', beq_eq_false_iff_ne]
        rintro rfl
        exact fresh hb
      rw [List.eraseDups_cons, kept, ih distinct]

/-- One more item is left out if it is there already. -/
lemma eraseDups_concat {α : Type} [BEq α] [LawfulBEq α] (as : List α) (a : α) :
    (as ++ [a]).eraseDups = if a ∈ as.eraseDups then as.eraseDups else as.eraseDups ++ [a] := by
  rw [List.eraseDups_append]
  split
  · rename_i known
    simp [List.removeAll, List.mem_eraseDups.1 known]
  · rename_i fresh
    rw [List.mem_eraseDups] at fresh
    simp [List.removeAll, fresh, List.eraseDups_cons]

lemma eraseDups_sublist {α : Type} [BEq α] [LawfulBEq α] (as : List α) :
    as.eraseDups.Sublist as := by
  induction as using List.reverseRecOn with
  | nil => exact .slnil
  | append_singleton as a ih =>
      rw [eraseDups_concat]
      split
      · exact ih.trans (List.sublist_append_left as [a])
      · exact ih.append (.refl [a])

/-- Sorted texts are in order. -/
lemma pairwise_sort (ts : List String) : (ts.mergeSort fun a b => a ≤ b).Pairwise (· ≤ ·) := by
  have trans : ∀ a b c : String, decide (a ≤ b) = true → decide (b ≤ c) = true →
      decide (a ≤ c) = true := by
    intro a b c hab hbc
    rw [decide_eq_true_eq] at hab hbc ⊢
    exact String.le_trans hab hbc
  have total : ∀ a b : String, (decide (a ≤ b) || decide (b ≤ a)) = true := by
    intro a b
    simpa using String.le_total a b
  exact (List.pairwise_mergeSort trans total ts).imp of_decide_eq_true

lemma pairwise_lt_sort {ts : List String} (distinct : ts.Nodup) :
    (ts.mergeSort fun a b => a ≤ b).Pairwise (· < ·) := by
  have apart : (ts.mergeSort fun a b => a ≤ b).Nodup :=
    (List.mergeSort_perm ts _).nodup_iff.2 distinct
  refine (List.Pairwise.and (pairwise_sort ts) apart).imp ?_
  rintro a b ⟨le, ne⟩
  exact String.not_le.1 fun ge => ne (String.le_antisymm le ge)

/-- A text comes before every longer one that begins with it. -/
lemma lt_append {t u : String} (h : u ≠ "") : t < t ++ u := by
  have longer : ∀ {cs ds : List Char}, ds ≠ [] → cs < cs ++ ds := by
    intro cs ds some
    induction cs with
    | nil =>
        obtain ⟨d, ds, rfl⟩ := List.exists_cons_of_ne_nil some
        exact List.nil_lt_cons d ds
    | cons c cs ih => exact List.cons_lt_cons_iff.2 (Or.inr ⟨rfl, ih⟩)
  show t.toList < (t ++ u).toList
  rw [String.toList_append]
  exact longer (String.toList_eq_nil_iff.not.2 h)

lemma string_le_of_lt {t u : String} (h : t < u) : t ≤ u :=
  String.not_lt.1 (String.lt_asymm h)

/-- Beginnings of texts in order are in order, unless the later one is a part of the other. -/
lemma lt_or_isPrefix_of_lt {as bs ks ls : List Char} (h : as < bs) (hk : ks <+: as)
    (hl : ls <+: bs) : ks < ls ∨ ls <+: ks := by
  induction ks generalizing ls as bs with
  | nil =>
      cases ls with
      | nil => exact Or.inr (List.nil_prefix)
      | cons l ls => exact Or.inl (List.nil_lt_cons l ls)
  | cons k ks ih =>
      cases ls with
      | nil => exact Or.inr (List.nil_prefix)
      | cons l ls =>
          obtain ⟨as, rfl⟩ := hk
          obtain ⟨bs, rfl⟩ := hl
          rcases List.cons_lt_cons_iff.1 h with lt | ⟨rfl, lt⟩
          · exact Or.inl (List.cons_lt_cons_iff.2 (Or.inl lt))
          · rcases ih lt (List.prefix_append ks as) (List.prefix_append ls bs) with lt | part
            · exact Or.inl (List.cons_lt_cons_iff.2 (Or.inr ⟨rfl, lt⟩))
            · exact Or.inr ((List.prefix_cons_inj k).2 part)

end CausalUpdate.Text
