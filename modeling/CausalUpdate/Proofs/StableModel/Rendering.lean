import CausalUpdate.Proofs.AnswerSet.Reading
import CausalUpdate.Proofs.Program.Gathering
import CausalUpdate.Proofs.StableModel.Basic
import CausalUpdate.Proofs.Text.Order
import Mathlib.Data.List.Perm.Basic

/-!
# The models of a program as they are written

A solver lists the models of a program as texts, and `Renders` says that a list is such a list.
The text of a model does not depend on the order in which its atoms are found (`modelText_congr`),
and different models have different texts (`modelText_inj`).
-/

namespace CausalUpdate

open CausalUpdate.Text

lemma sortTexts_eq_of_perm {ts us : List String} (h : ts.Perm us) :
    sortTexts ts = sortTexts us := by
  refine List.Perm.eq_of_pairwise (fun a b _ _ => String.le_antisymm) (pairwise_sort ts)
    (pairwise_sort us) ?_
  exact (List.mergeSort_perm ts _).trans (h.trans (List.mergeSort_perm us _).symm)

/-- **The text of a model depends on its atoms only.** -/
lemma modelText_congr {ts us : List String} (ht : ts.Nodup) (hu : us.Nodup)
    (h : ∀ t, t ∈ ts ↔ t ∈ us) : modelText ts = modelText us := by
  rw [modelText, modelText, sortTexts_eq_of_perm ((List.perm_ext_iff_of_nodup ht hu).2 h)]

/-- Texts of readable literals that are joined can be told apart. -/
lemma modelText_inj {ts us : List String} (ht : ∀ t ∈ ts, ∃ l : Literal, l.Readable ∧ l.text = t)
    (hu : ∀ t ∈ us, ∃ l : Literal, l.Readable ∧ l.text = t) (e : modelText ts = modelText us) :
    ∀ t, t ∈ ts ↔ t ∈ us := by
  -- cutting at the separators and dropping what stands between them gives the sorted texts back
  have back : ∀ {ts : List String}, (∀ t ∈ ts, ∃ l : Literal, l.Readable ∧ l.text = t) →
      ((topLevelPieces modelSeparators (modelText ts).toList).getD []).filter
        (fun p => !blankOnly p) = (sortTexts ts).map String.toList := by
    intro ts h
    have pieces : ∀ p ∈ (sortTexts ts).map String.toList,
        ∃ l : Literal, l.Readable ∧ l.text.toList = p := by
      intro p hp
      obtain ⟨t, ht, rfl⟩ := List.mem_map.1 hp
      obtain ⟨l, hl, rfl⟩ := h t (List.mem_mergeSort.1 ht)
      exact ⟨l, hl, rfl⟩
    obtain ⟨ps, cut, kept⟩ := (strung_commas (sortTexts ts)).topLevelPieces
      (fun p hp => by
        obtain ⟨l, hl, rfl⟩ := pieces p hp
        exact hl.unbroken_in_model)
      fun p hp => by
        obtain ⟨l, hl, rfl⟩ := pieces p hp
        exact hl.not_blankOnly
    rw [modelText, cut, Option.getD_some, kept]
  have sorted : sortTexts ts = sortTexts us := by
    have := back ht
    rw [e, back hu] at this
    exact ((List.map_inj_right fun _ _ => String.toList_inj.1).1 this).symm
  have mem : ∀ {ts : List String} {t : String}, t ∈ sortTexts ts ↔ t ∈ ts := List.mem_mergeSort
  intro t
  rw [← mem, sorted, mem]

/-! ## Models of a program -/

/-- All literals of the program are readable. -/
def ReadableProgram (p : Program) : Prop :=
  ∀ c ∈ p.clauses, ∀ l ∈ c.literals, l.Readable

lemma Program.ground_eq (p : Program) : p.ground = p.clauses.map Clause.ground := by
  simp [ground, clauses]

/-- The text is a model of the program as it is written. -/
def IsModelText (p : Program) (m : String) : Prop :=
  ∃ atoms : List String, atoms.Nodup ∧ IsStable p.ground (· ∈ atoms) ∧ m = modelText atoms

/-- The texts are the models of the program, each of them once. -/
structure Renders (p : Program) (models : List String) : Prop where
  nodup : models.Nodup
  mem_iff : ∀ m, m ∈ models ↔ IsModelText p m

end CausalUpdate
