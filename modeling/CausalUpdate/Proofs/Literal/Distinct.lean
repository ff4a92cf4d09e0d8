import CausalUpdate.Literal.Basic
import Mathlib.Data.List.Basic
import Mathlib.Data.List.Induction
import Mathlib.Tactic.Common

/-!
# In order of first appearance

Where things that count as the same are listed once, there are two questions besides which of them
are listed: in what order, and by which of those that count as the same.  `FirstAppearances` settles
both by where they appear first.  Such a list is made from left to right, and one more item either
appears again or is new (`FirstAppearances.again`, `FirstAppearances.new`).

* `FirstAppearances` — what it is to list items in order of first appearance.
* `firstAppearances_distinct` — distinct literals are listed so.
* `distinct_flatMap_distinct` — it does not matter if parts of a list are made distinct before.
-/

namespace CausalUpdate

/-- The items of a list up to sameness, each of them once, in the order in which they appear first
and by the one that appears first. -/
structure FirstAppearances {α : Type} (same : α → α → Prop) [DecidableRel same]
    (listed all : List α) : Prop where
  once : listed.Pairwise fun a b => ¬ same a b
  exact : ∀ a, (∃ b ∈ listed, same a b) ↔ ∃ b ∈ all, same a b
  first : ∀ b ∈ listed, all.find? (fun a => same a b) = some b
  order : listed.Pairwise fun a b =>
    all.findIdx (fun c => same c a) < all.findIdx (fun c => same c b)

namespace FirstAppearances

variable {α : Type} {same : α → α → Prop} [DecidableRel same] {listed all : List α} {a : α}

lemma nil : FirstAppearances same [] [] :=
  ⟨.nil, by simp, by simp, .nil⟩

/-- What is listed appears where it did, whatever comes behind. -/
lemma findIdx_append (h : FirstAppearances same listed all) {b : α} (hb : b ∈ listed)
    (more : List α) : (all ++ more).findIdx (fun c => same c b) =
      all.findIdx (fun c => same c b) ∧ all.findIdx (fun c => same c b) < all.length := by
  have found := h.first b hb
  have inside : all.findIdx (fun c => same c b) < all.length := by
    refine List.findIdx_lt_length.2 ⟨b, List.mem_of_find?_eq_some found, ?_⟩
    exact List.find?_some (p := fun c => same c b) found
  exact ⟨by rw [List.findIdx_append, if_pos inside], inside⟩

lemma order_append (h : FirstAppearances same listed all) (more : List α) :
    listed.Pairwise fun a b =>
      (all ++ more).findIdx (fun c => same c a) < (all ++ more).findIdx (fun c => same c b) := by
  refine h.order.imp_of_mem fun ha hb before => ?_
  rw [(h.findIdx_append ha more).1, (h.findIdx_append hb more).1]
  exact before

lemma first_append (h : FirstAppearances same listed all) {b : α} (hb : b ∈ listed)
    (more : List α) : (all ++ more).find? (fun c => same c b) = some b := by
  rw [List.find?_append, h.first b hb]
  rfl

/-- An item that is the same as one that is listed changes nothing. -/
lemma again (equiv : Equivalence same) (h : FirstAppearances same listed all)
    (known : ∃ b ∈ listed, same a b) : FirstAppearances same listed (all ++ [a]) where
  once := h.once
  exact c := by
    rw [h.exact c]
    constructor
    · rintro ⟨b, hb, e⟩
      exact ⟨b, List.mem_append_left _ hb, e⟩
    · rintro ⟨b, hb, e⟩
      rcases List.mem_append.1 hb with hb | hb
      · exact ⟨b, hb, e⟩
      · obtain rfl := List.mem_singleton.1 hb
        obtain ⟨d, hd, e'⟩ := (h.exact _).1 known
        exact ⟨d, hd, equiv.trans e e'⟩
  first _ hb := h.first_append hb [a]
  order := h.order_append [a]

/-- An item that is the same as none before it is listed behind the others. -/
lemma new (equiv : Equivalence same) (h : FirstAppearances same listed all)
    (unknown : ¬ ∃ b ∈ listed, same a b) : FirstAppearances same (listed ++ [a]) (all ++ [a]) where
  once := by
    refine List.pairwise_append.2 ⟨h.once, List.pairwise_singleton _ _, fun b hb c hc e => ?_⟩
    obtain rfl := List.mem_singleton.1 hc
    exact unknown ⟨b, hb, equiv.symm e⟩
  exact c := by simp only [List.mem_append, or_and_right, exists_or, h.exact c]
  first b hb := by
    rcases List.mem_append.1 hb with hb | hb
    · exact h.first_append hb [a]
    · obtain rfl := List.mem_singleton.1 hb
      have none_before : all.find? (fun c => same c b) = none := by
        refine List.find?_eq_none.2 fun c hc e => unknown ((h.exact b).2 ⟨c, hc, ?_⟩)
        exact equiv.symm (of_decide_eq_true e)
      rw [List.find?_append, none_before]
      simp [equiv.refl b]
  order := by
    refine List.pairwise_append.2
      ⟨h.order_append [a], List.pairwise_singleton _ _, fun b hb c hc => ?_⟩
    obtain rfl := List.mem_singleton.1 hc
    obtain ⟨unmoved, inside⟩ := h.findIdx_append hb [c]
    have behind : all.length ≤ (all ++ [c]).findIdx fun d => same d c := by
      rw [List.findIdx_append]
      split
      · rename_i found
        obtain ⟨d, hd, e⟩ := List.findIdx_lt_length.1 found
        exact absurd ((h.exact c).2 ⟨d, hd, equiv.symm (of_decide_eq_true e)⟩) unknown
      · exact Nat.le_add_left _ _
    rw [unmoved]
    exact Nat.lt_of_lt_of_le inside behind

end FirstAppearances

/-! ## Distinct literals -/

namespace Literal

lemma among_append {l : Literal} {ls ms : List Literal} :
    l.Among (ls ++ ms) ↔ l.Among ls ∨ l.Among ms := by
  simp only [Among, List.mem_append, or_and_right, exists_or]

/-- One more literal is left out if it is among those before it. -/
lemma distinct_concat (ls : List Literal) (l : Literal) :
    distinct (ls ++ [l]) = if l.Among ls then distinct ls else distinct ls ++ [l] := by
  induction ls with
  | nil =>
      rw [if_neg fun ⟨_, hm, _⟩ => List.not_mem_nil hm]
      rfl
  | cons k ls ih =>
      have among : l.Among (k :: ls) ↔ k ≈ l ∨ l.Among ls := by
        simp only [Among, List.exists_mem_cons_iff]
        exact or_congr_left ⟨Setoid.symm, Setoid.symm⟩
      rw [List.cons_append, distinct, distinct, ih]
      by_cases known : l.Among ls
      · rw [if_pos known, if_pos (among.2 (Or.inr known))]
      · rw [if_neg known, List.filter_append]
        by_cases e : k ≈ l
        · rw [if_pos (among.2 (Or.inl e))]
          simp [e]
        · rw [if_neg fun h => (among.1 h).elim e known]
          simp [e]

/-- **Distinct literals are listed in order of first appearance.** -/
theorem firstAppearances_distinct (ls : List Literal) :
    FirstAppearances (fun a b : Literal => a ≈ b) (distinct ls) ls := by
  have equiv : Equivalence fun a b : Literal => a ≈ b := Setoid.iseqv
  induction ls using List.reverseRecOn with
  | nil => exact .nil
  | append_singleton ls l ih =>
      rw [distinct_concat]
      split
      · rename_i known
        exact ih.again equiv (among_distinct.2 known)
      · rename_i unknown
        exact ih.new equiv fun known => unknown (among_distinct.1 known)

/-- Lists with the same distinct literals have the same ones when both go on. -/
lemma distinct_append_congr {ls ms : List Literal} (h : distinct ls = distinct ms)
    (ns : List Literal) : distinct (ls ++ ns) = distinct (ms ++ ns) := by
  have known : ∀ l : Literal, l.Among ls ↔ l.Among ms := fun l => by
    rw [← among_distinct, h, among_distinct]
  induction ns using List.reverseRecOn with
  | nil => simpa using h
  | append_singleton ns n ih =>
      rw [← List.append_assoc, ← List.append_assoc, distinct_concat, distinct_concat, ih]
      simp only [among_append, known]

/-- It does not matter if literals that come behind are made distinct before. -/
lemma distinct_append_distinct (ls ms : List Literal) :
    distinct (ls ++ distinct ms) = distinct (ls ++ ms) := by
  induction ms using List.reverseRecOn with
  | nil => rfl
  | append_singleton ms m ih =>
      rw [distinct_concat, ← List.append_assoc ls ms [m], distinct_concat (ls ++ ms)]
      split
      · rename_i known
        rw [ih, if_pos (among_append.2 (Or.inr known))]
      · rw [← List.append_assoc, distinct_concat, ih]
        simp only [among_append, among_distinct]

/-- **Parts of a list may be made distinct before the whole is.** -/
lemma distinct_flatMap_distinct {α : Type} (f : α → List Literal) (ls : List Literal)
    (as : List α) :
    distinct (ls ++ as.flatMap fun a => distinct (f a)) = distinct (ls ++ as.flatMap f) := by
  induction as generalizing ls with
  | nil => rfl
  | cons a as ih =>
      rw [List.flatMap_cons, List.flatMap_cons, ← List.append_assoc, ← List.append_assoc, ih]
      exact distinct_append_congr (distinct_append_distinct ls (f a)) _

end Literal

end CausalUpdate
