import CausalUpdate.Solution.Basic
import Mathlib.Tactic.Common

/-!
# Solutions that give rules new versions

Most solutions do nothing but give new versions to rules.  If all versions they know are of some
kind, the chosen ones and the variants alike, then this is so however the variants are swapped.

* `Solution.Edits` — such solutions.
* `Solution.Swapped` — solutions that come from others by swapping variants in.
* `Solution.Rechosen` — the same, where the rule that is swapped in may be written in another way.
-/

namespace CausalUpdate.Solution

/-- Both solutions change the same, whoever found them and however they are scored. -/
structure SameEdit (s t : Solution) : Prop where
  additions : s.additions = t.additions
  modifications : s.modifications = t.modifications
  deletions : s.deletions = t.deletions
  variants : s.variants = t.variants

lemma SameEdit.refl (s : Solution) : s.SameEdit s :=
  ⟨rfl, rfl, rfl, rfl⟩

lemma SameEdit.trans {s t r : Solution} (h : s.SameEdit t) (k : t.SameEdit r) : s.SameEdit r :=
  ⟨h.1.trans k.1, h.2.trans k.2, h.3.trans k.3, h.4.trans k.4⟩

/-- The solution gives rules new versions and does nothing else, all versions are of a kind, and
variants are kept under their identifiers. -/
structure Edits (kind : Rule → Prop) (s : Solution) : Prop where
  additions : s.additions = []
  deletions : s.deletions = []
  chosen : ∀ r ∈ s.modifications, kind r
  variants : ∀ v ∈ s.variants, ∀ r ∈ v.2, kind r
  filed : ∀ v ∈ s.variants, ∀ r ∈ v.2, r.id = v.1

/-- Variants have been swapped in, any number of times. -/
inductive Swapped (s : Solution) : Solution → Prop
  | refl : Swapped s s
  | step {t t' : Solution} {r : Rule} (swapped : Swapped s t) (variant : r ∈ t.variantsOf r.id)
      (chosen : t.chooseVariant r = .ok t') : Swapped s t'

/-- Rules have been swapped in that the solution takes for variants, any number of times. -/
inductive Rechosen (s : Solution) : Solution → Prop
  | refl : Rechosen s s
  | step {t t' : Solution} {r : Rule} (rechosen : Rechosen s t)
      (chosen : t.chooseVariant r = .ok t') : Rechosen s t'

lemma Swapped.rechosen {s t : Solution} (h : s.Swapped t) : s.Rechosen t := by
  induction h with
  | refl => exact .refl
  | step _ _ chosen ih => exact .step ih chosen

section

variable {kind : Rule → Prop} {s t : Solution} {r first : Rule} {others : List Rule}

lemma Edits.of_sameEdit (h : t.Edits kind) (same : s.SameEdit t) : s.Edits kind :=
  ⟨same.additions.trans h.additions, same.deletions.trans h.deletions,
    same.modifications ▸ h.chosen, same.variants ▸ h.variants, same.variants ▸ h.filed⟩

lemma Edits.imp {kind' : Rule → Prop} (h : s.Edits kind) (imp : ∀ r, kind r → kind' r) :
    s.Edits kind' :=
  ⟨h.additions, h.deletions, fun r hr => imp r (h.chosen r hr),
    fun v hv r hr => imp r (h.variants v hv r hr), h.filed⟩

/-! ## Building -/

/-- A solution that is only begun. -/
lemma Edits.fresh (rootRule : Option Int) (target : Option Literal) :
    ({ rootRule, target } : Solution).Edits kind :=
  ⟨rfl, rfl, fun _ hr => absurd hr List.not_mem_nil, fun _ hv => absurd hv List.not_mem_nil,
    fun _ hv => absurd hv List.not_mem_nil⟩

lemma mem_of_mem_pushVariant {vs : List (Int × List Rule)} {v : Int × List Rule}
    (hv : v ∈ pushVariant r vs) {q : Rule} (hq : q ∈ v.2) :
    q = r ∧ v.1 = r.id ∨ ∃ w ∈ vs, w.1 = v.1 ∧ q ∈ w.2 := by
  induction vs with
  | nil =>
      rw [pushVariant, List.mem_singleton] at hv
      subst hv
      exact Or.inl ⟨List.mem_singleton.1 hq, rfl⟩
  | cons w vs ih =>
      rw [pushVariant] at hv
      split at hv
      · rename_i same
        rcases List.mem_cons.1 hv with rfl | hv
        · rcases List.mem_append.1 hq with hq | hq
          · exact Or.inr ⟨w, List.mem_cons_self, rfl, hq⟩
          · exact Or.inl ⟨List.mem_singleton.1 hq, same⟩
        · exact Or.inr ⟨v, List.mem_cons_of_mem _ hv, rfl, hq⟩
      · rcases List.mem_cons.1 hv with rfl | hv
        · exact Or.inr ⟨w, List.mem_cons_self, rfl, hq⟩
        · obtain h | ⟨w', hw', e, hq⟩ := ih hv
          · exact Or.inl h
          · exact Or.inr ⟨w', List.mem_cons_of_mem _ hw', e, hq⟩

lemma Edits.addVariants (h : s.Edits kind) (hothers : ∀ r ∈ others, kind r)
    (added : s.addVariants others = .ok t) :
    t.Edits kind ∧ t.modifications = s.modifications ∧ t.target = s.target := by
  induction others generalizing s with
  | nil =>
      cases added
      exact ⟨h, rfl, rfl⟩
  | cons r others ih =>
      rw [Solution.addVariants, addVariant] at added
      split at added
      · have pushed : ({ s with variants := pushVariant r s.variants } : Solution).Edits kind := by
          refine ⟨h.additions, h.deletions, h.chosen, fun v hv q hq => ?_, fun v hv q hq => ?_⟩
          · rcases mem_of_mem_pushVariant hv hq with ⟨rfl, -⟩ | ⟨w, hw, -, hq⟩
            · exact hothers _ List.mem_cons_self
            · exact h.variants w hw q hq
          · rcases mem_of_mem_pushVariant hv hq with ⟨rfl, e⟩ | ⟨w, hw, e, hq⟩
            · exact e.symm
            · exact (h.filed w hw q hq).trans e
        have rest := ih pushed (fun q hq => hothers q (List.mem_cons_of_mem _ hq)) added
        exact rest
      · cases added

/-- Several versions of one more rule. -/
lemma Edits.chooseAmong (h : s.Edits kind) (hfirst : kind first) (hothers : ∀ r ∈ others, kind r)
    (chosen : s.chooseAmong .modify first others = .ok t) :
    t.Edits kind ∧ t.modifications = s.modifications ++ [first] ∧ t.target = s.target := by
  rw [Solution.chooseAmong, choose] at chosen
  split at chosen
  · cases chosen
  · refine Edits.addVariants (s := s.push .modify first)
      ⟨h.additions, h.deletions, ?_, h.variants, h.filed⟩ hothers chosen
    intro r hr
    rcases List.mem_append.1 hr with hr | hr
    · exact h.chosen r hr
    · rw [List.mem_singleton.1 hr]
      exact hfirst

/-! ## Swapping -/

lemma exists_of_mem_variantsOf {id : Int} (h : r ∈ s.variantsOf id) :
    ∃ v ∈ s.variants, v.1 = id ∧ r ∈ v.2 := by
  rw [variantsOf] at h
  cases found : s.variants.lookup id with
  | none =>
      rw [found] at h
      exact absurd h List.not_mem_nil
  | some rs =>
      rw [found] at h
      obtain ⟨before, after, e, -⟩ := List.lookup_eq_some_iff.1 found
      exact ⟨(id, rs), by rw [e]; simp, rfl, h⟩

lemma mem_withVariantsOf {id : Int} {rs : List Rule} {v : Int × List Rule}
    (hv : v ∈ (s.withVariantsOf id rs).variants) : v = (id, rs) ∨ v ∈ s.variants := by
  obtain ⟨w, hw, rfl⟩ := List.mem_map.1 hv
  split
  · exact Or.inl rfl
  · exact Or.inr hw

lemma mem_replaceVersion {q : Rule} {rs : List Rule} (h : q ∈ replaceVersion r rs) :
    q = r ∨ q ∈ rs := by
  obtain ⟨p, hp, rfl⟩ := List.mem_map.1 h
  split
  · exact Or.inl rfl
  · exact Or.inr hp

lemma ids_replaceVersion (r : Rule) (rs : List Rule) :
    (replaceVersion r rs).map Rule.id = rs.map Rule.id := by
  rw [replaceVersion, List.map_map]
  refine List.map_congr_left fun q _ => ?_
  rw [Function.comp_apply]
  split
  · rename_i e
    exact e.symm
  · rfl

/-- The version that was chosen takes the place of a variant that is equivalent to the new one. -/
lemma chooseVariant_ok (chosen : s.chooseVariant r = .ok t) : ∃ before v after kind old,
    s.variantsOf r.id = before ++ v :: after ∧ v.toClause ≈ r.toClause ∧
      s.operation? r.id = some (kind, old) ∧
        t = (s.withVariantsOf r.id (before ++ old :: after)).withChosen r := by
  rw [Solution.chooseVariant] at chosen
  split at chosen
  · rename_i i kind old place found
    cases chosen
    obtain ⟨bound, same, -⟩ := List.findIdx?_eq_some_iff_getElem.1 place
    refine ⟨(s.variantsOf r.id).take i, (s.variantsOf r.id)[i], (s.variantsOf r.id).drop (i + 1),
      kind, old, ?_, by simpa using same, found, ?_⟩
    · rw [← List.drop_eq_getElem_cons, List.take_append_drop]
    · rw [List.set_eq_take_append_cons_drop, if_pos bound]
  · cases chosen

/-- What is swapped in is equivalent to a variant of the rule. -/
lemma exists_variant_of_chooseVariant (chosen : s.chooseVariant r = .ok t) :
    ∃ v ∈ s.variantsOf r.id, v.toClause ≈ r.toClause := by
  obtain ⟨before, v, after, -, -, place, same, -⟩ := chooseVariant_ok chosen
  exact ⟨v, by simp [place], same⟩

/-- What is swapped in is of the same kind, and so is what becomes a variant. -/
lemma Edits.chooseVariant (h : s.Edits kind) (hr : kind r) (chosen : s.chooseVariant r = .ok t) :
    t.Edits kind ∧ t.modifications.map Rule.id = s.modifications.map Rule.id := by
  obtain ⟨before, was, after, k, old, place, -, found, rfl⟩ := chooseVariant_ok chosen
  have hold : kind old ∧ old.id = r.id := by
    have inside := List.mem_of_find?_eq_some found
    simp only [operations, OperationKind.all, chosenFor, List.flatMap_cons, List.flatMap_nil,
      h.additions, h.deletions, List.map_nil, List.nil_append, List.append_nil, List.mem_map,
      Prod.mk.injEq] at inside
    obtain ⟨q, hq, -, rfl⟩ := inside
    exact ⟨h.chosen q hq, by simpa using List.find?_some found⟩
  -- what becomes a variant goes to the variants of its own identifier
  have variant : ∀ w ∈ (s.withVariantsOf r.id (before ++ old :: after)).variants,
      ∀ q ∈ w.2, (q = old ∧ w.1 = r.id) ∨ ∃ v ∈ s.variants, v.1 = w.1 ∧ q ∈ v.2 := by
    intro w hw q hq
    rcases mem_withVariantsOf hw with rfl | hw
    · have stayed : q ∈ before ∨ q ∈ after → ∃ v ∈ s.variants, v.1 = r.id ∧ q ∈ v.2 := fun hq =>
        exists_of_mem_variantsOf (place ▸ List.mem_append.2 (hq.imp id (List.mem_cons_of_mem _)))
      rcases List.mem_append.1 hq with hq | hq
      · exact Or.inr (stayed (Or.inl hq))
      · exact (List.mem_cons.1 hq).imp (fun e => ⟨e, rfl⟩) fun hq => stayed (Or.inr hq)
    · exact Or.inr ⟨w, hw, rfl, hq⟩
  refine ⟨⟨?_, ?_, fun q hq => ?_, fun w hw q hq => ?_, fun w hw q hq => ?_⟩, ?_⟩
  · simp [withChosen, withVariantsOf, h.additions, replaceVersion]
  · simp [withChosen, withVariantsOf, h.deletions, replaceVersion]
  · rcases mem_replaceVersion hq with rfl | hq
    · exact hr
    · exact h.chosen q hq
  · rcases variant w hw q hq with ⟨rfl, -⟩ | ⟨v, hv, -, hq⟩
    · exact hold.1
    · exact h.variants v hv q hq
  · rcases variant w hw q hq with ⟨rfl, e⟩ | ⟨v, hv, e, hq⟩
    · exact hold.2.trans e.symm
    · exact (h.filed v hv q hq).trans e
  · exact ids_replaceVersion r s.modifications

/-- **However variants are swapped, all versions stay of their kind.** -/
theorem Edits.swapped (h : s.Edits kind) (swapped : s.Swapped t) :
    t.Edits kind ∧ t.modifications.map Rule.id = s.modifications.map Rule.id := by
  induction swapped with
  | refl => exact ⟨h, rfl⟩
  | step _ variant chosen ih =>
      obtain ⟨h, ids⟩ := ih
      obtain ⟨v, hv, -, hr⟩ := exists_of_mem_variantsOf variant
      obtain ⟨h', ids'⟩ := h.chooseVariant (h.variants v hv _ hr) chosen
      exact ⟨h', ids'.trans ids⟩

/-- **However versions are chosen, all of them stay of their kind**, if it does not matter to the
kind how a version is written. -/
theorem Edits.rechosen (h : s.Edits kind)
    (closed : ∀ v w, kind v → w.id = v.id → v.toClause ≈ w.toClause → kind w)
    (rechosen : s.Rechosen t) :
    t.Edits kind ∧ t.modifications.map Rule.id = s.modifications.map Rule.id := by
  induction rechosen with
  | refl => exact ⟨h, rfl⟩
  | step _ chosen ih =>
      obtain ⟨h, ids⟩ := ih
      obtain ⟨w, hw, e⟩ := exists_variant_of_chooseVariant chosen
      obtain ⟨v, hv, id, hw⟩ := exists_of_mem_variantsOf hw
      have kind := closed w _ (h.variants v hv w hw) (id.symm.trans (h.filed v hv w hw).symm) e
      obtain ⟨h', ids'⟩ := h.chooseVariant kind chosen
      exact ⟨h', ids'.trans ids⟩

/-- Without variants nothing can be swapped. -/
lemma Rechosen.eq_of_variants (rechosen : s.Rechosen t) (none : s.variants = []) : t = s := by
  induction rechosen with
  | refl => rfl
  | step _ chosen ih =>
      obtain ⟨w, hw, -⟩ := exists_variant_of_chooseVariant chosen
      obtain ⟨v, hv, -⟩ := exists_of_mem_variantsOf hw
      rw [ih, none] at hv
      exact absurd hv List.not_mem_nil

end

end CausalUpdate.Solution
