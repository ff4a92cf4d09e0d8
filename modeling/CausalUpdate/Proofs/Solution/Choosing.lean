import CausalUpdate.Proofs.Solution.Editing
import CausalUpdate.Proofs.Solution.Placing
import Mathlib.Data.List.Perm.Basic
import Mathlib.Tactic.Common

/-!
# Chosen versions

A solution is put together by changes: a version of a rule is chosen, another one is kept, or the two
are swapped.  A change that fails leaves the solution as it is.  Whatever the changes are, an
identifier has one chosen version at most, one with variants has a chosen version, and no version
gets lost or is doubled by a swap.

* `Change`, `after` — the changes, and what several of them lead to.
* `Consistent` — what every change keeps.
* `Consistent.swap` — what a swap does to the versions of all rules.
* `after_consistent_swap` — both, whatever has been done before.
-/

namespace CausalUpdate

/-- What a rule says, without the ways to say it. -/
def Rule.meaning (r : Rule) : Quotient (inferInstance : Setoid Clause) :=
  Quotient.mk _ r.toClause

lemma Rule.meaning_eq {r q : Rule} (e : r.toClause ≈ q.toClause) : r.meaning = q.meaning :=
  Quotient.sound e

namespace Solution

/-! ## Changes -/

/-- A way to change a solution that is being put together. -/
inductive Change
  /-- Choose a version. -/
  | choose (kind : OperationKind) (r : Rule)
  /-- Keep another version. -/
  | keep (r : Rule)
  /-- Swap a version in. -/
  | swap (r : Rule)
deriving DecidableEq, Repr

/-- The changed solution, if the change is possible. -/
def change? (s : Solution) : Change → Except SolutionError Solution
  | .choose kind r => s.choose kind r
  | .keep r => s.addVariant r
  | .swap r => s.chooseVariant r

/-- The solution after a change, which leaves it as it is if it fails. -/
def change (s : Solution) (c : Change) : Solution :=
  match s.change? c with
  | .ok t => t
  | .error _ => s

/-- The solution after several changes. -/
def after (s : Solution) (changes : List Change) : Solution :=
  changes.foldl change s

/-- All versions of a rule, the chosen one first. -/
def versionsOf (s : Solution) (id : Int) : List Rule :=
  ((s.operation? id).map Prod.snd).toList ++ s.variantsOf id

/-- An identifier has one chosen version and one list of variants at most.  Those with variants have
a chosen version, and the variants carry the identifier that they are kept under. -/
structure Consistent (s : Solution) : Prop where
  once : s.touched.Nodup
  apart : (s.variants.map Prod.fst).Nodup
  chosen : ∀ v ∈ s.variants, v.1 ∈ s.touched
  filed : ∀ v ∈ s.variants, ∀ r ∈ v.2, r.id = v.1

variable {s t : Solution} {r : Rule} {id : Int}

/-! ## Finding versions -/

lemma mem_touched_iff : id ∈ s.touched ↔ ∃ o, s.operation? id = some o := by
  rw [← Option.isSome_iff_exists, operation?, List.find?_isSome, touched, List.mem_map]
  simp

lemma operations_withChosen (s : Solution) (r : Rule) : (s.withChosen r).operations =
    s.operations.map fun o => (o.1, if o.2.id = r.id then r else o.2) := by
  simp only [operations, withChosen, replaceVersion, List.map_flatMap]
  congr 1
  funext kind
  cases kind <;> simp only [chosenFor, List.map_map, Function.comp_def]

lemma operation?_withChosen (s : Solution) (r : Rule) (id : Int) :
    (s.withChosen r).operation? id =
      (s.operation? id).map fun o => (o.1, if o.2.id = r.id then r else o.2) := by
  have kept : ∀ q : Rule, (if q.id = r.id then r else q).id = q.id := by
    intro q
    split
    · rename_i e
      exact e.symm
    · rfl
  rw [operation?, operations_withChosen, List.find?_map, operation?]
  simp only [Function.comp_def, kept]

lemma lookup_withVariantsOf (s : Solution) (id : Int) (rs : List Rule) (other : Int) :
    (s.withVariantsOf id rs).variants.lookup other =
      (s.variants.lookup other).map fun old => if other = id then rs else old := by
  rw [withVariantsOf]
  induction s.variants with
  | nil => rfl
  | cons v vs ih =>
      obtain ⟨key, old⟩ := v
      by_cases found : other = key
      · subst found
        by_cases same : other = id <;> simp [same]
      · have miss : (other == key) = false := beq_false_of_ne found
        by_cases same : key = id
        · subst same
          simpa [List.lookup_cons, miss] using ih
        · simpa [List.lookup_cons, miss, same] using ih

lemma variantsOf_withVariantsOf (s : Solution) (rs : List Rule) (known : s.variantsOf id ≠ []) :
    (s.withVariantsOf id rs).variantsOf id = rs := by
  rw [variantsOf] at known
  rw [variantsOf, lookup_withVariantsOf]
  cases found : s.variants.lookup id with
  | none =>
      rw [found] at known
      exact absurd rfl known
  | some old => simp

lemma variantsOf_withVariantsOf_of_ne (s : Solution) (rs : List Rule) {other : Int}
    (h : other ≠ id) : (s.withVariantsOf id rs).variantsOf other = s.variantsOf other := by
  simp [variantsOf, lookup_withVariantsOf, h]

lemma touched_withChosen (s : Solution) (r : Rule) : (s.withChosen r).touched = s.touched := by
  rw [touched_eq, touched_eq]
  simp only [withChosen, ids_replaceVersion]

lemma keys_withVariantsOf (s : Solution) (id : Int) (rs : List Rule) :
    (s.withVariantsOf id rs).variants.map Prod.fst = s.variants.map Prod.fst := by
  rw [withVariantsOf, List.map_map]
  refine List.map_congr_left fun v _ => ?_
  rw [Function.comp_apply]
  split
  · rename_i e
    exact e.symm
  · rfl

lemma keys_pushVariant (r : Rule) (vs : List (Int × List Rule)) : (pushVariant r vs).map Prod.fst =
    if r.id ∈ vs.map Prod.fst then vs.map Prod.fst else vs.map Prod.fst ++ [r.id] := by
  induction vs with
  | nil => rfl
  | cons v vs ih =>
      obtain ⟨key, rs⟩ := v
      rw [pushVariant]
      by_cases same : key = r.id
      · simp [same]
      · simp only [if_neg same, List.map_cons, ih, List.mem_cons, Ne.symm same, false_or]
        split <;> rfl

/-! ## What changes keep -/

namespace Consistent

/-- In a new solution nothing has been chosen. -/
lemma fresh (strategy : String) (rootRule : Option Int) (target : Option Literal)
    (score : Option Score) : ({ strategy, rootRule, target, score } : Solution).Consistent :=
  ⟨List.nodup_nil, List.nodup_nil, fun _ hv => absurd hv List.not_mem_nil,
    fun _ hv => absurd hv List.not_mem_nil⟩

lemma choose (h : s.Consistent) {kind : OperationKind} (chosen : s.choose kind r = .ok t) :
    t.Consistent := by
  rw [Solution.choose] at chosen
  split at chosen
  · cases chosen
  · rename_i fresh
    cases chosen
    have perm := s.touched_push kind r
    have variants : (s.push kind r).variants = s.variants := by cases kind <;> rfl
    refine ⟨perm.nodup_iff.2 (List.nodup_cons.2 ⟨fresh, h.once⟩), variants ▸ h.apart, ?_,
      variants ▸ h.filed⟩
    rw [variants]
    exact fun v hv => perm.mem_iff.2 (List.mem_cons_of_mem _ (h.chosen v hv))

lemma addVariant (h : s.Consistent) (added : s.addVariant r = .ok t) : t.Consistent := by
  rw [Solution.addVariant] at added
  split at added
  · rename_i chosen
    cases added
    have keys := keys_pushVariant r s.variants
    refine ⟨h.once, ?_, fun v hv => ?_, fun v hv q hq => ?_⟩
    · rw [keys]
      split
      · exact h.apart
      · rename_i new
        exact List.nodup_append.2 ⟨h.apart, List.nodup_singleton _, by
          rintro id hid _ same rfl
          exact new (List.mem_singleton.1 same ▸ hid)⟩
    · have key := List.mem_map_of_mem (f := Prod.fst) hv
      have old : ∀ id ∈ s.variants.map Prod.fst, id ∈ s.touched :=
        List.forall_mem_map.2 h.chosen
      rw [keys] at key
      split at key
      · exact old _ key
      · exact (List.mem_append.1 key).elim (old _) fun e => List.mem_singleton.1 e ▸ chosen
    · rcases mem_of_mem_pushVariant hv hq with ⟨rfl, e⟩ | ⟨w, hw, e, hq⟩
      · exact e.symm
      · exact (h.filed w hw q hq).trans e
  · cases added

lemma chooseVariant (h : s.Consistent) (chosen : s.chooseVariant r = .ok t) : t.Consistent := by
  obtain ⟨before, v, after, kind, old, place, -, found, rfl⟩ := chooseVariant_ok chosen
  have keys := keys_withVariantsOf s r.id (before ++ old :: after)
  have old_id : old.id = r.id := by simpa using List.find?_some found
  have there : ∃ w ∈ s.variants, w.1 = r.id ∧ v ∈ w.2 :=
    exists_of_mem_variantsOf (place ▸ by simp)
  refine ⟨?_, keys ▸ h.apart, fun w hw => ?_, fun w hw q hq => ?_⟩
  · exact touched_withChosen (s.withVariantsOf r.id _) r ▸ h.once
  · rw [touched_withChosen]
    rcases mem_withVariantsOf hw with rfl | hw
    · obtain ⟨w, hw, e, -⟩ := there
      exact e ▸ h.chosen w hw
    · exact h.chosen w hw
  · rcases mem_withVariantsOf hw with rfl | hw
    · have stayed : q ∈ before ∨ q ∈ after → q.id = r.id := fun hq => by
        obtain ⟨w, hw, e, hq⟩ := exists_of_mem_variantsOf
          (place ▸ List.mem_append.2 (hq.imp id (List.mem_cons_of_mem v)))
        exact (h.filed w hw q hq).trans e
      rcases List.mem_append.1 hq with hq | hq
      · exact stayed (Or.inl hq)
      · rcases List.mem_cons.1 hq with rfl | hq
        · exact old_id
        · exact stayed (Or.inr hq)
    · exact h.filed w hw q hq

/-- **Every change keeps it.** -/
theorem change (h : s.Consistent) (c : Change) : (s.change c).Consistent := by
  rw [Solution.change]
  split
  · rename_i t done
    cases c with
    | choose kind r => exact h.choose done
    | keep r => exact h.addVariant done
    | swap r => exact h.chooseVariant done
  · exact h

theorem after (h : s.Consistent) (changes : List Change) : (s.after changes).Consistent := by
  induction changes generalizing s with
  | nil => exact h
  | cons c changes ih => exact ih (h.change c)

/-! ## What a swap does -/

/-- A version can be swapped in if one of the variants of its identifier says the same. -/
lemma chooseVariant_iff (h : s.Consistent) :
    (∃ t, s.chooseVariant r = .ok t) ↔ ∃ v ∈ s.variantsOf r.id, v.toClause ≈ r.toClause := by
  refine ⟨fun ⟨t, chosen⟩ => exists_variant_of_chooseVariant chosen, fun ⟨v, hv, e⟩ => ?_⟩
  obtain ⟨w, hw, id, -⟩ := exists_of_mem_variantsOf hv
  obtain ⟨o, found⟩ := mem_touched_iff.1 (id ▸ h.chosen w hw)
  obtain ⟨i, place⟩ : ∃ i, (s.variantsOf r.id).findIdx? (fun v => v.toClause ≈ r.toClause) =
      some i := by
    rw [← Option.isSome_iff_exists, List.findIdx?_isSome, List.any_eq_true]
    exact ⟨v, hv, decide_eq_true e⟩
  rw [Solution.chooseVariant]
  simp only [place, found]
  exact ⟨_, rfl⟩

end Consistent

/-- What is swapped in is the chosen version of its identifier, of the same kind as the old one. -/
lemma operation?_chooseVariant (chosen : s.chooseVariant r = .ok t) : ∃ kind old,
    s.operation? r.id = some (kind, old) ∧ t.operation? r.id = some (kind, r) := by
  obtain ⟨before, v, after, kind, old, -, -, found, rfl⟩ := chooseVariant_ok chosen
  have old_id : old.id = r.id := by simpa using List.find?_some found
  refine ⟨kind, old, found, ?_⟩
  rw [operation?_withChosen]
  change (s.operation? r.id).map _ = _
  rw [found, Option.map_some, if_pos old_id]

/-- A swap leaves every identifier where it is. -/
lemma ids_chooseVariant (chosen : s.chooseVariant r = .ok t) (kind : OperationKind) :
    (t.chosenFor kind).map Rule.id = (s.chosenFor kind).map Rule.id := by
  obtain ⟨before, v, after, _, old, -, -, -, rfl⟩ := chooseVariant_ok chosen
  cases kind <;> exact ids_replaceVersion r _

/-- A swap leaves the versions of other identifiers alone. -/
lemma versionsOf_chooseVariant_of_ne (chosen : s.chooseVariant r = .ok t) (other : id ≠ r.id) :
    t.versionsOf id = s.versionsOf id := by
  obtain ⟨before, v, after, _, old, -, -, -, rfl⟩ := chooseVariant_ok chosen
  have same : ∀ o, s.operation? id = some o → o.2.id ≠ r.id := fun o ho e => by
    have : o.2.id = id := by simpa using List.find?_some ho
    exact other (this.symm.trans e)
  have chosen : ((s.withVariantsOf r.id (before ++ old :: after)).withChosen r).operation? id =
      s.operation? id := by
    rw [operation?_withChosen]
    change (s.operation? id).map _ = _
    cases found : s.operation? id with
    | none => rfl
    | some o => rw [Option.map_some, if_neg (same o found)]
  rw [versionsOf, versionsOf, chosen]
  exact congrArg _ (variantsOf_withVariantsOf_of_ne s _ other)

/-- **A swap neither loses a version nor doubles one.** -/
theorem meanings_chooseVariant (chosen : s.chooseVariant r = .ok t) (id : Int) :
    ((t.versionsOf id).map Rule.meaning).Perm ((s.versionsOf id).map Rule.meaning) := by
  by_cases same : id = r.id
  · subst same
    obtain ⟨kind, old, found, found'⟩ := operation?_chooseVariant chosen
    obtain ⟨before, v, after, kind', old', place, e, found'', rfl⟩ := chooseVariant_ok chosen
    obtain rfl : old = old' := by
      rw [found, Option.some_inj, Prod.mk.injEq] at found''
      exact found''.2
    have variants : ((s.withVariantsOf r.id (before ++ old :: after)).withChosen r).variantsOf r.id =
        before ++ old :: after := variantsOf_withVariantsOf s _ (by simp [place])
    rw [versionsOf, versionsOf, found, found', variants, place]
    simp only [Option.map_some, Option.toList_some, List.singleton_append, List.map_cons,
      List.map_append, Rule.meaning_eq e]
    -- the two have changed places
    refine (List.perm_middle.cons _).trans (.trans (.swap _ _ _) ?_)
    exact List.perm_middle.symm.cons _
  · rw [versionsOf_chooseVariant_of_ne chosen same]

/-- **One chosen version for each identifier.**  Whatever changes have been made to a new solution,
every identifier has one chosen version at most and one list of variants at most, an identifier with
variants has a chosen version, and variants carry the identifier that they are kept under.  A version
can then be swapped in exactly if some variant of its identifier says the same.  The swap makes it
the chosen version and keeps the kind and the place of every identifier; and the versions of an
identifier, the chosen one and the variants together, say the same as before, equally often. -/
theorem after_consistent_swap (strategy : String) (rootRule : Option Int) (target : Option Literal)
    (score : Option Score) (changes : List Change) :
    let s := ({ strategy, rootRule, target, score } : Solution).after changes
    s.Consistent ∧ ∀ r,
      ((∃ t, s.chooseVariant r = .ok t) ↔ ∃ v ∈ s.variantsOf r.id, v.toClause ≈ r.toClause) ∧
      ∀ t, s.chooseVariant r = .ok t →
        (∀ kind, (t.chosenFor kind).map Rule.id = (s.chosenFor kind).map Rule.id) ∧
        (∃ kind old, s.operation? r.id = some (kind, old) ∧ t.operation? r.id = some (kind, r)) ∧
        ∀ id, ((t.versionsOf id).map Rule.meaning).Perm ((s.versionsOf id).map Rule.meaning) := by
  intro s
  have consistent := (Consistent.fresh strategy rootRule target score).after changes
  refine ⟨consistent, fun r => ⟨consistent.chooseVariant_iff, fun t chosen => ?_⟩⟩
  exact ⟨ids_chooseVariant chosen, operation?_chooseVariant chosen, meanings_chooseVariant chosen⟩

end Solution

end CausalUpdate
