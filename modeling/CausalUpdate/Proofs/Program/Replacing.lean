import CausalUpdate.Proofs.Program.Orderly
import Mathlib.Data.List.Pairwise

/-!
# Replacing rules

Where identifiers are distinct, modifying a program is replacing every rule that has the identifier
of a new version by that version, all in their places.  The only thing that stands against it is
another rule of the program that says the same already.

* `Program.updated` — a program with versions in the places of its rules.
* `Program.modify_outcome` — the ways in which a modification ends.
-/

namespace CausalUpdate

/-! ## Rules -/

/-- The first of the versions that has the identifier of the rule, or else the rule. -/
def Rule.updated (vs : List Rule) (r : Rule) : Rule :=
  (vs.find? fun v => v.id = r.id).getD r

namespace Rule

variable {vs : List Rule} {v r : Rule}

lemma updated_of_forall_ne (h : ∀ v ∈ vs, v.id ≠ r.id) : r.updated vs = r := by
  have none : vs.find? (fun v => v.id = r.id) = none := by simpa [List.find?_eq_none] using h
  rw [updated, none, Option.getD_none]

lemma updated_nil (r : Rule) : r.updated [] = r :=
  rfl

lemma updated_cons (v : Rule) (vs : List Rule) (r : Rule) :
    r.updated (v :: vs) = if v.id = r.id then v else r.updated vs := by
  rw [updated, List.find?_cons]
  split
  · rename_i e
    rw [if_pos (of_decide_eq_true e), Option.getD_some]
  · rename_i e
    rw [if_neg (of_decide_eq_false e), updated]

/-- A rule stays if no version has its identifier, and gives way to a version otherwise. -/
lemma updated_cases (vs : List Rule) (r : Rule) :
    (r.updated vs = r ∧ ∀ v ∈ vs, v.id ≠ r.id) ∨ r.updated vs ∈ vs ∧ (r.updated vs).id = r.id := by
  cases found : vs.find? fun v => v.id = r.id with
  | none =>
      have other : ∀ v ∈ vs, v.id ≠ r.id := by simpa [List.find?_eq_none] using found
      exact Or.inl ⟨updated_of_forall_ne other, other⟩
  | some v =>
      rw [updated, found, Option.getD_some]
      exact Or.inr ⟨List.mem_of_find?_eq_some found, by simpa using List.find?_some found⟩

@[simp] lemma id_updated (vs : List Rule) (r : Rule) : (r.updated vs).id = r.id := by
  rcases updated_cases vs r with ⟨e, -⟩ | ⟨-, e⟩
  · rw [e]
  · exact e

/-- Of versions with distinct identifiers, the one of the rule takes its place. -/
lemma updated_eq (distinct : (vs.map Rule.id).Nodup) (hv : v ∈ vs) (e : v.id = r.id) :
    r.updated vs = v := by
  rcases updated_cases vs r with ⟨-, other⟩ | ⟨inside, e'⟩
  · exact absurd e (other v hv)
  · exact List.inj_on_of_nodup_map distinct inside hv (e'.trans e.symm)

/-- Versions with distinct identifiers can be put in one after the other. -/
lemma updated_updated (distinct : ((v :: vs).map Rule.id).Nodup) (r : Rule) :
    (r.updated [v]).updated vs = r.updated (v :: vs) := by
  have others : ∀ w ∈ vs, w.id ≠ v.id := fun w hw e =>
    (List.nodup_cons.1 distinct).1 (e ▸ List.mem_map_of_mem hw)
  rw [updated_cons v vs, updated_cons v []]
  split
  · exact updated_of_forall_ne others
  · rfl

end Rule

/-! ## Programs -/

/-- The program with versions in the places of the rules that have their identifiers. -/
def Program.updated (vs : List Rule) (p : Program) : Program :=
  { p with rules := p.rules.map (Rule.updated vs) }

lemma rulesOf_map_updated (vs : List Rule) (ps : List Program) :
    rulesOf (ps.map (Program.updated vs)) = (rulesOf ps).map (Rule.updated vs) := by
  rw [rulesOf, rulesOf, List.map_flatMap, List.flatMap_map]
  rfl

/-- Another rule of the program says already what the new version says. -/
def Program.Repeats (p : Program) (v : Rule) : Prop :=
  ∃ q ∈ p.rules, q.id ≠ v.id ∧ q.toClause ≈ v.toClause

instance (p : Program) (v : Rule) : Decidable (p.Repeats v) :=
  inferInstanceAs (Decidable (∃ q ∈ p.rules, _))

/-- A rule cannot be added or changed because the program says the same already. -/
def ProgramError.IsDuplicate : ProgramError → Prop
  | .duplicateAddition .. | .duplicateModification .. => True
  | _ => False

namespace Program

variable {p : Program} {v w : Rule}

@[simp] lemma ids_updated (vs : List Rule) (p : Program) : (p.updated vs).ids = p.ids := by
  simp [updated, ids, Function.comp_def]

lemma ids_map_updated (vs : List Rule) (ps : List Program) :
    (rulesOf (ps.map (updated vs))).map Rule.id = (rulesOf ps).map Rule.id := by
  rw [rulesOf_map_updated, List.map_map]
  exact List.map_congr_left fun r _ => r.id_updated vs

lemma updated_nil (p : Program) : p.updated [] = p := by
  rw [updated, show Rule.updated [] = id from rfl, List.map_id]

lemma updated_of_not_mem (h : v.id ∉ p.ids) : p.updated [v] = p := by
  have same : p.rules.map (Rule.updated [v]) = p.rules.map id := by
    refine List.map_congr_left fun r hr => Rule.updated_of_forall_ne fun w hw e => h ?_
    rw [List.mem_singleton.1 hw] at e
    exact e ▸ List.mem_map_of_mem hr
  rw [updated, same, List.map_id]

lemma updated_updated {vs : List Rule} (distinct : ((v :: vs).map Rule.id).Nodup) (p : Program) :
    (p.updated [v]).updated vs = p.updated (v :: vs) := by
  simp only [updated, List.map_map, mk.injEq, true_and]
  exact List.map_congr_left fun r _ => Rule.updated_updated distinct r

/-- Setting the rule at its place is replacing it. -/
lemma set_position?_eq (distinct : p.ids.Nodup) (held : v.id ∈ p.ids) :
    p.rules.set ((p.position? v.id).getD p.size) v = p.rules.map (Rule.updated [v]) := by
  obtain ⟨old, hold, e⟩ := List.mem_map.1 held
  cases found : p.position? v.id with
  | none =>
      rw [position?, List.findIdx?_eq_none_iff] at found
      exact absurd e (by simpa using found old hold)
  | some i =>
      obtain ⟨bound, same, -⟩ := List.findIdx?_eq_some_iff_getElem.1 found
      have same : p.rules[i].id = v.id := by simpa using same
      rw [Option.getD_some]
      refine List.ext_getElem (by simp) fun j hj hj' => ?_
      have hj : j < p.rules.length := by simpa using hj
      rw [List.getElem_set, List.getElem_map, Rule.updated_cons, Rule.updated_nil]
      split
      · rename_i place
        subst place
        rw [if_pos same.symm]
      · rename_i place
        refine (if_neg fun e => place ?_).symm
        have bound : i < p.ids.length := by simpa [ids] using bound
        have hj : j < p.ids.length := by simpa [ids] using hj
        have e : p.ids[i] = p.ids[j] := by simp only [ids, List.getElem_map, ← e, same]
        exact distinct.getElem_inj_iff.1 e

/-- **The ways in which a modification ends**, if the new version is one of a rule that there is. -/
theorem modify_outcome (distinct : p.ids.Nodup) (held : v.id ∈ p.ids)
    (nonempty : v.isEmpty = false) :
    (p.Repeats v ∧ ∃ e, p.modify v = .error e ∧ e.IsDuplicate) ∨
      ¬ p.Repeats v ∧ p.modify v = .ok (p.updated [v]) := by
  have fault : p.modificationFault? v =
      (p.rules.find? fun q => q.id ≠ v.id ∧ q.toClause ≈ v.toClause).map fun q =>
        .duplicateModification v.toClause q.id := by
    rw [modificationFault?, nonempty, if_neg (by simp), if_neg (by simpa using held)]
  rw [modify, fault]
  cases found : p.rules.find? fun q => q.id ≠ v.id ∧ q.toClause ≈ v.toClause with
  | none =>
      refine Or.inr ⟨?_, by rw [Option.map_none, set_position?_eq distinct held]; rfl⟩
      rintro ⟨q, hq, apart, e⟩
      exact List.find?_eq_none.1 found q hq (by simp [apart, e])
  | some q =>
      refine Or.inl ⟨⟨q, List.mem_of_find?_eq_some found, ?_⟩, _, rfl, trivial⟩
      simpa using List.find?_some found

/-- Replacing rules repeats nothing, if no version says what another version or rule says. -/
lemma Unrepeated.updated {vs : List Rule} (h : p.Unrepeated) (distinct : p.ids.Nodup)
    (apart : vs.Pairwise fun v w => ¬ v.toClause ≈ w.toClause)
    (fresh : ∀ v ∈ vs, v.id ∈ p.ids → ¬ p.Repeats v) : (p.updated vs).Unrepeated := by
  rw [unrepeated_iff, Program.updated, List.pairwise_map]
  refine ((unrepeated_iff.1 h).and (List.pairwise_map.1 distinct)).imp_of_mem ?_
  intro q r hq hr both same
  obtain ⟨different, ids⟩ := both
  rcases Rule.updated_cases vs q with ⟨e, other⟩ | ⟨hv, e⟩
  · rcases Rule.updated_cases vs r with ⟨e', -⟩ | ⟨hw, e'⟩
    · rw [e, e'] at same
      exact different same
    · rw [e] at same
      refine fresh _ hw (e' ▸ List.mem_map_of_mem hr) ⟨q, hq, ?_, same⟩
      exact Ne.symm (other _ hw)
  · rcases Rule.updated_cases vs r with ⟨e', other⟩ | ⟨hw, e'⟩
    · rw [e'] at same
      refine fresh _ hv (e ▸ List.mem_map_of_mem hq) ⟨r, hr, ?_, Setoid.symm same⟩
      exact Ne.symm (other _ hv)
    · have : Std.Symm fun v w : Rule => ¬ v.toClause ≈ w.toClause :=
        ⟨fun _ _ h e => h (Setoid.symm e)⟩
      refine apart.forall hv hw (fun e'' => ids ?_) same
      rw [← e, ← e', e'']

/-- Whether a version repeats a rule does not depend on replacing another rule, if neither the new
version nor the old one says the same. -/
lemma repeats_updated_iff (new : ¬ v.toClause ≈ w.toClause)
    (old : ∀ q ∈ p.rules, q.id = v.id → ¬ q.toClause ≈ w.toClause) :
    (p.updated [v]).Repeats w ↔ p.Repeats w := by
  constructor
  · rintro ⟨q', hq', apart, e⟩
    obtain ⟨q, hq, rfl⟩ := List.mem_map.1 hq'
    rw [Rule.id_updated] at apart
    rw [Rule.updated_cons] at e
    split at e
    · exact absurd e new
    · exact ⟨q, hq, apart, e⟩
  · rintro ⟨q, hq, apart, e⟩
    refine ⟨q.updated [v], List.mem_map_of_mem hq, by rwa [Rule.id_updated], ?_⟩
    rw [Rule.updated_cons, if_neg fun same => old q hq same.symm e]
    exact e

end Program

end CausalUpdate
