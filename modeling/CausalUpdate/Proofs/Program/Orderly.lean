import CausalUpdate.Proofs.Program.Gathering
import Mathlib.Data.List.Flatten
import Mathlib.Data.List.Nodup

/-!
# Orderly programs

What keeps the rules of a sequence apart, whatever they speak of: no two have the same identifier,
all identifiers come from the supply, no rule is empty, and no program says anything twice.
Programs that are merged keep this, and the rules are still the same.

* `Program.Unrepeated` — programs that say nothing twice.
* `Orderly` — sequences of such programs.
* `Orderly.merge` — what merging the first programs does.
-/

namespace CausalUpdate

/-! ## The rules of several programs -/

/-- The rules of several programs. -/
def rulesOf (ps : List Program) : List Rule :=
  ps.flatMap Program.rules

lemma mem_rulesOf {ps : List Program} {r : Rule} : r ∈ rulesOf ps ↔ ∃ p ∈ ps, r ∈ p.rules :=
  List.mem_flatMap

@[simp] lemma rulesOf_nil : rulesOf [] = [] :=
  rfl

@[simp] lemma rulesOf_cons (p : Program) (ps : List Program) :
    rulesOf (p :: ps) = p.rules ++ rulesOf ps :=
  List.flatMap_cons

@[simp] lemma rulesOf_append (ps qs : List Program) :
    rulesOf (ps ++ qs) = rulesOf ps ++ rulesOf qs :=
  List.flatMap_append

/-! ## Programs that say nothing twice -/

/-- No two rules of the program are equivalent. -/
def Program.Unrepeated (p : Program) : Prop :=
  p.clauses.Pairwise fun c d => ¬ c ≈ d

lemma Program.unrepeated_iff {p : Program} :
    p.Unrepeated ↔ p.rules.Pairwise fun q r => ¬ q.toClause ≈ r.toClause :=
  List.pairwise_map

lemma Program.Unrepeated.push {p : Program} {r : Rule} (h : p.Unrepeated)
    (wanted : ¬ p.Refuses r.toClause) : (p.push r).Unrepeated := by
  rw [Unrepeated, clauses_push]
  refine List.pairwise_append.2 ⟨h, List.pairwise_singleton _ _, fun c hc d hd e => ?_⟩
  rw [List.mem_singleton.1 hd] at e
  exact wanted (Or.inr ⟨c, hc, e⟩)

/-- **Gathering repeats nothing.** -/
lemma Gathers.unrepeated {p q : Program} {n n' : Nat} {rs : List Rule} (h : Gathers p n rs q n')
    (hp : p.Unrepeated) : q.Unrepeated := by
  induction h with
  | nil => exact hp
  | refused _ _ ih => exact ih hp
  | asIs wanted _ _ ih => exact ih (hp.push wanted)
  | renumbered wanted _ _ ih => exact ih (hp.push wanted)

/-! ## Sequences -/

/-- The rules of the programs have identifiers of their own from the supply, of which `next` comes
next, none of them is empty, and no program says anything twice. -/
structure Orderly (next : Nat) (ps : List Program) : Prop where
  distinct : ((rulesOf ps).map Rule.id).Nodup
  numbered : ∀ r ∈ rulesOf ps, 0 < r.id ∧ r.id < next
  nonempty : ∀ r ∈ rulesOf ps, r.isEmpty = false
  unrepeated : ∀ p ∈ ps, p.Unrepeated

namespace Orderly

variable {next next' : Nat} {ps : List Program} {p : Program} {a b : Rule}

lemma mono (h : Orderly next ps) (le : next ≤ next') : Orderly next' ps :=
  ⟨h.distinct, fun r hr => ⟨(h.numbered r hr).1, by have := (h.numbered r hr).2; omega⟩,
    h.nonempty, h.unrepeated⟩

/-- An identifier belongs to one rule only. -/
lemma eq_of_id_eq (h : Orderly next ps) (ha : a ∈ rulesOf ps) (hb : b ∈ rulesOf ps)
    (e : a.id = b.id) : a = b :=
  List.inj_on_of_nodup_map h.distinct ha hb e

lemma ids_nodup (h : Orderly next ps) (hp : p ∈ ps) : p.ids.Nodup := by
  obtain ⟨before, after, rfl⟩ := List.append_of_mem hp
  have distinct := h.distinct
  rw [rulesOf_append, rulesOf_cons, List.map_append, List.map_append] at distinct
  exact (List.nodup_append.1 (List.nodup_append.1 distinct).2.1).1

/-- A rule that is also in a later program would have its identifier twice. -/
lemma disjoint {front back : List Program} (h : Orderly next (front ++ back))
    (ha : a ∈ rulesOf front) (hb : b ∈ rulesOf back) : a.id ≠ b.id := by
  have distinct := h.distinct
  rw [rulesOf_append, List.map_append] at distinct
  exact (List.nodup_append.1 distinct).2.2 _ (List.mem_map_of_mem ha) _ (List.mem_map_of_mem hb)

/-- An identifier is held by one program only. -/
lemma countP_holders (h : Orderly next ps) (ha : a ∈ rulesOf ps) :
    ps.countP (fun p => a.id ∈ p.ids) = 1 := by
  obtain ⟨p, hp, hr⟩ := mem_rulesOf.1 ha
  obtain ⟨before, after, rfl⟩ := List.append_of_mem hp
  have elsewhere : ∀ {qs : List Program}, (∀ b ∈ rulesOf qs, a.id ≠ b.id) →
      qs.countP (fun p => a.id ∈ p.ids) = 0 := by
    intro qs apart
    refine List.countP_eq_zero.2 fun q hq held => ?_
    obtain ⟨b, hb, e⟩ := List.mem_map.1 (of_decide_eq_true held)
    exact apart b (mem_rulesOf.2 ⟨q, hq, hb⟩) e.symm
  have held : a.id ∈ p.ids := List.mem_map_of_mem hr
  rw [List.countP_append, List.countP_cons_of_pos (by simpa using held),
    elsewhere fun b hb e => h.disjoint hb (by simp [hr]) e.symm, elsewhere fun b hb => ?_]
  rw [List.append_cons] at h
  exact h.disjoint (by simp [hr]) hb

/-- The order of the programs does not matter. -/
lemma perm {qs : List Program} (h : Orderly next ps) (perm : ps.Perm qs) : Orderly next qs := by
  have rules : (rulesOf ps).Perm (rulesOf qs) := perm.flatMap_right Program.rules
  exact ⟨(rules.map Rule.id).nodup_iff.1 h.distinct, fun r hr => h.numbered r (rules.mem_iff.2 hr),
    fun r hr => h.nonempty r (rules.mem_iff.2 hr), fun p hp => h.unrepeated p (perm.mem_iff.2 hp)⟩

/-- Some of the programs are orderly as well. -/
lemma sublist {qs : List Program} (h : Orderly next ps) (sub : qs.Sublist ps) :
    Orderly next qs := by
  have rules : (rulesOf qs).Sublist (rulesOf ps) := sub.flatMap Program.rules
  exact ⟨h.distinct.sublist (rules.map Rule.id), fun r hr => h.numbered r (rules.subset hr),
    fun r hr => h.nonempty r (rules.subset hr), fun p hp => h.unrepeated p (sub.subset hp)⟩

/-- **Merging the first programs changes no rule**, and every rule is there afterwards or an
equivalent one. -/
theorem merge {qs rest : List Program} {m : Program} {name : Option String} {g g' : Ledger}
    (h : Orderly next (p :: qs ++ rest))
    (run : (Program.merge (p :: qs) name).run g = (.ok m, g')) :
    Orderly next (m :: rest) ∧ (∀ r ∈ m.rules, r ∈ rulesOf (p :: qs)) ∧
      ∀ r ∈ rulesOf (p :: qs), ∃ d ∈ m.rules, d.toClause ≈ r.toClause := by
  obtain ⟨m', g₁, run', gathers⟩ := merge_gathers p qs name g fun q hq r hr =>
    h.nonempty r (mem_rulesOf.2 ⟨q, by simp [hq], hr⟩)
  rw [run] at run'
  cases run'
  have split : (rulesOf (p :: qs ++ rest)).map Rule.id =
      (p.rules.map Rule.id ++ (rulesOf qs).map Rule.id) ++ (rulesOf rest).map Rule.id := by
    simp [rulesOf]
  have distinct := h.distinct
  rw [split] at distinct
  obtain ⟨first, others, apart⟩ := List.nodup_append.1 distinct
  obtain ⟨-, nodup, same⟩ := gathers.mem_rules first
  have same : ∀ r ∈ m.rules, r ∈ rulesOf (p :: qs) := by
    intro r hr
    rw [rulesOf_cons, List.mem_append]
    exact same r hr
  have old : ∀ r ∈ rulesOf (m :: rest), r ∈ rulesOf (p :: qs ++ rest) := by
    intro r hr
    rw [rulesOf_cons, List.mem_append] at hr
    rw [rulesOf_append, List.mem_append]
    exact hr.imp (same r) id
  refine ⟨⟨?_, fun r hr => h.numbered r (old r hr), fun r hr => h.nonempty r (old r hr), ?_⟩,
    same, fun r hr => ?_⟩
  · rw [rulesOf_cons, List.map_append]
    refine List.nodup_append.2 ⟨nodup, others, fun i hi j hj => ?_⟩
    obtain ⟨r, hr, rfl⟩ := List.mem_map.1 hi
    refine apart r.id ?_ j hj
    rw [← List.map_append, ← rulesOf_cons]
    exact List.mem_map_of_mem (same r hr)
  · refine List.forall_mem_cons.2 ⟨?_, fun q hq => h.unrepeated q (by simp [hq])⟩
    exact gathers.unrepeated (h.unrepeated p (by simp))
  · have covered : ∃ c ∈ m.clauses, c ≈ r.toClause := by
      rw [rulesOf_cons, List.mem_append] at hr
      rcases hr with hr | hr
      · exact ⟨_, gathers.clauses_prefix.subset (List.mem_map_of_mem hr), Setoid.refl _⟩
      · obtain ⟨q, hq, hr'⟩ := mem_rulesOf.1 hr
        refine gathers.covers hr (h.nonempty r ?_)
        exact mem_rulesOf.2 ⟨q, by simp [hq], hr'⟩
    obtain ⟨c, hc, e⟩ := covered
    obtain ⟨d, hd, rfl⟩ := List.mem_map.1 hc
    exact ⟨d, hd, e⟩

/-- What programs are merged into does not depend on the supply. -/
theorem merge_unique {qs rest : List Program} {m m' : Program} {name : Option String}
    {g g' k k' : Ledger} (h : Orderly next (p :: qs ++ rest))
    (run : (Program.merge (p :: qs) name).run g = (.ok m, g'))
    (run' : (Program.merge (p :: qs) name).run k = (.ok m', k')) : m = m' := by
  have distinct := h.distinct
  rw [rulesOf_append, rulesOf_cons, List.map_append, List.map_append] at distinct
  exact (mergeInto_gathers run).unique (mergeInto_gathers run') (List.nodup_append.1 distinct).1

end Orderly

/-- Programs are orderly together if either part of them is, and no identifier is in both. -/
lemma orderly_append {next : Nat} {ps qs : List Program} : Orderly next (ps ++ qs) ↔
    Orderly next ps ∧ Orderly next qs ∧ ∀ a ∈ rulesOf ps, ∀ b ∈ rulesOf qs, a.id ≠ b.id := by
  constructor
  · intro h
    exact ⟨h.sublist (List.sublist_append_left _ _),
      h.sublist (List.sublist_append_right _ _), fun a ha b hb => h.disjoint ha hb⟩
  · rintro ⟨h, k, apart⟩
    have either : ∀ {P : Rule → Prop}, (∀ r ∈ rulesOf ps, P r) → (∀ r ∈ rulesOf qs, P r) →
        ∀ r ∈ rulesOf (ps ++ qs), P r := by
      intro P hp hq r hr
      rw [rulesOf_append, List.mem_append] at hr
      exact hr.elim (hp r) (hq r)
    refine ⟨?_, either h.numbered k.numbered, either h.nonempty k.nonempty,
      List.forall_mem_append.2 ⟨h.unrepeated, k.unrepeated⟩⟩
    rw [rulesOf_append, List.map_append]
    refine List.nodup_append.2 ⟨h.distinct, k.distinct, fun i hi j hj => ?_⟩
    obtain ⟨a, ha, rfl⟩ := List.mem_map.1 hi
    obtain ⟨b, hb, rfl⟩ := List.mem_map.1 hj
    exact apart a ha b hb

end CausalUpdate
