import CausalUpdate.StableModel.Search
import Mathlib.Tactic.Common

/-!
# Forward chaining

Forward chaining gives the atoms that follow from rules whose negative bodies are taken for true.
`Closure` says so as an inductive predicate, and `mem_saturate_iff` that the rounds of `saturate`
reach it.  Both bounds of a decision and the check of a candidate are closures of this kind.

* `derivable_iff_closure` — what a candidate derives is the closure of its reduct.
* `checkStable_iff` — the check of a candidate decides whether it is a stable model.
-/

namespace CausalUpdate

/-- The atom follows from the known ones by the rules, negation apart. -/
inductive Closure (rules : List GroundRule) (known : String → Prop) : String → Prop
  | base {a : String} (h : known a) : Closure rules known a
  | rule {r : GroundRule} {a : String} (mem : r ∈ rules) (head : r.head = some a)
      (pos : ∀ b ∈ r.pos, Closure rules known b) : Closure rules known a

section

variable {rules others : List GroundRule} {known more : String → Prop} {a : String}

lemma Closure.mono (hr : ∀ r ∈ rules, r.head.isSome → r ∈ others) (hk : ∀ b, known b → more b)
    (h : Closure rules known a) : Closure others more a := by
  induction h with
  | base h => exact .base (hk _ h)
  | rule mem head _ ih => exact .rule (hr _ mem (by rw [head]; rfl)) head ih

/-! ## Rounds -/

lemma firesIn_iff {r : GroundRule} {known : List String} :
    r.firesIn known = true ↔ ∀ b ∈ r.pos, b ∈ known := by
  simp [GroundRule.firesIn]

lemma mem_addHead {known : List String} {r : GroundRule} :
    a ∈ addHead known r ↔ a ∈ known ∨ r.head = some a := by
  unfold addHead
  cases hr : r.head with
  | none => simp
  | some b =>
      by_cases hb : b ∈ known
      · simp only [hb, List.contains_iff_mem, if_true, Option.some.injEq]
        exact ⟨Or.inl, fun h => h.elim id fun e => e ▸ hb⟩
      · simp only [hb, List.contains_iff_mem, if_false, List.mem_cons, Option.some.injEq]
        rw [or_comm, eq_comm]

lemma mem_foldl_addHead {known : List String} :
    a ∈ rules.foldl addHead known ↔ a ∈ known ∨ ∃ r ∈ rules, r.head = some a := by
  induction rules generalizing known with
  | nil => simp
  | cons r rules ih =>
      rw [List.foldl_cons, ih, mem_addHead, or_assoc]
      simp

lemma nodup_foldl_addHead {known : List String} (h : known.Nodup) :
    (rules.foldl addHead known).Nodup := by
  induction rules generalizing known with
  | nil => exact h
  | cons r rules ih =>
      rw [List.foldl_cons]
      refine ih ?_
      unfold addHead
      split
      · exact h
      · split
        · exact h
        · rename_i hb
          exact List.nodup_cons.2 ⟨by simpa using hb, h⟩

/-- A round takes nothing away from what follows, and adds nothing to it. -/
lemma closure_round {pending : List GroundRule} {known : List String} :
    Closure (waiting pending known) (· ∈ (firing pending known).foldl addHead known) a ↔
      Closure pending (· ∈ known) a := by
  constructor
  · intro h
    induction h with
    | base h =>
        rcases mem_foldl_addHead.1 h with h | ⟨r, hr, head⟩
        · exact .base h
        · have hr := List.mem_filter.1 hr
          exact .rule hr.1 head fun b hb => .base (firesIn_iff.1 hr.2 b hb)
    | rule mem head _ ih => exact .rule (List.mem_filter.1 mem).1 head ih
  · intro h
    induction h with
    | base h => exact .base (mem_foldl_addHead.2 (Or.inl h))
    | @rule r a mem head _ ih =>
        by_cases fires : r.firesIn known
        · exact .base (mem_foldl_addHead.2 (Or.inr ⟨r, List.mem_filter.2 ⟨mem, fires⟩, head⟩))
        · exact .rule (List.mem_filter.2 ⟨mem, by simp [fires]⟩) head ih

/-- **Forward chaining reaches what follows.** -/
theorem mem_saturate_iff {pending : List GroundRule} {known : List String} :
    a ∈ saturate pending known ↔ Closure pending (· ∈ known) a := by
  fun_induction saturate pending known with
  | case1 pending known stop =>
      refine ⟨.base, fun h => ?_⟩
      have none_fires : ∀ r ∈ pending, ¬ r.firesIn known := by
        simpa [firing, List.filter_eq_nil_iff] using stop
      induction h with
      | base h => exact h
      | rule mem _ _ ih => exact absurd (firesIn_iff.2 ih) (none_fires _ mem)
  | case2 pending known _ ih => rw [ih, closure_round]

lemma nodup_saturate {pending : List GroundRule} {known : List String} (h : known.Nodup) :
    (saturate pending known).Nodup := by
  fun_induction saturate pending known with
  | case1 => exact h
  | case2 pending known _ ih => exact ih (nodup_foldl_addHead h)

/-! ## Candidates -/

/-- What a candidate derives is what follows from its reduct. -/
theorem derivable_iff_closure {atoms : List String} : Derivable rules (· ∈ atoms) a ↔
    Closure (rules.filter fun r => !r.neg.any atoms.contains) (· ∈ ([] : List String)) a := by
  constructor
  · intro h
    induction h with
    | rule mem head _ neg ih =>
        exact .rule (List.mem_filter.2 ⟨mem, by simpa using neg⟩) head ih
  · intro h
    induction h with
    | base h => exact absurd h List.not_mem_nil
    | rule mem head _ ih =>
        have mem := List.mem_filter.1 mem
        exact .rule mem.1 head ih (by simpa using mem.2)

lemma hasClash_iff {atoms : List String} :
    hasClash atoms = true ↔ ∃ a ∈ atoms, "-" ++ a ∈ atoms := by
  simp [hasClash]

/-- **The check of a candidate decides whether it is a stable model.** -/
theorem checkStable_iff {atoms : List String} :
    checkStable rules atoms = true ↔ IsStable rules (· ∈ atoms) := by
  have derived : ∀ a, a ∈ saturate (rules.filter fun r => !r.neg.any atoms.contains) [] ↔
      Derivable rules (· ∈ atoms) a := fun a => by rw [mem_saturate_iff, derivable_iff_closure]
  have clash : (!hasClash atoms) = true ↔ ∀ a, ¬ (a ∈ atoms ∧ "-" ++ a ∈ atoms) := by
    rw [Bool.not_eq_true', ← Bool.not_eq_true, hasClash_iff]
    simp
  have violated : (∀ r ∈ rules, (r.head.isSome || !r.firesIn atoms ||
      r.neg.any atoms.contains) = true) ↔
        ∀ r ∈ rules, r.head = none → ¬ r.BodyHolds (· ∈ atoms) := by
    refine forall₂_congr fun r _ => ?_
    rw [Bool.or_eq_true, Bool.or_eq_true, Bool.not_eq_true', ← Bool.not_eq_true, firesIn_iff,
      GroundRule.BodyHolds, ← Option.not_isSome_iff_eq_none]
    simp only [List.any_eq_true, List.contains_iff_mem]
    grind
  simp only [checkStable, Bool.and_eq_true, List.all_eq_true, List.contains_iff_mem]
  rw [clash, violated]
  constructor
  · rintro ⟨⟨⟨sound, complete⟩, consistent⟩, constraints⟩
    exact ⟨fun a => ⟨fun h => (derived a).1 (complete a h), fun h => sound a ((derived a).2 h)⟩,
      constraints, consistent⟩
  · intro h
    exact ⟨⟨⟨fun a ha => (h.founded a).2 ((derived a).1 ha),
      fun a ha => (derived a).2 ((h.founded a).1 ha)⟩, h.consistent⟩, h.constraints⟩

end

end CausalUpdate
