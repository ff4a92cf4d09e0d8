import CausalUpdate.StableModel.Basic
import Mathlib.Order.Bounds.Basic

/-!
# Stable models by reduct

A set of atoms turns rules into a *reduct*: the rules with a default-negated atom in the set go, and
the others lose their default negation.  The set is an answer set when it is the least model of its
own reduct and holds no atom together with its classical negation.  Constraints are rules that no
set satisfies once their body holds, so that they take part in the reduct like all others.

`isStable_iff_least` shows that this is the notion of `IsStable`, where default negation is read off
the set while atoms are derived.
-/

namespace CausalUpdate

/-- The rule without its default negation. -/
def GroundRule.positive (r : GroundRule) : GroundRule :=
  { r with neg := [] }

/-- The rules of which the set holds no default-negated atom, without their default negation. -/
def reduct (rules : List GroundRule) (held : Set String) : Set GroundRule :=
  GroundRule.positive '' {r | r ∈ rules ∧ ∀ b ∈ r.neg, b ∉ held}

/-- The set holds the head of every rule whose positive body it holds; a constraint has no head that
could be held. -/
def IsModelOf (rules : Set GroundRule) (atoms : Set String) : Prop :=
  ∀ r ∈ rules, (∀ b ∈ r.pos, b ∈ atoms) → ∃ a ∈ r.head, a ∈ atoms

/-- The set is the least model of its own reduct, and consistent. -/
structure IsLeastOfReduct (rules : List GroundRule) (held : Set String) : Prop where
  least : IsLeast {atoms | IsModelOf (reduct rules held) atoms} held
  consistent : ∀ a ∈ held, "-" ++ a ∉ held

variable {rules : List GroundRule} {held atoms : Set String}

lemma isModelOf_reduct_iff : IsModelOf (reduct rules held) atoms ↔
    ∀ r ∈ rules, (∀ b ∈ r.neg, b ∉ held) → (∀ b ∈ r.pos, b ∈ atoms) →
      ∃ a ∈ r.head, a ∈ atoms := by
  constructor
  · intro model r mem neg
    exact model r.positive ⟨r, ⟨mem, neg⟩, rfl⟩
  · rintro model _ ⟨r, ⟨mem, neg⟩, rfl⟩
    exact model r mem neg

/-- What can be derived is in every model of the reduct. -/
lemma Derivable.mem_of_isModelOf (model : IsModelOf (reduct rules held) atoms) {a : String}
    (d : Derivable rules (· ∈ held) a) : a ∈ atoms := by
  induction d with
  | rule mem head _ neg ih =>
      obtain ⟨b, hb, hold⟩ := isModelOf_reduct_iff.1 model _ mem neg ih
      rw [head, Option.mem_some_iff] at hb
      rwa [hb]

/-- What can be derived is a model of the reduct, if nothing beyond what is held can be derived and
what is held violates no constraint. -/
lemma isModelOf_derivable (closed : ∀ a, Derivable rules (· ∈ held) a → a ∈ held)
    (constraints : ∀ r ∈ rules, r.head = none → ¬ r.BodyHolds (· ∈ held)) :
    IsModelOf (reduct rules held) {a | Derivable rules (· ∈ held) a} := by
  rw [isModelOf_reduct_iff]
  intro r mem neg pos
  cases head : r.head with
  | none => exact absurd ⟨fun b hb => closed b (pos b hb), neg⟩ (constraints r mem head)
  | some a => exact ⟨a, rfl, .rule mem head pos neg⟩

/-- **The stable models are the least models of their reducts.** -/
theorem isStable_iff_least : IsStable rules (· ∈ held) ↔ IsLeastOfReduct rules held := by
  constructor
  · intro stable
    have model := isModelOf_derivable (fun a => (stable.founded a).2) stable.constraints
    have same : {a | Derivable rules (· ∈ held) a} = held :=
      Set.ext fun a => (stable.founded a).symm
    rw [same] at model
    refine ⟨⟨model, fun atoms hatoms a ha => ?_⟩, fun a ha ha' => stable.consistent a ⟨ha, ha'⟩⟩
    exact ((stable.founded a).1 ha).mem_of_isModelOf hatoms
  · intro h
    have model := isModelOf_reduct_iff.1 h.least.1
    have constraints : ∀ r ∈ rules, r.head = none → ¬ r.BodyHolds (· ∈ held) := by
      rintro r mem head ⟨pos, neg⟩
      obtain ⟨a, ha, -⟩ := model r mem neg pos
      simp [head] at ha
    have closed : ∀ a, Derivable rules (· ∈ held) a → a ∈ held :=
      fun a d => d.mem_of_isModelOf h.least.1
    refine ⟨fun a => ⟨fun ha => ?_, closed a⟩, constraints, fun a ha => h.consistent a ha.1 ha.2⟩
    exact h.least.2 (isModelOf_derivable closed constraints) ha

end CausalUpdate
