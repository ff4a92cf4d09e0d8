import CausalUpdate.Proofs.Literal.Text
import CausalUpdate.Rule.Basic
import Mathlib.Data.Finset.Option
import Mathlib.Data.Finset.Powerset
import Mathlib.Data.Finset.Prod

/-!
# The weight of a clause

Clauses are compared up to the order, the number and the spelling of their body literals.  What is
left of a clause is its *key*: the class of its head, and a set of classes for either body.  Over a
given number of literals there are only so many keys, and a clause can only be so heavy.

* `Clause.weight` — one more than the number of different literals in either body.
* `Clause.key_eq_iff` — equivalent clauses are those with the same key.
* `card_keysOver` — how many keys there are.
-/

namespace CausalUpdate

/-! ## Classes of literals -/

namespace Literal

/-- Literals up to the order and the number of their terms. -/
abbrev Class : Type :=
  Quotient (inferInstance : Setoid Literal)

/-- The classes of the literals of a list. -/
def classes (ls : List Literal) : Finset Class :=
  (ls.map fun l => (⟦l⟧ : Class)).toFinset

variable {l : Literal} {ls ms : List Literal}

lemma mem_classes : (⟦l⟧ : Class) ∈ classes ls ↔ l.Among ls := by
  rw [classes, List.mem_toFinset, List.mem_map]
  constructor
  · rintro ⟨m, hm, e⟩
    exact ⟨m, hm, Setoid.symm (Quotient.exact e)⟩
  · rintro ⟨m, hm, e⟩
    exact ⟨m, hm, Quotient.sound (Setoid.symm e)⟩

lemma classes_subset_iff : classes ls ⊆ classes ms ↔ AllAmong ls ms := by
  constructor
  · exact fun h l hl => mem_classes.1 (h (mem_classes.2 (among_of_mem hl)))
  · intro h x hx
    obtain ⟨l, hl, rfl⟩ := List.mem_map.1 (List.mem_toFinset.1 hx)
    exact mem_classes.2 (h l hl)

lemma classes_eq_iff : classes ls = classes ms ↔ SameSet ls ms := by
  rw [Finset.Subset.antisymm_iff, classes_subset_iff, classes_subset_iff, SameSet]

lemma card_classes_of_pairwise (h : ls.Pairwise fun a b => ¬ a ≈ b) :
    (classes ls).card = ls.length := by
  have nodup : (ls.map fun l => (⟦l⟧ : Class)).Nodup :=
    List.pairwise_map.2 (h.imp fun apart e => apart (Quotient.exact e))
  rw [classes, List.toFinset_card_of_nodup nodup, List.length_map]

/-- There are as many classes as there are distinct literals. -/
lemma card_classes (ls : List Literal) : (classes ls).card = (distinct ls).length := by
  have same : classes (distinct ls) = classes ls := by
    refine classes_eq_iff.2 ⟨fun l hl => among_of_mem (mem_of_mem_distinct hl), fun l hl => ?_⟩
    exact among_distinct.2 (among_of_mem hl)
  rw [← same, card_classes_of_pairwise (pairwise_distinct ls)]

/-- Of literals no two of which are equivalent, there are no more than of others among which they
are. -/
lemma length_le_of_allAmong (apart : ls.Pairwise fun a b => ¬ a ≈ b) (among : AllAmong ls ms) :
    ls.length ≤ ms.length := by
  rw [← card_classes_of_pairwise apart]
  refine (Finset.card_le_card (classes_subset_iff.2 among)).trans ?_
  rw [classes, ← List.length_map fun l => (⟦l⟧ : Class)]
  exact List.toFinset_card_le _

end Literal

/-! ## Clauses -/

namespace Clause

open Literal (classes)

/-- One more than the number of different literals in either body. -/
def weight (c : Clause) : Nat :=
  1 + (Literal.distinct c.body).length + (Literal.distinct c.negBody).length

lemma weight_eq (c : Clause) : c.weight = 1 + (classes c.body).card + (classes c.negBody).card := by
  rw [weight, Literal.card_classes, Literal.card_classes]

/-- What is left of a clause when equivalent ones are not told apart. -/
def key (c : Clause) : Option Literal.Class × Finset Literal.Class × Finset Literal.Class :=
  (c.head.map fun l => ⟦l⟧, classes c.body, classes c.negBody)

variable {c d : Clause}

/-- **Equivalent clauses are those with the same key.** -/
theorem key_eq_iff : c.key = d.key ↔ c ≈ d := by
  have heads : (c.head.map fun l => (⟦l⟧ : Literal.Class)) = (d.head.map fun l => ⟦l⟧) ↔
      SameHead c.head d.head := by
    cases c.head with
    | none => cases d.head <;> simp [SameHead]
    | some l =>
        cases d.head with
        | none => simp [SameHead]
        | some m => simp only [Option.map_some, Option.some.injEq, Quotient.eq, SameHead]
  rw [key, key, Prod.mk.injEq, Prod.mk.injEq, heads, Literal.classes_eq_iff, Literal.classes_eq_iff]
  exact Iff.rfl

lemma weight_congr (e : c ≈ d) : c.weight = d.weight := by
  rw [weight_eq, weight_eq, Literal.classes_eq_iff.2 e.2.1, Literal.classes_eq_iff.2 e.2.2]

/-- A clause with one more literal in its bodies is heavier. -/
lemma weight_lt (body : ∀ l ∈ c.body, l.Among d.body) (negBody : ∀ l ∈ c.negBody, l.Among d.negBody)
    (more : (∃ l ∈ d.body, ¬ l.Among c.body) ∨ ∃ l ∈ d.negBody, ¬ l.Among c.negBody) :
    c.weight < d.weight := by
  have pos := Literal.classes_subset_iff.2 body
  have neg := Literal.classes_subset_iff.2 negBody
  have smaller : ∀ {ls ms : List Literal}, classes ls ⊆ classes ms → (∃ l ∈ ms, ¬ l.Among ls) →
      (classes ls).card < (classes ms).card := by
    rintro ls ms sub ⟨l, hl, new⟩
    refine Finset.card_lt_card ⟨sub, fun back => new ?_⟩
    exact Literal.mem_classes.1 (back (Literal.mem_classes.2 (Literal.among_of_mem hl)))
  have pos_le := Finset.card_le_card pos
  have neg_le := Finset.card_le_card neg
  rw [weight_eq, weight_eq]
  rcases more with more | more
  · have lt := smaller pos more
    omega
  · have lt := smaller neg more
    omega

/-! ## Clauses over given literals -/

/-- The keys of clauses over some classes of literals. -/
def keysOver (base : Finset Literal.Class) :
    Finset (Option Literal.Class × Finset Literal.Class × Finset Literal.Class) :=
  base.insertNone ×ˢ base.powerset ×ˢ base.powerset

lemma card_keysOver (base : Finset Literal.Class) :
    (keysOver base).card = (base.card + 1) * (2 ^ base.card * 2 ^ base.card) := by
  rw [keysOver, Finset.card_product, Finset.card_product, Finset.card_insertNone,
    Finset.card_powerset]

section

variable {base : List Literal} (inside : Literal.AllAmong c.literals base)

include inside

lemma allAmong_bodies : Literal.AllAmong c.body base ∧ Literal.AllAmong c.negBody base :=
  ⟨fun l hl => inside l (by simp [literals, completeBody, hl]),
    fun l hl => inside l (by simp [literals, completeBody, hl])⟩

lemma key_mem_keysOver : c.key ∈ keysOver (classes base) := by
  obtain ⟨body, negBody⟩ := allAmong_bodies inside
  simp only [keysOver, key, Finset.mem_product, Finset.mem_powerset, Literal.classes_subset_iff]
  refine ⟨Finset.mem_insertNone.2 fun x hx => ?_, body, negBody⟩
  obtain ⟨l, hl, rfl⟩ := Option.map_eq_some_iff.1 (Option.mem_def.1 hx)
  exact Literal.mem_classes.2 (inside l (by simp [literals, hl]))

/-- A clause over given literals weighs no more than all of them in either body. -/
lemma weight_le : c.weight ≤ 1 + 2 * (classes base).card := by
  obtain ⟨body, negBody⟩ := allAmong_bodies inside
  have pos := Finset.card_le_card (Literal.classes_subset_iff.2 body)
  have neg := Finset.card_le_card (Literal.classes_subset_iff.2 negBody)
  rw [weight_eq]
  omega

end

/-- **There are only so many clauses over given literals**, if no two of them are equivalent. -/
theorem length_le {cs : List Clause} {base : List Literal}
    (apart : cs.Pairwise fun c d => ¬ c ≈ d) (inside : ∀ c ∈ cs, Literal.AllAmong c.literals base) :
    cs.length ≤
      ((classes base).card + 1) * (2 ^ (classes base).card * 2 ^ (classes base).card) := by
  have nodup : (cs.map key).Nodup :=
    List.pairwise_map.2 (apart.imp fun h e => h (key_eq_iff.1 e))
  rw [← card_keysOver, ← List.length_map key, ← List.toFinset_card_of_nodup nodup]
  refine Finset.card_le_card fun k hk => ?_
  obtain ⟨c, hc, rfl⟩ := List.mem_map.1 (List.mem_toFinset.1 hk)
  exact key_mem_keysOver (inside c hc)

end Clause

end CausalUpdate
