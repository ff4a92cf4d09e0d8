import CausalUpdate.Work
import Mathlib.Tactic.Common

/-!
# Running work

How the parts of a piece of work share the ledger, and what an operation can do to the supply of
identifiers: it only ever grows.
-/

namespace CausalUpdate

variable {ε α β : Type}

lemma Work.bind_apply (x : Work α) (f : α → Work β) (g : Ledger) :
    (x >>= f) g = f (x g).1 (x g).2 :=
  rfl

/-- A result is made of results. -/
lemma Except.bind_ok {x : Except ε α} {f : α → Except ε β} {b : β} (h : x >>= f = .ok b) :
    ∃ a, x = .ok a ∧ f a = .ok b := by
  cases x with
  | error e => cases h
  | ok a => exact ⟨a, rfl, h⟩

/-- A failure is that of a part. -/
lemma Except.bind_error {x : Except ε α} {f : α → Except ε β} {e : ε} (h : x >>= f = .error e) :
    x = .error e ∨ ∃ a, x = .ok a ∧ f a = .error e := by
  cases x with
  | error e' =>
      cases h
      exact Or.inl rfl
  | ok a => exact Or.inr ⟨a, rfl, h⟩

lemma Except.map_eq_ok_iff {x : Except ε α} {f : α → β} {b : β} :
    x.map f = .ok b ↔ ∃ a, x = .ok a ∧ f a = b := by
  cases x <;> simp [Except.map]

lemma Except.map_eq_error_iff {x : Except ε α} {f : α → β} {e : ε} :
    x.map f = .error e ↔ x = .error e := by
  cases x <;> simp [Except.map]

namespace Attempt

lemma run_bind (x : Attempt ε α) (f : α → Attempt ε β) (g : Ledger) :
    (x >>= f).run g = match x.run g with
      | (.ok a, g') => (f a).run g'
      | (.error e, g') => (.error e, g') := by
  show (ExceptT.bindCont f (x.run g).1) (x.run g).2 = _
  rcases x.run g with ⟨_ | _, _⟩ <;> rfl

/-- Work whose result is known goes on with it. -/
lemma run_bind_pure {x : Attempt ε α} {g : Ledger} {a : α} (known : (x.run g).1 = .ok a)
    (f : α → β) : (x >>= fun a => pure (f a)).run g = (.ok (f a), (x.run g).2) := by
  rw [run_bind]
  rcases run : x.run g with ⟨r, g'⟩
  rw [run] at known
  obtain rfl : r = .ok a := known
  rfl

/-- Work that succeeds has parts that succeed. -/
lemma bind_ok {x : Attempt ε α} {f : α → Attempt ε β} {g g' : Ledger} {b : β}
    (h : (x >>= f).run g = (.ok b, g')) :
    ∃ a g₁, x.run g = (.ok a, g₁) ∧ (f a).run g₁ = (.ok b, g') := by
  rw [run_bind] at h
  rcases hx : x.run g with ⟨e | a, g₁⟩
  · rw [hx] at h
    cases h
  · rw [hx] at h
    exact ⟨a, g₁, rfl, h⟩

lemma run_outcome {ε' : Type} (x : Attempt ε α) (g : Ledger) :
    (Attempt.outcome x : Attempt ε' (Except ε α)).run g = (.ok (x.run g).1, (x.run g).2) :=
  rfl

lemma run_of (x : Except ε α) (g : Ledger) : (Attempt.of x).run g = (x, g) := by
  cases x <;> rfl

end Attempt

end CausalUpdate
