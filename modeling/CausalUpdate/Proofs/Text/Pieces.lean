import CausalUpdate.Text.Pieces
import Mathlib.Tactic.Common

/-!
# Cutting what was joined

A text that has no separator outside parentheses, and whose parentheses are balanced, comes through
a cut in one piece.  `Unbroken` says so of a text in front of any other one, so that texts can be
put together from such parts, and `topLevelPieces_intercalate` is what it is for: texts that are
joined by a separator are cut back into themselves.
-/

namespace CausalUpdate.Text

/-- There is nothing to cut without the separator. -/
lemma pieces_of_not_mem {separator : Char} {cs : List Char} (h : separator ∉ cs) :
    pieces (· = separator) cs = [cs] := by
  induction cs with
  | nil => rfl
  | cons c cs ih =>
      have other : c ≠ separator := fun e => h (e ▸ List.mem_cons_self)
      rw [pieces, ih (List.not_mem_of_not_mem_cons h)]
      simp [other]

/-- A text without the first character of a mark is not cut at it. -/
lemma piecesAt_of_not_mem {a b : Char} {cs : List Char} (h : a ∉ cs) :
    piecesAt a b cs = [cs] := by
  fun_induction piecesAt a b cs with
  | case1 => rfl
  | case2 => rfl
  | case3 c d cs mark => exact absurd List.mem_cons_self (mark.1 ▸ h)
  | case4 c d cs _ ih =>
      rw [ih (List.not_mem_of_not_mem_cons h)]
      rfl

/-- The text comes through a cut at these separators in one piece, whatever stands behind it. -/
def Unbroken (separators xs : List Char) : Prop :=
  ∀ ys, topLevelPiecesFrom separators 0 (xs ++ ys) =
    (topLevelPiecesFrom separators 0 ys).map (List.modifyHead (xs ++ ·))

/-- The character neither opens nor closes a parenthesis. -/
def isFlat (c : Char) : Bool :=
  c != '(' && c != ')'

lemma depthAfter_flat {c : Char} (h : isFlat c) (depth : Nat) :
    depthAfter depth c = some depth := by
  simp only [isFlat, Bool.and_eq_true, bne_iff_ne, ne_eq] at h
  unfold depthAfter
  split
  · exact absurd rfl h.1
  · exact absurd rfl h.2
  · rfl

lemma modifyHead_append_append (xs ys : List Char) (ps : List (List Char)) :
    (ps.modifyHead (ys ++ ·)).modifyHead (xs ++ ·) = ps.modifyHead ((xs ++ ys) ++ ·) := by
  cases ps <;> simp

/-- Characters without parentheses join the piece behind them, unless one of them cuts at this
depth. -/
lemma topLevelPiecesFrom_flat (separators : List Char) (depth : Nat) (xs ys : List Char)
    (flat : ∀ c ∈ xs, isFlat c) (uncut : depth = 0 → ∀ c ∈ xs, c ∉ separators) :
    topLevelPiecesFrom separators depth (xs ++ ys) =
      (topLevelPiecesFrom separators depth ys).map (List.modifyHead (xs ++ ·)) := by
  induction xs with
  | nil =>
      have : (List.modifyHead fun p : List Char => p) = id := by
        funext ps
        cases ps <;> rfl
      simp [this]
  | cons c xs ih =>
      have hc : (decide (depth = 0) && separators.contains c) = false := by
        by_cases h : depth = 0
        · simp [h, uncut h c (by simp)]
        · simp [h]
      rw [List.cons_append, topLevelPiecesFrom, depthAfter_flat (flat c (by simp))]
      simp only [hc]
      rw [ih (fun d hd => flat d (by simp [hd])) (fun h d hd => uncut h d (by simp [hd])),
        Option.map_map]
      congr 1
      funext ps
      cases ps <;> rfl

namespace Unbroken

variable {separators : List Char}

lemma nil : Unbroken separators [] := by
  intro ys
  simpa using topLevelPiecesFrom_flat separators 0 [] ys (by simp) (by simp)

/-- Texts without parentheses and separators are unbroken. -/
lemma of_flat {xs : List Char} (flat : ∀ c ∈ xs, isFlat c) (uncut : ∀ c ∈ xs, c ∉ separators) :
    Unbroken separators xs :=
  fun ys => topLevelPiecesFrom_flat separators 0 xs ys flat fun _ => uncut

lemma append {xs ys : List Char} (hx : Unbroken separators xs) (hy : Unbroken separators ys) :
    Unbroken separators (xs ++ ys) := by
  intro zs
  rw [List.append_assoc, hx, hy, Option.map_map]
  congr 1
  funext ps
  exact modifyHead_append_append xs ys ps

/-- A group between parentheses is unbroken, also if separators stand inside. -/
lemma parenthesized {xs : List Char} (closing : ')' ∉ separators) (flat : ∀ c ∈ xs, isFlat c) :
    Unbroken separators ('(' :: (xs ++ [')'])) := by
  intro ys
  have inside := topLevelPiecesFrom_flat separators 1 xs (')' :: ys) flat (by simp)
  have closed : topLevelPiecesFrom separators 1 (')' :: ys) =
      (topLevelPiecesFrom separators 0 ys).map (List.modifyHead (')' :: ·)) := by
    simp [topLevelPiecesFrom, depthAfter, closing]
  rw [List.cons_append, List.append_assoc, List.singleton_append, topLevelPiecesFrom]
  simp only [depthAfter, Nat.zero_add, Nat.one_ne_zero, decide_false, Bool.false_and,
    Bool.false_eq_true, if_false]
  rw [inside, closed, Option.map_map, Option.map_map]
  congr 1
  funext ps
  cases ps <;> simp

/-- A separator behind an unbroken text ends a piece. -/
lemma cut {xs : List Char} (h : Unbroken separators xs) {c : Char} (flat : isFlat c)
    (separates : c ∈ separators) (ys : List Char) :
    topLevelPiecesFrom separators 0 (xs ++ c :: ys) =
      (topLevelPiecesFrom separators 0 ys).map (xs :: ·) := by
  rw [h, topLevelPiecesFrom, depthAfter_flat flat]
  simp [separates, Option.map_map, Function.comp_def]

/-- An unbroken text is its own only piece. -/
lemma topLevelPieces_eq {xs : List Char} (h : Unbroken separators xs) :
    topLevelPieces separators xs = some [xs] := by
  have := h []
  simpa [topLevelPieces, topLevelPiecesFrom] using this

end Unbroken

/-- What stands in joined texts stands in one of them or in the separator. -/
lemma of_mem_intercalate {c : Char} {separator : List Char} : ∀ {ps : List (List Char)},
    c ∈ separator.intercalate ps → (∃ p ∈ ps, c ∈ p) ∨ c ∈ separator
  | [], h => by simp at h
  | [p], h => by
      rw [List.intercalate_singleton] at h
      exact Or.inl ⟨p, by simp, h⟩
  | p :: q :: ps, h => by
      rw [List.intercalate_cons_cons, List.mem_append, List.mem_append] at h
      rcases h with (h | h) | h
      · exact Or.inl ⟨p, by simp, h⟩
      · exact Or.inr h
      · rcases of_mem_intercalate h with ⟨r, hr, h⟩ | h
        · exact Or.inl ⟨r, by simp [hr], h⟩
        · exact Or.inr h

/-- **Unbroken texts that are joined by a separator are cut back into themselves.** -/
lemma topLevelPieces_intercalate (separators : List Char) (c : Char) (flat : isFlat c)
    (separates : c ∈ separators) : ∀ ps : List (List Char), ps ≠ [] →
      (∀ p ∈ ps, Unbroken separators p) →
      topLevelPieces separators ([c].intercalate ps) = some ps
  | [], h, _ => absurd rfl h
  | [p], _, h => by
      rw [List.intercalate_singleton]
      exact (h p (by simp)).topLevelPieces_eq
  | p :: q :: ps, _, h => by
      have rest := topLevelPieces_intercalate separators c flat separates (q :: ps) (by simp)
        fun r hr => h r (by simp [hr])
      rw [List.intercalate_cons_cons, List.append_assoc, List.singleton_append, topLevelPieces,
        (h p (by simp)).cut flat separates, ← topLevelPieces, rest]
      rfl

end CausalUpdate.Text
