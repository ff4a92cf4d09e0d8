import CausalUpdate.Literal.Parse
import CausalUpdate.Proofs.Text.Pieces
import CausalUpdate.Proofs.Text.Trimming

/-!
# Literals and their texts

A solver sees nothing of a literal but its text.  Nothing is lost by that as long as sign, predicate
and terms can be told apart in the text: literals of which this is true are called *legible*, and
**legible literals with the same text are the same** (`Legible.text_inj`).

The condition is weak on purpose.  It asks for no identifiers and numbers, so that it also covers
the constants of an update program whatever the identifiers of its rules are.
-/

namespace CausalUpdate

open CausalUpdate.Text

/-! ## Characters of names -/

lemma toNat_of_isIdentifierRest {c : Char} (h : isIdentifierRest c) :
    97 ≤ c.toNat ∧ c.toNat ≤ 122 ∨ 65 ≤ c.toNat ∧ c.toNat ≤ 90 ∨ 48 ≤ c.toNat ∧ c.toNat ≤ 57 ∨
      c.toNat = 95 := by
  simp only [isIdentifierRest, Bool.or_eq_true, Bool.and_eq_true, decide_eq_true_eq] at h
  rcases h with ((h | h) | h) | rfl
  · exact Or.inl h
  · exact Or.inr (Or.inl h)
  · exact Or.inr (Or.inr (Or.inl h))
  · exact Or.inr (Or.inr (Or.inr rfl))

lemma not_isBlank_of_isIdentifierRest {c : Char} (h : isIdentifierRest c) : isBlank c = false := by
  have hc := toNat_of_isIdentifierRest h
  rw [Bool.eq_false_iff, ne_eq, isBlank, inRanges_iff]
  rintro ⟨r, hr, hlo, hhi⟩
  simp only [blankRanges, List.mem_cons, List.not_mem_nil, or_false] at hr
  rcases hr with rfl | rfl | rfl | rfl | rfl | rfl | rfl | rfl | rfl | rfl <;>
    simp only at hlo hhi <;> omega

lemma isFlat_of_isIdentifierRest {c : Char} (h : isIdentifierRest c) : isFlat c := by
  simp only [isFlat, Bool.and_eq_true, bne_iff_ne, ne_eq]
  constructor <;> rintro rfl <;> exact absurd h (by decide)

lemma ne_comma_of_isIdentifierRest {c : Char} (h : isIdentifierRest c) : c ≠ ',' := by
  rintro rfl
  exact absurd h (by decide)

lemma isIdentifierRest_of_isIdentifierStart {c : Char} (h : isIdentifierStart c) :
    isIdentifierRest c := by
  simp only [isIdentifierStart] at h
  simp [isIdentifierRest, h]

lemma isIdentifierRest_of_isDigit {c : Char} (h : c.isDigit) : isIdentifierRest c := by
  simp only [Char.isDigit, Bool.and_eq_true, decide_eq_true_eq, ge_iff_le] at h
  have : ('0' ≤ c && c ≤ '9') = true := by
    simp only [Bool.and_eq_true, decide_eq_true_eq]
    exact h
  simp [isIdentifierRest, this]

lemma isIdentifierRest_of_isAlphanum {c : Char} (h : c.isAlphanum) : isIdentifierRest c := by
  have kinds : ((c.isUpper || c.isLower) || c.isDigit) = true := h
  rw [Bool.or_eq_true, Bool.or_eq_true] at kinds
  rcases kinds with (upper | lower) | digit
  · have : 'A' ≤ c ∧ c ≤ 'Z' := of_decide_eq_true upper
    simp [isIdentifierRest, this]
  · have : ('a' ≤ c && c ≤ 'z') = true := lower
    simp [isIdentifierRest, this]
  · exact isIdentifierRest_of_isDigit digit

/-- Identifiers begin with a letter and go on with letters, digits and underscores. -/
lemma isIdentifier_iff {cs : List Char} :
    isIdentifier cs ↔ (∃ c, cs.head? = some c ∧ isIdentifierStart c) ∧
      ∀ c ∈ cs, isIdentifierRest c := by
  cases cs with
  | nil => simp [isIdentifier]
  | cons c cs =>
      simp only [isIdentifier, Bool.and_eq_true, List.all_eq_true, List.head?_cons,
        Option.some.injEq, exists_eq_left', List.mem_cons, forall_eq_or_imp]
      exact ⟨fun h => ⟨h.1, isIdentifierRest_of_isIdentifierStart h.1, h.2⟩, fun h => ⟨h.1, h.2.2⟩⟩

lemma parenthesis_not_mem_of_isIdentifier {cs : List Char} (h : isIdentifier cs) : '(' ∉ cs :=
  fun inside => absurd ((isIdentifier_iff.1 h).2 _ inside) (by decide)

lemma head?_ne_minus_of_isIdentifier {cs : List Char} (h : isIdentifier cs) :
    cs.head? ≠ some '-' := by
  obtain ⟨⟨c, head, start⟩, -⟩ := isIdentifier_iff.1 h
  rw [head]
  rintro ⟨⟩
  exact absurd start (by decide)

lemma isIdentifierRest_of_isNumeral {cs : List Char} (h : isNumeral cs) :
    ∀ c ∈ cs, isIdentifierRest c := by
  cases cs with
  | nil => simp
  | cons d cs =>
      simp only [isNumeral] at h
      split at h
      · rename_i hd
        subst hd
        rw [List.isEmpty_iff.1 h]
        simp [isIdentifierRest]
      · simp only [Bool.and_eq_true, List.all_eq_true] at h
        intro c hc
        rcases List.mem_cons.1 hc with rfl | hc
        · exact isIdentifierRest_of_isDigit h.1
        · exact isIdentifierRest_of_isDigit (h.2 c hc)

lemma isIdentifierRest_of_isTerm {cs : List Char} (h : isTerm cs) :
    ∀ c ∈ cs, isIdentifierRest c := by
  simp only [isTerm, Bool.and_eq_true, Bool.or_eq_true] at h
  rcases h.2 with h | h
  · exact (isIdentifier_iff.1 h).2
  · exact isIdentifierRest_of_isNumeral h

/-! ## The parts of a text -/

/-- The terms of an atom as they are written, with their parentheses if there are any. -/
def Atom.argumentChars (a : Atom) : List Char :=
  if a.terms = [] then [] else '(' :: ([','].intercalate (a.terms.map String.toList) ++ [')'])

lemma Atom.toList_text (a : Atom) : a.text.toList = a.predicate.toList ++ a.argumentChars := by
  unfold Atom.text Atom.argumentChars
  by_cases h : a.terms = []
  · simp [h]
  · simp [h, String.toList_intercalate]

namespace Literal

lemma toList_text (l : Literal) :
    l.text.toList = (if l.negated then ['-'] else []) ++ (l.atom.predicate.toList ++
      l.atom.argumentChars) := by
  unfold Literal.text
  split <;> simp [Atom.toList_text]

/-! ## Legible literals -/

/-- The sign, the predicate and the terms of the literal can be told apart in its text. -/
structure Legible (l : Literal) : Prop where
  predicate : ∀ c ∈ l.atom.predicate.toList, c ≠ '('
  unsigned : l.atom.predicate.toList.head? ≠ some '-'
  terms : ∀ t ∈ l.atom.terms, ∀ c ∈ t.toList, isFlat c ∧ c ≠ ','

namespace Legible

variable {l m : Literal}

/-- The predicate and the terms of an atom can be told from its text. -/
lemma atom_inj (hl : l.Legible) (hm : m.Legible)
    (h : l.atom.predicate.toList ++ l.atom.argumentChars =
      m.atom.predicate.toList ++ m.atom.argumentChars) : l.atom = m.atom := by
  -- the predicate ends where the first parenthesis opens
  have until_parenthesis : ∀ {k : Literal}, k.Legible →
      (k.atom.predicate.toList ++ k.atom.argumentChars).takeWhile (· != '(') =
        k.atom.predicate.toList := by
    intro k hk
    rw [List.takeWhile_append_of_pos (by simpa using hk.predicate)]
    unfold Atom.argumentChars
    split <;> simp
  have hp : l.atom.predicate.toList = m.atom.predicate.toList := by
    rw [← until_parenthesis hl, ← until_parenthesis hm, h]
  have ha : l.atom.argumentChars = m.atom.argumentChars := by
    rw [hp] at h
    exact List.append_cancel_left h
  have unbroken : ∀ {k : Literal}, k.Legible →
      ∀ p ∈ k.atom.terms.map String.toList, Unbroken [','] p := by
    intro k hk p hp
    obtain ⟨t, ht, rfl⟩ := List.mem_map.1 hp
    exact Unbroken.of_flat (fun c hc => (hk.terms t ht c hc).1)
      (by simpa using fun c hc => (hk.terms t ht c hc).2)
  have ht : l.atom.terms.map String.toList = m.atom.terms.map String.toList := by
    unfold Atom.argumentChars at ha
    split at ha <;> rename_i h₁ <;> split at ha <;> rename_i h₂
    · rw [h₁, h₂]
    · simp at ha
    · simp at ha
    · simp only [List.cons.injEq, true_and, List.append_cancel_right_eq] at ha
      have cut := fun {k : Literal} (hk : k.Legible) (hn : k.atom.terms ≠ []) =>
        topLevelPieces_intercalate [','] ',' (by decide) (by simp)
          (k.atom.terms.map String.toList) (by simpa using hn) (unbroken hk)
      have := cut hl h₁
      rw [ha, cut hm h₂] at this
      exact (Option.some.inj this).symm
  have ht : l.atom.terms = m.atom.terms :=
    (List.map_inj_right fun _ _ => String.toList_inj.1).1 ht
  rcases hl' : l.atom with ⟨p, ts⟩
  rcases hm' : m.atom with ⟨q, us⟩
  simp only [hl', hm'] at hp ht
  rw [String.toList_inj.1 hp, ht]

/-- The text of an atom does not begin with a sign. -/
lemma unsigned_ne_cons (h : l.Legible) (rest : List Char) :
    l.atom.predicate.toList ++ l.atom.argumentChars ≠ '-' :: rest := by
  intro e
  have hu := h.unsigned
  cases hp : l.atom.predicate.toList with
  | nil =>
      rw [hp, List.nil_append] at e
      unfold Atom.argumentChars at e
      split at e <;> simp at e
  | cons c cs =>
      rw [hp, List.cons_append, List.cons.injEq] at e
      rw [hp, e.1] at hu
      simp at hu

/-- **Legible literals with the same text are the same.** -/
theorem text_inj (hl : l.Legible) (hm : m.Legible) (h : l.text = m.text) : l = m := by
  have chars := String.toList_inj.2 h
  rw [toList_text, toList_text] at chars
  rcases l with ⟨la, ln⟩
  rcases m with ⟨ma, mn⟩
  cases ln <;> cases mn <;>
    simp only [Bool.false_eq_true, if_true, if_false, List.nil_append, List.singleton_append,
      List.cons.injEq, true_and] at chars
  · rw [show la = ma from atom_inj hl hm chars]
  · exact absurd chars (hl.unsigned_ne_cons _)
  · exact absurd chars.symm (hm.unsigned_ne_cons _)
  · rw [show la = ma from atom_inj hl hm chars]

lemma complement (h : l.Legible) : l.complement.Legible :=
  ⟨h.predicate, h.unsigned, h.terms⟩

/-- A text with a sign in front of it belongs to the complement, and there is at most one sign. -/
lemma eq_complement_of_text (hl : l.Legible) (hm : m.Legible) (h : m.text = "-" ++ l.text) :
    m = l.complement := by
  cases hn : l.negated with
  | false =>
      refine hm.text_inj hl.complement (h.trans ?_)
      simp [Literal.text, Literal.complement, hn]
  | true =>
      exfalso
      have chars := String.toList_inj.2 h
      rw [String.toList_append, toList_text, toList_text, hn] at chars
      cases hn' : m.negated <;> rw [hn'] at chars
      case true =>
          refine hm.unsigned_ne_cons (l.atom.predicate.toList ++ l.atom.argumentChars) ?_
          simpa using chars
      case false =>
          refine hm.unsigned_ne_cons ('-' :: (l.atom.predicate.toList ++ l.atom.argumentChars)) ?_
          simpa using chars

end Legible

end Literal

/-! ## Lists of literals -/

lemma mem_of_mem_distinct {l : Literal} {ls : List Literal} (h : l ∈ Literal.distinct ls) :
    l ∈ ls := by
  induction ls with
  | nil => exact h
  | cons k ls ih =>
      rcases List.mem_cons.1 h with rfl | h
      · exact List.mem_cons_self
      · exact List.mem_cons_of_mem _ (ih (List.mem_filter.1 h).1)

end CausalUpdate
