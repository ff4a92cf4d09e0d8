import CausalUpdate.Proofs.Literal.Text

/-!
# Reading literals back

The literals that can be read from a text are those whose predicate is an identifier and whose terms
are identifiers or whole numbers, none of them the keyword `not`.  They are called *readable*, and
every one of them is read back from its own text.

* `Literal.Readable` — the condition.
* `readable_iff_parse` — it says what it should.
-/

namespace CausalUpdate

open CausalUpdate.Text

/-! ## Shapes -/

/-- The shape of a literal, read from what stands behind its sign. -/
def shapeBehindSign (negated : Bool) (unsigned : List Char) : Option LiteralShape :=
  let start := unsigned.dropWhile isBlank
  let predicate := start.takeWhile isIdentifierRest
  let rest := (start.dropWhile isIdentifierRest).dropWhile isBlank
  if !isIdentifier predicate then none
  else if rest.isEmpty then some ⟨negated, predicate, none⟩
  else (inParentheses rest).map fun arguments => ⟨negated, predicate, some arguments⟩

lemma ofChars?_negated (cs : List Char) :
    LiteralShape.ofChars? ('-' :: cs) = shapeBehindSign true cs :=
  rfl

lemma ofChars?_unsigned {cs : List Char} (h : cs.head? ≠ some '-') :
    LiteralShape.ofChars? cs = shapeBehindSign false cs := by
  unfold LiteralShape.ofChars?
  split
  rename_i sign unsigned e
  split at e
  · simp at h
  · rw [Prod.mk.injEq] at e
    rw [← e.1, ← e.2]
    rfl

/-- The predicate of a shape is an identifier. -/
lemma isIdentifier_of_ofChars? {cs : List Char} {shape : LiteralShape}
    (h : LiteralShape.ofChars? cs = some shape) : isIdentifier shape.predicate := by
  have behindSign : ∀ {negated unsigned}, shapeBehindSign negated unsigned = some shape →
      isIdentifier shape.predicate := by
    intro negated unsigned h
    unfold shapeBehindSign at h
    simp only at h
    split at h
    · simp at h
    · rename_i hp
      simp only [Bool.not_eq_true, Bool.not_eq_false'] at hp
      split at h
      · rw [Option.some.injEq] at h
        rw [← h]
        exact hp
      · obtain ⟨_, -, rfl⟩ := Option.map_eq_some_iff.1 h
        exact hp
  by_cases hs : cs.head? = some '-'
  · cases cs with
    | nil => simp at hs
    | cons c cs =>
        rw [List.head?_cons, Option.some.injEq] at hs
        subst hs
        exact behindSign h
  · rw [ofChars?_unsigned hs] at h
    exact behindSign h

/-- The terms that are read are terms. -/
lemma isTerm_of_parseTerms {whole arguments : List Char} {terms : List String}
    (h : parseTerms whole arguments = .ok terms) : ∀ t ∈ terms, isTerm t.toList := by
  unfold parseTerms at h
  split at h
  · simp at h
  · simp only at h
    split at h
    · rename_i hall
      rw [Except.ok.injEq] at h
      subst h
      intro t ht
      obtain ⟨cs, hcs, rfl⟩ := List.mem_map.1 ht
      rw [String.toList_ofList]
      exact List.all_eq_true.1 hall cs hcs
    · simp at h

/-! ## Readable literals -/

namespace Literal

/-- The predicate is an identifier other than `not`, and the terms are terms. -/
structure Readable (l : Literal) : Prop where
  predicate : isIdentifier l.atom.predicate.toList
  keyword : l.atom.predicate.toList ≠ notKeyword
  terms : ∀ t ∈ l.atom.terms, isTerm t.toList

lemma readable_def {l : Literal} : l.Readable ↔ isIdentifier l.atom.predicate.toList ∧
    l.atom.predicate.toList ≠ notKeyword ∧ ∀ t ∈ l.atom.terms, isTerm t.toList :=
  ⟨fun h => ⟨h.1, h.2, h.3⟩, fun h => ⟨h.1, h.2.1, h.2.2⟩⟩

instance (l : Literal) : Decidable l.Readable :=
  decidable_of_iff _ readable_def.symm

namespace Readable

variable {l : Literal}

lemma predicate_chars (h : l.Readable) : ∀ c ∈ l.atom.predicate.toList, isIdentifierRest c :=
  (isIdentifier_iff.1 h.predicate).2

lemma predicate_eq_cons (h : l.Readable) :
    ∃ c cs, l.atom.predicate.toList = c :: cs ∧ isIdentifierStart c := by
  obtain ⟨c, hc, hs⟩ := (isIdentifier_iff.1 h.predicate).1
  cases hp : l.atom.predicate.toList with
  | nil => simp [hp] at hc
  | cons d ds =>
      rw [hp, List.head?_cons, Option.some.injEq] at hc
      exact ⟨d, ds, rfl, hc ▸ hs⟩

lemma term_chars (h : l.Readable) : ∀ t ∈ l.atom.terms, ∀ c ∈ t.toList, isIdentifierRest c :=
  fun t ht => isIdentifierRest_of_isTerm (h.terms t ht)

lemma legible (h : l.Readable) : l.Legible where
  predicate _ hc e := parenthesis_not_mem_of_isIdentifier h.predicate (e ▸ hc)
  unsigned := head?_ne_minus_of_isIdentifier h.predicate
  terms t ht c hc :=
    have hr := h.term_chars t ht c hc
    ⟨isFlat_of_isIdentifierRest hr, ne_comma_of_isIdentifierRest hr⟩

/-- The characters between the parentheses of an atom. -/
lemma argument_chars (h : l.Readable) :
    ∀ c ∈ [','].intercalate (l.atom.terms.map String.toList), isIdentifierRest c ∨ c = ',' := by
  intro c hc
  rcases of_mem_intercalate hc with ⟨xs, hxs, hc⟩ | hc
  · obtain ⟨t, ht, rfl⟩ := List.mem_map.1 hxs
    exact Or.inl (h.term_chars t ht c hc)
  · exact Or.inr (List.mem_singleton.1 hc)

lemma flat_arguments (h : l.Readable) :
    ∀ c ∈ [','].intercalate (l.atom.terms.map String.toList), isFlat c := by
  intro c hc
  rcases h.argument_chars c hc with hc | rfl
  · exact isFlat_of_isIdentifierRest hc
  · decide

/-- The characters of a literal are those of names and four marks. -/
lemma text_char_cases (h : l.Readable) :
    ∀ c ∈ l.text.toList, isIdentifierRest c ∨ c ∈ ['-', '(', ',', ')'] := by
  intro c hc
  rw [toList_text] at hc
  simp only [List.mem_append] at hc
  rcases hc with hc | hc | hc
  · split at hc <;> simp only [List.mem_singleton, List.not_mem_nil] at hc
    exact Or.inr (by simp [hc])
  · exact Or.inl (h.predicate_chars c hc)
  · unfold Atom.argumentChars at hc
    split at hc
    · simp at hc
    · simp only [List.mem_cons, List.mem_append, List.not_mem_nil, or_false] at hc
      rcases hc with rfl | hc | rfl
      · exact Or.inr (by simp)
      · exact (h.argument_chars c hc).imp id fun e => by simp [e]
      · exact Or.inr (by simp)

lemma text_chars (h : l.Readable) : ∀ c ∈ l.text.toList, isBlank c = false := by
  have marks : ∀ c ∈ ['-', '(', ',', ')'], isBlank c = false := by
    simp only [List.forall_mem_cons, List.not_mem_nil, false_implies, implies_true, and_true]
    decide
  intro c hc
  rcases h.text_char_cases c hc with hc | hc
  · exact not_isBlank_of_isIdentifierRest hc
  · exact marks c hc

lemma text_ne_nil (h : l.Readable) : l.text.toList ≠ [] := by
  obtain ⟨c, cs, hp, -⟩ := h.predicate_eq_cons
  rw [toList_text, hp]
  simp

/-- The text of a literal comes through a cut in one piece, if no character of it separates. -/
lemma unbroken_text (h : l.Readable) {separators : List Char}
    (uncut : ∀ c ∈ separators, c ≠ '-' ∧ c ≠ ')' ∧ isIdentifierRest c = false) :
    Unbroken separators l.text.toList := by
  rw [toList_text]
  refine Unbroken.append ?_ (Unbroken.append ?_ ?_)
  · split
    · refine Unbroken.of_flat (by simp [isFlat]) ?_
      intro c hc hs
      exact (uncut c hs).1 (List.mem_singleton.1 hc)
    · exact Unbroken.nil
  · refine Unbroken.of_flat (fun c hc => isFlat_of_isIdentifierRest (h.predicate_chars c hc)) ?_
    intro c hc hs
    exact absurd (h.predicate_chars c hc) (by simp [(uncut c hs).2.2])
  · unfold Atom.argumentChars
    split
    · exact Unbroken.nil
    · exact Unbroken.parenthesized (fun hs => (uncut _ hs).2.1 rfl)
        h.flat_arguments

/-- The predicate, the terms and their parentheses come apart where they should. -/
lemma shapeBehindSign_atom (h : l.Readable) (negated : Bool) :
    shapeBehindSign negated (l.atom.predicate.toList ++ l.atom.argumentChars) =
      some ⟨negated, l.atom.predicate.toList,
        if l.atom.terms = [] then none
        else some ([','].intercalate (l.atom.terms.map String.toList))⟩ := by
  obtain ⟨c, cs, hp, hs⟩ := h.predicate_eq_cons
  have hr := isIdentifierRest_of_isIdentifierStart hs
  have start : (l.atom.predicate.toList ++ l.atom.argumentChars).dropWhile isBlank =
      l.atom.predicate.toList ++ l.atom.argumentChars := by
    rw [hp, List.cons_append,
      List.dropWhile_cons_of_neg (by simp [not_isBlank_of_isIdentifierRest hr])]
  -- the predicate ends at the first character that is none of an identifier
  have take : (l.atom.predicate.toList ++ l.atom.argumentChars).takeWhile isIdentifierRest =
      l.atom.predicate.toList := by
    rw [List.takeWhile_append_of_pos h.predicate_chars]
    unfold Atom.argumentChars
    split <;> simp [isIdentifierRest]
  have drop : (l.atom.predicate.toList ++ l.atom.argumentChars).dropWhile isIdentifierRest =
      l.atom.argumentChars := by
    rw [List.dropWhile_append_of_pos h.predicate_chars]
    unfold Atom.argumentChars
    split <;> simp [isIdentifierRest]
  simp only [shapeBehindSign, start, take, drop, h.predicate, Bool.not_true, Bool.false_eq_true,
    if_false]
  unfold Atom.argumentChars
  split
  · simp
  · simp [isBlank, inRanges, blankRanges, inParentheses]

/-- The shape that is found in the text of a literal. -/
lemma ofChars?_text (h : l.Readable) : LiteralShape.ofChars? l.text.toList =
    some ⟨l.negated, l.atom.predicate.toList,
      if l.atom.terms = [] then none
      else some ([','].intercalate (l.atom.terms.map String.toList))⟩ := by
  rw [toList_text]
  cases hn : l.negated with
  | true =>
      rw [if_pos rfl, List.singleton_append, ofChars?_negated]
      exact h.shapeBehindSign_atom true
  | false =>
      rw [if_neg (by simp), List.nil_append, ofChars?_unsigned]
      · exact h.shapeBehindSign_atom false
      · obtain ⟨c, cs, hp, hs⟩ := h.predicate_eq_cons
        rw [hp, List.cons_append, List.head?_cons, ne_eq, Option.some.injEq]
        rintro rfl
        exact absurd hs (by decide)

/-- **A readable literal is read back from its text.** -/
theorem parse_text (h : l.Readable) : Literal.parse l.text.toList = .ok l := by
  simp only [Literal.parse, trim_eq_self h.text_chars, h.ofChars?_text, h.keyword, if_false]
  rcases hl : l with ⟨⟨p, ts⟩, n⟩
  subst hl
  by_cases hts : ts = []
  · simp [hts]
  · have pieces := topLevelPieces_intercalate [','] ',' (by decide) (by simp)
      (ts.map String.toList) (by simpa using hts) (by
        intro q hq
        obtain ⟨t, ht, rfl⟩ := List.mem_map.1 hq
        have hr := h.term_chars t ht
        exact Unbroken.of_flat (fun c hc => isFlat_of_isIdentifierRest (hr c hc))
          (by simpa using fun c hc => ne_comma_of_isIdentifierRest (hr c hc)))
    have trimmed : (ts.map String.toList).map trim = ts.map String.toList := by
      refine (List.map_congr_left ?_).trans (List.map_id _)
      intro q hq
      obtain ⟨t, ht, rfl⟩ := List.mem_map.1 hq
      exact trim_eq_self fun c hc => not_isBlank_of_isIdentifierRest (h.term_chars t ht c hc)
    have terms : (ts.map String.toList).all isTerm := by
      simpa [List.all_eq_true] using h.terms
    simp only [hts, if_false, parseTerms, pieces, trimmed, terms, if_true]
    simp [Except.map, List.map_map, Function.comp_def]

end Readable

/-- A literal that has been read is readable. -/
lemma readable_of_parse {cs : List Char} {l : Literal} (h : Literal.parse cs = .ok l) :
    l.Readable := by
  unfold Literal.parse at h
  simp only at h
  split at h
  · simp at h
  · rename_i shape hshape
    split at h
    · simp at h
    · rename_i hkey
      have hpred := isIdentifier_of_ofChars? hshape
      split at h
      · rw [Except.ok.injEq] at h
        subst h
        exact ⟨by simpa using hpred, by simpa using hkey, by simp⟩
      · rename_i arguments _
        cases hterms : parseTerms (trim cs) arguments with
        | error e => simp [hterms, Except.map] at h
        | ok terms =>
            simp only [hterms, Except.map, Except.ok.injEq] at h
            subst h
            exact ⟨by simpa using hpred, by simpa using hkey, isTerm_of_parseTerms hterms⟩

/-- **The readable literals are those that can be read from a text.** -/
theorem readable_iff_parse {l : Literal} : l.Readable ↔ ∃ cs, Literal.parse cs = .ok l :=
  ⟨fun h => ⟨l.text.toList, h.parse_text⟩, fun ⟨_, h⟩ => readable_of_parse h⟩

end Literal

end CausalUpdate
