import CausalUpdate.Proofs.Grammar.Parts
import CausalUpdate.Proofs.Literal.Reading
import CausalUpdate.Proofs.Work
import Mathlib.Data.List.Forall2

/-!
# Reading what the language calls a literal

The reader of literals accepts exactly the texts that write a literal, with blanks around them, and
gives that literal (`parse_ok_iff`).  It cuts such a text by greedy means: a name ends where no
further character can belong to it, and what is left over must be the terms between parentheses.
-/

namespace CausalUpdate.Grammar

open CausalUpdate.Text

variable {cs : List Char}

/-! ## Terms -/

lemma WritesTerm.chars {t : String} (h : WritesTerm cs t) : ∀ c ∈ cs, isIdentifierRest c :=
  isIdentifierRest_of_isTerm (writesTerm_iff.1 h).1

lemma trimmed_term : Trimmed WritesTerm := fun _ _ h =>
  trim_eq_self fun c hc => not_isBlank_of_isIdentifierRest (h.chars c hc)

lemma uncut_term : Uncut WritesTerm := fun _ _ h =>
  Unbroken.of_flat (fun c hc => isFlat_of_isIdentifierRest (h.chars c hc))
    fun c hc => by simpa using ne_comma_of_isIdentifierRest (h.chars c hc)

lemma spaced_term_iff {t : String} :
    Spaced WritesTerm cs t ↔ isTerm (trim cs) ∧ t = String.ofList (trim cs) := by
  rw [spaced_iff trimmed_term, writesTerm_iff]

lemma forall₂_term_iff {ps : List (List Char)} {terms : List String} :
    List.Forall₂ (Spaced WritesTerm) ps terms ↔
      (ps.map trim).all isTerm ∧ (ps.map trim).map String.ofList = terms := by
  induction ps generalizing terms with
  | nil => simp [List.forall₂_nil_left_iff, eq_comm]
  | cons p ps ih =>
      cases terms with
      | nil => simp [List.forall₂_nil_right_iff]
      | cons t ts =>
          rw [List.forall₂_cons, ih, spaced_term_iff]
          simp only [List.map_cons, List.all_cons, Bool.and_eq_true, List.cons.injEq]
          constructor
          · rintro ⟨⟨ht, rfl⟩, hts, rest⟩
            exact ⟨⟨ht, hts⟩, rfl, rest⟩
          · rintro ⟨⟨ht, hts⟩, rfl, rest⟩
            exact ⟨⟨ht, rfl⟩, hts, rest⟩

/-- The terms that are read are those that are listed. -/
lemma parseTerms_ok_iff {whole : List Char} {terms : List String} :
    parseTerms whole cs = .ok terms ↔ Listed (Spaced WritesTerm) cs terms := by
  rw [listed_iff uncut_term.spaced]
  unfold parseTerms
  split
  · rename_i unbalanced
    simp [unbalanced]
  · rename_i ps cut
    simp only [cut, Option.some.injEq, exists_eq_left', forall₂_term_iff]
    split
    · rename_i all
      rw [Except.ok.injEq]
      exact ⟨fun h => ⟨all, h⟩, And.right⟩
    · rename_i failed
      exact ⟨nofun, fun h => absurd h.1 failed⟩

/-! ## The characters of a literal -/

/-- The character can stand in a literal. -/
def LiteralChar (c : Char) : Prop :=
  isIdentifierRest c ∨ isBlank c ∨ c ∈ ['-', '(', ',', ')']

lemma Gap.literalChar {gap : List Char} (h : Gap gap) : ∀ c ∈ gap, LiteralChar c :=
  fun c hc => .inr (.inl (h c hc))

lemma Spaced.char_cases {α : Type} {part : List Char → α → Prop} {a : α} {P : Char → Prop}
    (h : Spaced part cs a) (blank : ∀ c, isBlank c → P c)
    (parts : ∀ ds a, part ds a → ∀ c ∈ ds, P c) : ∀ c ∈ cs, P c := by
  obtain ⟨before, inner, after, hb, ha, hi, rfl⟩ := h
  simp only [List.forall_mem_append]
  exact ⟨⟨fun c hc => blank c (hb c hc), parts inner a hi⟩, fun c hc => blank c (ha c hc)⟩

/-- Between the parentheses stand words, blanks and commas. -/
lemma listed_terms_chars {terms : List String} (h : Listed (Spaced WritesTerm) cs terms) :
    ∀ c ∈ cs, isIdentifierRest c ∨ isBlank c ∨ c = ',' := by
  refine h.char_cases (fun ds t spaced => ?_) (.inr (.inr rfl))
  exact spaced.char_cases (fun c hc => .inr (.inl hc)) fun es t ht c hc => .inl (ht.chars c hc)

lemma WritesLiteral.chars {l : Literal} (h : WritesLiteral cs l) : ∀ c ∈ cs, LiteralChar c := by
  obtain ⟨signed, named, -, applied⟩ := h
  simp only [List.forall_mem_append]
  refine ⟨⟨?_, ?_⟩, ?_⟩
  · cases signed with
    | none => simp
    | minus blank => exact List.forall_mem_cons.2 ⟨.inr (.inr (by simp)), blank.literalChar⟩
  · exact fun c hc => .inl ((isIdentifier_iff.1 (name_iff.1 named)).2 c hc)
  · cases applied with
    | none => simp
    | group blank listed =>
        simp only [List.forall_mem_append, List.forall_mem_cons]
        refine ⟨blank.literalChar, .inr (.inr (by simp)), fun c hc => ?_, .inr (.inr (by simp)),
          by simp⟩
        rcases listed_terms_chars listed c hc with h | h | rfl
        · exact .inl h
        · exact .inr (.inl h)
        · exact .inr (.inr (by simp))

/-! ## The shape of a literal -/

/-- A name ends in front of a character that cannot belong to it. -/
lemma cut_name {gap name rest : List Char} (blank : Gap gap) (named : isIdentifier name)
    (ends : ∀ c, rest.head? = some c → isIdentifierRest c = false) :
    ((gap ++ name ++ rest).dropWhile isBlank).takeWhile isIdentifierRest = name ∧
      ((gap ++ name ++ rest).dropWhile isBlank).dropWhile isIdentifierRest = rest := by
  obtain ⟨⟨c, head, start⟩, chars⟩ := isIdentifier_iff.1 named
  have begins : (gap ++ name ++ rest).dropWhile isBlank = name ++ rest := by
    rw [List.append_assoc, List.dropWhile_append_of_pos blank, dropWhile_eq_self_of_head?]
    intro d hd
    obtain rfl : c = d := by
      rw [List.head?_append_of_ne_nil _ (by rintro rfl; simp at head), head] at hd
      exact Option.some.inj hd
    exact not_isBlank_of_isIdentifierRest (isIdentifierRest_of_isIdentifierStart start)
  rw [begins, List.takeWhile_append_of_pos chars, List.dropWhile_append_of_pos chars,
    dropWhile_eq_self_of_head? ends]
  refine ⟨?_, rfl⟩
  cases rest with
  | nil => simp
  | cons d rest => rw [List.takeWhile_cons_of_neg (by simp [ends d rfl]), List.append_nil]

lemma Gap.ends {gap rest : List Char} {d : Char} (blank : Gap gap)
    (ends : isIdentifierRest d = false) :
    ∀ c, (gap ++ d :: rest).head? = some c → isIdentifierRest c = false := by
  intro c hc
  cases gap with
  | nil =>
      obtain rfl : d = c := by simpa using hc
      exact ends
  | cons b gap =>
      obtain rfl : b = c := by simpa using hc
      rw [Bool.eq_false_iff]
      intro rest
      exact absurd (blank b List.mem_cons_self) (by simp [not_isBlank_of_isIdentifierRest rest])

/-- What stands behind the name of a literal, and the text between its parentheses. -/
inductive Behind : List Char → Option (List Char) → Prop
  | nothing {gap : List Char} (blank : Gap gap) : Behind gap none
  | parentheses {gap inner : List Char} (blank : Gap gap) :
      Behind (gap ++ '(' :: (inner ++ [')'])) (some inner)

lemma Behind.ends {rest : List Char} {arguments : Option (List Char)} (h : Behind rest arguments) :
    ∀ c, rest.head? = some c → isIdentifierRest c = false := by
  cases h with
  | nothing blank =>
      intro c hc
      rw [Bool.eq_false_iff]
      intro rest
      have := blank c (List.mem_of_mem_head? hc)
      simp [not_isBlank_of_isIdentifierRest rest] at this
  | parentheses blank => exact blank.ends (by decide)

lemma inParentheses_eq_some_iff {inner : List Char} :
    inParentheses cs = some inner ↔ cs = '(' :: (inner ++ [')']) := by
  constructor
  · intro h
    unfold inParentheses at h
    split at h
    · rename_i ds
      split at h
      · rename_i last
        cases h
        rw [List.dropLast_append_getLast? _ last]
      · cases h
    · cases h
  · rintro rfl
    simp [inParentheses]

/-- **How a literal comes apart behind its sign.** -/
lemma shapeBehindSign_eq_some_iff {negated : Bool} {shape : LiteralShape} :
    shapeBehindSign negated cs = some shape ↔ shape.negated = negated ∧
      isIdentifier shape.predicate ∧ ∃ gap rest, Gap gap ∧ Behind rest shape.arguments ∧
        cs = gap ++ shape.predicate ++ rest := by
  constructor
  · intro h
    unfold shapeBehindSign at h
    simp only at h
    split at h
    · cases h
    · rename_i named
      rw [Bool.not_eq_true, Bool.not_eq_false'] at named
      have whole : cs = cs.takeWhile isBlank ++
          (cs.dropWhile isBlank).takeWhile isIdentifierRest ++
            (cs.dropWhile isBlank).dropWhile isIdentifierRest := by
        rw [List.append_assoc, List.takeWhile_append_dropWhile, List.takeWhile_append_dropWhile]
      have blank : Gap (cs.takeWhile isBlank) := fun c => List.mem_takeWhile_imp
      generalize (cs.dropWhile isBlank).dropWhile isIdentifierRest = behind at h whole
      split at h
      · rename_i none
        cases h
        refine ⟨rfl, named, _, behind, blank, .nothing ?_, whole⟩
        exact List.dropWhile_eq_nil_iff.1 (List.isEmpty_iff.1 none)
      · obtain ⟨inner, group, rfl⟩ := Option.map_eq_some_iff.1 h
        refine ⟨rfl, named, _, behind, blank, ?_, whole⟩
        rw [← List.takeWhile_append_dropWhile (p := isBlank) (l := behind),
          inParentheses_eq_some_iff.1 group]
        exact .parentheses fun c => List.mem_takeWhile_imp
  · rcases shape with ⟨_, name, arguments⟩
    rintro ⟨rfl, named, gap, rest, blank, behind, rfl⟩
    obtain ⟨take, drop⟩ := cut_name blank named behind.ends
    simp only [shapeBehindSign, take, drop, named, Bool.not_true, Bool.false_eq_true, if_false]
    cases behind with
    | nothing blank => rw [List.dropWhile_eq_nil_iff.2 blank]; rfl
    | parentheses blank =>
        rw [List.dropWhile_append_of_pos blank, List.dropWhile_cons_of_neg (by decide),
          inParentheses_eq_some_iff.2 rfl]
        rfl

/-- How a literal comes apart, if no blank stands in front of it. -/
lemma ofChars?_eq_some_iff {shape : LiteralShape}
    (begins : ∀ c, cs.head? = some c → isBlank c = false) :
    LiteralShape.ofChars? cs = some shape ↔ isIdentifier shape.predicate ∧ ∃ sign rest,
      WritesSign sign shape.negated ∧ Behind rest shape.arguments ∧
        cs = sign ++ shape.predicate ++ rest := by
  rcases shape with ⟨negated, name, arguments⟩
  constructor
  · intro h
    by_cases minus : cs.head? = some '-'
    · obtain ⟨cs, rfl⟩ := List.head?_eq_some_iff.1 minus
      rw [ofChars?_negated, shapeBehindSign_eq_some_iff] at h
      obtain ⟨rfl, named, gap, rest, blank, behind, rfl⟩ := h
      exact ⟨named, '-' :: gap, rest, .minus blank, behind, rfl⟩
    · rw [ofChars?_unsigned minus, shapeBehindSign_eq_some_iff] at h
      obtain ⟨rfl, named, gap, rest, blank, behind, rfl⟩ := h
      cases gap with
      | nil => exact ⟨named, [], rest, .none, behind, rfl⟩
      | cons c gap =>
          exact absurd (blank c List.mem_cons_self) (by simp [begins c rfl])
  · rintro ⟨named, sign, rest, signed, behind, rfl⟩
    cases signed with
    | none =>
        rw [ofChars?_unsigned, shapeBehindSign_eq_some_iff]
        · exact ⟨rfl, named, [], rest, .nil, behind, rfl⟩
        · obtain ⟨⟨c, head, start⟩, -⟩ := isIdentifier_iff.1 named
          have nonempty : name ≠ [] := by
            rintro rfl
            simp at head
          rw [List.nil_append, List.head?_append_of_ne_nil _ nonempty, head, ne_eq,
            Option.some.injEq]
          rintro rfl
          exact absurd start (by decide)
    | minus blank =>
        rw [List.cons_append, List.cons_append, ofChars?_negated, shapeBehindSign_eq_some_iff]
        exact ⟨rfl, named, _, rest, blank, behind, rfl⟩

/-! ## Whole literals -/

lemma WritesLiteral.ne_nil {l : Literal} (h : WritesLiteral cs l) : cs ≠ [] := by
  obtain ⟨-, named, -, -⟩ := h
  cases named
  simp

lemma WritesLiteral.begins {l : Literal} (h : WritesLiteral cs l) :
    ∀ c, cs.head? = some c → isBlank c = false := by
  obtain ⟨signed, named, -, -⟩ := h
  intro c hc
  cases signed with
  | none =>
      have chars := (isIdentifier_iff.1 (name_iff.1 named)).2
      cases named with
      | letters =>
          obtain rfl := Option.some.inj hc
          exact not_isBlank_of_isIdentifierRest (chars _ List.mem_cons_self)
  | minus =>
      obtain rfl := Option.some.inj hc
      decide

lemma WritesLiteral.stops {l : Literal} (h : WritesLiteral cs l) :
    ∀ c, cs.getLast? = some c → isBlank c = false := by
  obtain ⟨-, named, -, applied⟩ := h
  intro c hc
  cases applied with
  | none =>
      obtain ⟨⟨d, head, -⟩, chars⟩ := isIdentifier_iff.1 (name_iff.1 named)
      rw [List.append_nil, List.getLast?_append_of_ne_nil _ (by rintro rfl; simp at head)] at hc
      exact not_isBlank_of_isIdentifierRest (chars c (List.mem_of_getLast? hc))
  | group =>
      obtain rfl : ')' = c := by simpa [List.getLast?_append, List.getLast?_cons] using hc
      decide

lemma trimmed_literal : Trimmed WritesLiteral := by
  intro cs l h
  exact trimBy_eq_self_of_ends h.begins h.stops

lemma unbroken_literal {separators : List Char} {l : Literal} (h : WritesLiteral cs l)
    (marks : ∀ c ∈ separators, c ≠ '-' ∧ c ≠ ')' ∧ isBlank c = false ∧ isIdentifierRest c = false) :
    Unbroken separators cs := by
  have blanks : ∀ c ∈ separators, isBlank c = false := fun c hc => (marks c hc).2.2.1
  obtain ⟨signed, named, -, applied⟩ := h
  refine (Unbroken.append ?_ ?_).append ?_
  · cases signed with
    | none => exact .nil
    | minus blank =>
        have flat : ∀ c ∈ ['-'], isFlat c := List.forall_mem_singleton.2 (by decide)
        have sign : Unbroken separators ['-'] := .of_flat flat fun c hc separates =>
          (marks c separates).1 (List.mem_singleton.1 hc)
        exact sign.append (blank.unbroken blanks)
  · have chars := (isIdentifier_iff.1 (name_iff.1 named)).2
    refine .of_flat (fun c hc => isFlat_of_isIdentifierRest (chars c hc)) fun c hc separates => ?_
    exact absurd (chars c hc) (by simp [(marks c separates).2.2.2])
  · cases applied with
    | none => exact .nil
    | group blank listed =>
        refine (blank.unbroken blanks).append (.parenthesized ?_ fun c hc => ?_)
        · exact fun closing => (marks _ closing).2.1 rfl
        · rcases listed_terms_chars listed c hc with h | h | rfl
          · exact isFlat_of_isIdentifierRest h
          · exact isFlat_of_isBlank h
          · decide

/-- A text that is read as a literal writes it. -/
lemma writesLiteral_of_parse {l : Literal} (h : Literal.parse cs = .ok l) :
    Spaced WritesLiteral (trim cs) l := by
  unfold Literal.parse at h
  simp only at h
  split at h
  · cases h
  · rename_i shape hshape
    rw [ofChars?_eq_some_iff fun _ => head?_trim] at hshape
    rcases shape with ⟨negated, name, arguments⟩
    obtain ⟨named, sign, rest, signed, behind, whole⟩ := hshape
    rw [whole]
    split at h
    · cases h
    · rename_i keyword
      cases behind with
      | nothing blank =>
          cases h
          refine ⟨[], sign ++ name, _, .nil, blank, ?_, rfl⟩
          rw [← List.append_nil (sign ++ name)]
          exact .literal signed (name_iff.2 named) keyword .none
      | parentheses blank =>
          simp only at h
          obtain ⟨terms, read, rfl⟩ := Except.map_eq_ok_iff.1 h
          exact .of_part (.literal signed (name_iff.2 named) keyword
            (.group blank (parseTerms_ok_iff.1 read)))

/-- **The texts of literals are those that are read as literals.** -/
theorem parse_ok_iff {l : Literal} : Literal.parse cs = .ok l ↔ Spaced WritesLiteral cs l := by
  refine ⟨fun h => .of_spaced_trim (writesLiteral_of_parse h), fun h => ?_⟩
  have begins : ∀ c, (trim cs).head? = some c → isBlank c = false := fun c => head?_trim
  rw [spaced_iff trimmed_literal] at h
  generalize whole : trim cs = t at h
  obtain ⟨signed, named, keyword, applied⟩ := h
  have named := name_iff.1 named
  cases applied with
  | none =>
      have cut : LiteralShape.ofChars? (trim cs) = some ⟨_, _, none⟩ :=
        (ofChars?_eq_some_iff begins).2 ⟨named, _, [], signed, .nothing .nil, whole⟩
      simp only [Literal.parse, cut, if_neg (show _ ≠ notKeyword from keyword)]
  | group blank listed =>
      have cut : LiteralShape.ofChars? (trim cs) = some ⟨_, _, some _⟩ :=
        (ofChars?_eq_some_iff begins).2 ⟨named, _, _, signed, .parentheses blank, whole⟩
      simp only [Literal.parse, cut, if_neg (show _ ≠ notKeyword from keyword),
        parseTerms_ok_iff.2 listed]
      rfl

end CausalUpdate.Grammar
