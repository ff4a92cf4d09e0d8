import CausalUpdate.Proofs.Literal.Text
import CausalUpdate.Rule.Basic

/-!
# The language of programs

What a program text writes, given without any reader: words by their characters, and everything else
by how it is put together.  Blanks may stand around every part that is not a single character, so
that they may stand between any two words, but not inside the arrow `:-`.

* `Name`, `Number`, `WritesTerm` — words.
* `Spaced`, `Listed` — a part with blanks around it, and parts with commas between them.
* `WritesLiteral`, `WritesItem`, `WritesRule` — parts and the syntax trees they write.
* `WritesStatements` — a text without comments: statements, each ended by a dot, and blanks behind
  the last one.
* `Uncommented`, `WritesText` — a text with comments.
-/

namespace CausalUpdate.Grammar

open CausalUpdate.Text

/-! ## Words -/

/-- Blanks, or nothing at all. -/
def Gap (cs : List Char) : Prop :=
  ∀ c ∈ cs, isBlank c

instance (cs : List Char) : Decidable (Gap cs) :=
  decidable_of_iff (cs.all isBlank) List.all_eq_true

def LowerCase (c : Char) : Prop :=
  'a' ≤ c ∧ c ≤ 'z'

def UpperCase (c : Char) : Prop :=
  'A' ≤ c ∧ c ≤ 'Z'

def Digit (c : Char) : Prop :=
  '0' ≤ c ∧ c ≤ '9'

/-- A lower-case letter, and behind it letters, digits and underscores. -/
inductive Name : List Char → Prop
  | letters {c : Char} {cs : List Char} (first : LowerCase c)
      (rest : ∀ d ∈ cs, LowerCase d ∨ UpperCase d ∨ Digit d ∨ d = '_') : Name (c :: cs)

/-- Zero, or digits that do not begin with zero. -/
inductive Number : List Char → Prop
  | zero : Number ['0']
  | digits {c : Char} {cs : List Char} (first : Digit c) (nonzero : c ≠ '0')
      (rest : ∀ d ∈ cs, Digit d) : Number (c :: cs)

/-- A name other than `not`, or a number. -/
inductive WritesTerm : List Char → String → Prop
  | name {cs : List Char} (name : Name cs) (keyword : cs ≠ ['n', 'o', 't']) :
      WritesTerm cs (String.ofList cs)
  | number {cs : List Char} (number : Number cs) : WritesTerm cs (String.ofList cs)

/-! ## Parts -/

section

variable {α : Type}

/-- The part with blanks around it. -/
def Spaced (part : List Char → α → Prop) (cs : List Char) (a : α) : Prop :=
  ∃ before inner after, Gap before ∧ Gap after ∧ part inner a ∧ cs = before ++ inner ++ after

/-- One or more parts, with a comma between any two. -/
inductive Listed (part : List Char → α → Prop) : List Char → List α → Prop
  | one {cs : List Char} {a : α} (last : part cs a) : Listed part cs [a]
  | more {cs ds : List Char} {a : α} {as : List α} (first : part cs a) (rest : Listed part ds as) :
      Listed part (cs ++ ',' :: ds) (a :: as)

end

/-! ## Literals -/

/-- The sign of a literal, with the blanks behind it. -/
inductive WritesSign : List Char → Bool → Prop
  | none : WritesSign [] false
  | minus {gap : List Char} (blank : Gap gap) : WritesSign ('-' :: gap) true

/-- The terms of an atom between parentheses, with the blanks in front of them. -/
inductive WritesArguments : List Char → List String → Prop
  | none : WritesArguments [] []
  | group {gap cs : List Char} {terms : List String} (blank : Gap gap)
      (listed : Listed (Spaced WritesTerm) cs terms) :
      WritesArguments (gap ++ '(' :: (cs ++ [')'])) terms

inductive WritesLiteral : List Char → Literal → Prop
  | literal {sign name arguments : List Char} {negated : Bool} {terms : List String}
      (signed : WritesSign sign negated) (named : Name name) (keyword : name ≠ ['n', 'o', 't'])
      (applied : WritesArguments arguments terms) :
      WritesLiteral (sign ++ name ++ arguments) ⟨⟨String.ofList name, terms⟩, negated⟩

/-! ## Rules -/

/-- A literal of a body, possibly under default negation. -/
inductive Item
  | plain (l : Literal)
  | negated (l : Literal)

@[simp] def Item.plain? : Item → Option Literal
  | .plain l => some l
  | .negated _ => none

@[simp] def Item.negated? : Item → Option Literal
  | .plain _ => none
  | .negated l => some l

inductive WritesItem : List Char → Item → Prop
  | plain {cs : List Char} {l : Literal} (literal : WritesLiteral cs l) : WritesItem cs (.plain l)
  | negated {gap cs : List Char} {l : Literal} (blank : Gap gap) (apart : gap ≠ [])
      (literal : WritesLiteral cs l) :
      WritesItem ('n' :: 'o' :: 't' :: (gap ++ cs)) (.negated l)

/-- The clause with a head and the items of a body. -/
def clauseOf (head : Option Literal) (items : List Item) : Clause :=
  ⟨head, items.filterMap Item.plain?, items.filterMap Item.negated?⟩

/-- The text of a rule without its dot, with the blanks around it. -/
inductive WritesRule : List Char → Clause → Prop
  | fact {cs : List Char} {l : Literal} (head : Spaced WritesLiteral cs l) :
      WritesRule cs (clauseOf (some l) [])
  | rule {cs ds : List Char} {l : Literal} {items : List Item} (head : Spaced WritesLiteral cs l)
      (body : Listed (Spaced WritesItem) ds items) :
      WritesRule (cs ++ ':' :: '-' :: ds) (clauseOf (some l) items)
  | constraint {gap ds : List Char} {items : List Item} (blank : Gap gap)
      (body : Listed (Spaced WritesItem) ds items) :
      WritesRule (gap ++ ':' :: '-' :: ds) (clauseOf none items)

/-! ## Texts -/

/-- A text without comments.  Of its statements those that are blank write nothing. -/
inductive WritesStatements : List Char → List Clause → Prop
  | done {gap : List Char} (blank : Gap gap) : WritesStatements gap []
  | blank {gap ds : List Char} {clauses : List Clause} (blank : Gap gap)
      (rest : WritesStatements ds clauses) : WritesStatements (gap ++ '.' :: ds) clauses
  | rule {cs ds : List Char} {c : Clause} {clauses : List Clause} (first : WritesRule cs c)
      (rest : WritesStatements ds clauses) : WritesStatements (cs ++ '.' :: ds) (c :: clauses)

/-- The second text is the first one without every stretch from a `%` up to the next line feed or to
the end. -/
inductive Uncommented : List Char → List Char → Prop
  | plain {cs : List Char} (plain : '%' ∉ cs) : Uncommented cs cs
  | last {cs comment : List Char} (plain : '%' ∉ cs) (line : '\n' ∉ comment) :
      Uncommented (cs ++ '%' :: comment) cs
  | comment {cs comment rest bare : List Char} (plain : '%' ∉ cs) (line : '\n' ∉ comment)
      (uncommented : Uncommented ('\n' :: rest) bare) :
      Uncommented (cs ++ '%' :: (comment ++ '\n' :: rest)) (cs ++ bare)

/-- The text writes the clauses, in this order. -/
def WritesText (text : String) (clauses : List Clause) : Prop :=
  ∃ bare, Uncommented text.toList bare ∧ WritesStatements bare clauses

/-! ## Words as they are recognised -/

lemma name_iff {cs : List Char} : Name cs ↔ isIdentifier cs := by
  cases cs with
  | nil => exact ⟨nofun, nofun⟩
  | cons c cs =>
      simp only [isIdentifier, isIdentifierStart, isIdentifierRest, Bool.and_eq_true,
        List.all_eq_true, Bool.or_eq_true, decide_eq_true_eq]
      constructor
      · rintro ⟨first, rest⟩
        exact ⟨first, fun d hd => by simpa [LowerCase, UpperCase, Digit, or_assoc] using rest d hd⟩
      · rintro ⟨first, rest⟩
        exact ⟨first, fun d hd => by simpa [LowerCase, UpperCase, Digit, or_assoc] using rest d hd⟩

lemma digit_iff {c : Char} : Digit c ↔ c.isDigit := by
  simp only [Digit, Char.isDigit, Bool.and_eq_true, decide_eq_true_eq]
  exact Iff.rfl

lemma number_iff {cs : List Char} : Number cs ↔ isNumeral cs := by
  cases cs with
  | nil => exact ⟨nofun, nofun⟩
  | cons c cs =>
      rw [isNumeral]
      split
      · rename_i zero
        subst zero
        rw [List.isEmpty_iff]
        constructor
        · intro h
          cases h with
          | zero => rfl
          | digits _ nonzero _ => exact absurd rfl nonzero
        · rintro rfl
          exact .zero
      · rename_i nonzero
        rw [Bool.and_eq_true, List.all_eq_true]
        constructor
        · intro h
          cases h with
          | zero => exact absurd rfl nonzero
          | digits first _ rest =>
              exact ⟨digit_iff.1 first, fun d hd => digit_iff.1 (rest d hd)⟩
        · rintro ⟨first, rest⟩
          exact .digits (digit_iff.2 first) nonzero fun d hd => digit_iff.2 (rest d hd)

lemma writesTerm_iff {cs : List Char} {t : String} :
    WritesTerm cs t ↔ isTerm cs ∧ t = String.ofList cs := by
  simp only [isTerm, Bool.and_eq_true, bne_iff_ne, Bool.or_eq_true, ← name_iff, ← number_iff]
  constructor
  · rintro (⟨name, keyword⟩ | ⟨number⟩)
    · exact ⟨⟨keyword, .inl name⟩, rfl⟩
    · refine ⟨⟨?_, .inr number⟩, rfl⟩
      rintro rfl
      exact absurd (number_iff.1 number) (by decide)
  · rintro ⟨⟨keyword, name | number⟩, rfl⟩
    · exact .name name keyword
    · exact .number number

end CausalUpdate.Grammar
