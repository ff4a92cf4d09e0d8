import CausalUpdate.Proofs.Grammar.Text
import CausalUpdate.Proofs.StableModel.Rendering

/-!
# What is written is in the language

The text of a clause with readable literals writes this clause (`writesRule_text`), and the
text of a program writes its clauses in their order (`writesText_source`).
-/

namespace CausalUpdate.Grammar

open CausalUpdate.Text

/-! ## Literals and items -/

lemma writesLiteral_text {l : Literal} (h : l.Readable) : WritesLiteral l.text.toList l := by
  have spaced := parse_ok_iff.1 h.parse_text
  rwa [spaced_iff trimmed_literal, trim_eq_self h.text_chars] at spaced

/-- The items of a clause, in the order in which they are written. -/
def itemsOf (c : Clause) : List Item :=
  c.body.map .plain ++ c.negBody.map .negated

lemma clauseOf_itemsOf (c : Clause) : clauseOf c.head (itemsOf c) = c := by
  simp [clauseOf, itemsOf, List.filterMap_append, List.filterMap_map, Function.comp_def]

/-- An item as it is written. -/
def Item.text : Item → String
  | .plain l => l.text
  | .negated l => "not " ++ l.text

/-- The literal of the item is readable. -/
def Item.Readable : Item → Prop
  | .plain l => l.Readable
  | .negated l => l.Readable

lemma writesItem_text {i : Item} (h : i.Readable) : WritesItem i.text.toList i := by
  cases i with
  | plain l => exact .plain (writesLiteral_text h)
  | negated l =>
      have gap : Gap [' '] := by decide
      have chars : (Item.negated l).text.toList =
          'n' :: 'o' :: 't' :: ([' '] ++ l.text.toList) := by
        simp [Item.text]
      rw [chars]
      exact .negated gap (by simp) (writesLiteral_text h)

lemma listed_texts : ∀ {items : List Item}, items ≠ [] → (∀ i ∈ items, i.Readable) →
    Listed (Spaced WritesItem) (String.intercalate ", " (items.map Item.text)).toList items
  | [], h, _ => absurd rfl h
  | [i], _, h => by
      rw [List.map_singleton, String.toList_intercalate, List.map_singleton,
        List.intercalate_singleton]
      exact .one (.of_part (writesItem_text (h i (by simp))))
  | i :: j :: items, _, h => by
      have gap : Gap [' '] := by decide
      have rest := listed_texts (List.cons_ne_nil j items) fun k hk => h k (by simp [hk])
      rw [String.toList_intercalate] at rest ⊢
      rw [List.map_cons, List.map_cons, List.map_cons, List.map_cons, List.intercalate_cons_cons,
        show (", " : String).toList = ',' :: [' '] from rfl, List.append_assoc, List.cons_append]
      exact .more (.of_part (writesItem_text (h i (by simp)))) (rest.before gap)

/-! ## Rules -/

lemma itemsOf_eq_nil_iff {c : Clause} : itemsOf c = [] ↔ c.body = [] ∧ c.negBody = [] := by
  simp [itemsOf]

lemma map_text_itemsOf (c : Clause) : (itemsOf c).map Item.text =
    c.body.map Literal.text ++ c.negBody.map fun l => "not " ++ l.text := by
  simp [itemsOf, Item.text, Function.comp_def]

lemma readable_itemsOf {c : Clause} (h : ∀ l ∈ c.literals, l.Readable) :
    ∀ i ∈ itemsOf c, i.Readable := by
  intro i hi
  rcases List.mem_append.1 hi with hi | hi <;> obtain ⟨l, hl, rfl⟩ := List.mem_map.1 hi <;>
    exact h l (by simp [Clause.literals, Clause.completeBody, hl])

lemma text_eq (c : Clause) : c.text =
    match c.head with
    | none => ":- " ++ String.intercalate ", " ((itemsOf c).map Item.text) ++ "."
    | some h =>
      if itemsOf c = [] then h.text ++ "."
      else h.text ++ " :- " ++ String.intercalate ", " ((itemsOf c).map Item.text) ++ "." := by
  have empty : (c.body.map Literal.text ++ c.negBody.map fun l => "not " ++ l.text).isEmpty = true ↔
      itemsOf c = [] := by
    rw [← map_text_itemsOf, List.isEmpty_iff, List.map_eq_nil_iff]
  cases head : c.head <;> simp only [Clause.text, head, empty, map_text_itemsOf]

/-- **The text of a clause writes the clause**, up to its dot. -/
theorem writesRule_text {c : Clause} (nonempty : c.isEmpty = false)
    (readable : ∀ l ∈ c.literals, l.Readable) :
    ∃ cs, c.text.toList = cs ++ ['.'] ∧ WritesRule cs c := by
  have gap : Gap [' '] := by decide
  have listed : itemsOf c ≠ [] → Listed (Spaced WritesItem)
      (' ' :: (String.intercalate ", " ((itemsOf c).map Item.text)).toList) (itemsOf c) :=
    fun some => (listed_texts some (readable_itemsOf readable)).before gap
  cases head : c.head with
  | none =>
      have some : itemsOf c ≠ [] := by
        intro none
        rw [itemsOf_eq_nil_iff] at none
        simp [Clause.isEmpty, head, none] at nonempty
      have rule := WritesRule.constraint .nil (listed some)
      rw [← head, clauseOf_itemsOf] at rule
      refine ⟨_, ?_, rule⟩
      simp [text_eq, head]
  | some l =>
      have literal : Spaced WritesLiteral l.text.toList l :=
        .of_part (writesLiteral_text (readable l (by simp [Clause.literals, head])))
      by_cases none : itemsOf c = []
      · have rule := WritesRule.fact literal
        rw [show clauseOf (some l) [] = c by rw [← head, ← none, clauseOf_itemsOf]] at rule
        refine ⟨_, ?_, rule⟩
        simp [text_eq, head, none]
      · have rule := WritesRule.rule (literal.behind gap) (listed none)
        rw [← head, clauseOf_itemsOf] at rule
        refine ⟨_, ?_, rule⟩
        simp [text_eq, head, none]

/-- No text of a clause has a carriage return. -/
lemma return_not_mem_text {c : Clause} (readable : ∀ l ∈ c.literals, l.Readable) :
    '\r' ∉ c.text.toList := by
  have literal : ∀ {l : Literal}, l.Readable → '\r' ∉ l.text.toList := by
    intro l h inside
    exact absurd (h.text_chars _ inside) (by decide)
  have item : ∀ i ∈ itemsOf c, '\r' ∉ i.text.toList := by
    intro i hi
    have h := readable_itemsOf readable i hi
    cases i with
    | plain l => exact literal h
    | negated l => simpa [Item.text] using literal h
  have listed : '\r' ∉ (String.intercalate ", " ((itemsOf c).map Item.text)).toList := by
    intro inside
    rw [String.toList_intercalate] at inside
    rcases of_mem_intercalate inside with ⟨cs, hcs, inside⟩ | inside
    · obtain ⟨i, hi, rfl⟩ := by simpa using hcs
      exact item i hi inside
    · simp at inside
  rw [text_eq]
  generalize String.intercalate ", " ((itemsOf c).map Item.text) = body at listed ⊢
  cases head : c.head with
  | none => simpa using listed
  | some l =>
      have front := literal (readable l (by simp [Clause.literals, head]))
      simp only
      split
      · simpa using front
      · simpa using ⟨front, listed⟩

/-! ## Programs -/

lemma WritesStatements.before {gap cs : List Char} {clauses : List Clause} (blank : Gap gap)
    (h : WritesStatements cs clauses) : WritesStatements (gap ++ cs) clauses := by
  cases h with
  | done blank' => exact .done (blank.append blank')
  | blank blank' rest =>
      rw [← List.append_assoc]
      exact .blank (blank.append blank') rest
  | rule first rest =>
      have first := first.around blank .nil
      rw [List.append_nil] at first
      rw [← List.append_assoc]
      exact .rule first rest

/-- Clauses that are written one to a line. -/
lemma writesStatements_texts : ∀ {clauses : List Clause},
    (∀ c ∈ clauses, c.isEmpty = false) → (∀ c ∈ clauses, ∀ l ∈ c.literals, l.Readable) →
      WritesStatements (['\n'].intercalate (clauses.map fun c => c.text.toList)) clauses
  | [], _, _ => .done .nil
  | [c], nonempty, readable => by
      obtain ⟨cs, text, rule⟩ := writesRule_text (nonempty c (by simp)) (readable c (by simp))
      rw [List.map_singleton, List.intercalate_singleton, text]
      exact .rule rule (.done .nil)
  | c :: d :: clauses, nonempty, readable => by
      have gap : Gap ['\n'] := by decide
      obtain ⟨cs, text, rule⟩ := writesRule_text (nonempty c (by simp)) (readable c (by simp))
      have rest := writesStatements_texts (fun e he => nonempty e (List.mem_cons_of_mem c he))
        fun e he => readable e (List.mem_cons_of_mem c he)
      rw [List.map_cons, List.map_cons, List.intercalate_cons_cons, text, List.append_assoc,
        List.append_assoc]
      have rest := WritesStatements.before gap rest
      exact .rule rule rest

lemma toList_source (p : Program) :
    p.source.toList = ['\n'].intercalate (p.clauses.map fun c => c.text.toList) := by
  simp [Program.source, Program.clauses, String.toList_intercalate, Function.comp_def]

lemma return_not_mem_source {p : Program} (readable : ReadableProgram p) :
    '\r' ∉ p.source.toList := by
  intro inside
  rw [toList_source] at inside
  rcases of_mem_intercalate inside with ⟨cs, hcs, inside⟩ | inside
  · obtain ⟨c, hc, rfl⟩ := List.mem_map.1 hcs
    exact return_not_mem_text (readable c hc) inside
  · simp at inside

/-- **The text of a program writes its clauses.** -/
theorem writesText_source {p : Program} (nonempty : ∀ c ∈ p.clauses, c.isEmpty = false)
    (readable : ReadableProgram p) : WritesText p.source p.clauses := by
  have lines := toList_source p
  refine ⟨p.source.toList, .plain fun mark => ?_, ?_⟩
  · rw [lines] at mark
    rcases of_mem_intercalate mark with ⟨cs, hcs, mark⟩ | mark
    · obtain ⟨c, hc, rfl⟩ := List.mem_map.1 hcs
      obtain ⟨cs, text, rule⟩ := writesRule_text (nonempty c hc) (readable c hc)
      rw [text, List.mem_append] at mark
      rcases mark with mark | mark
      · exact absurd (rule.chars _ mark) (by decide)
      · simp at mark
    · simp at mark
  · rw [lines]
    exact writesStatements_texts nonempty readable

end CausalUpdate.Grammar
