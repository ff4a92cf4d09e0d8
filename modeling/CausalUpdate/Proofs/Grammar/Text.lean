import CausalUpdate.Proofs.Grammar.Rule
import CausalUpdate.Proofs.Program.Reading

/-!
# Reading what the language calls a program

Comments are taken out first, and what is left is cut at the dots.  The texts for which no fault is
found are those of the language, and what is read from them are the clauses they write
(`readClauses_iff`).
-/

namespace CausalUpdate.Grammar

open CausalUpdate.Text

/-! ## Comments -/

lemma stripComments_plain {plain : List Char} (h : '%' ∉ plain) (cs : List Char) :
    stripComments false (plain ++ cs) = plain ++ stripComments false cs := by
  induction plain with
  | nil => rfl
  | cons c plain ih =>
      have other : c ≠ '%' := fun e => h (e ▸ List.mem_cons_self)
      rw [List.cons_append, stripComments, ih (List.not_mem_of_not_mem_cons h)]
      simp [other]

lemma stripComments_comment {comment : List Char} (h : '\n' ∉ comment) (cs : List Char) :
    stripComments true (comment ++ cs) = stripComments true cs := by
  induction comment with
  | nil => rfl
  | cons c comment ih =>
      have other : c ≠ '\n' := fun e => h (e ▸ List.mem_cons_self)
      rw [List.cons_append, stripComments, ih (List.not_mem_of_not_mem_cons h)]
      simp [other]

lemma stripComments_mark (cs : List Char) :
    stripComments false ('%' :: cs) = stripComments true cs := by
  simp [stripComments]

lemma stripComments_of_uncommented {cs bare : List Char} (h : Uncommented cs bare) :
    stripComments false cs = bare := by
  induction h with
  | plain plain => simpa [stripComments] using stripComments_plain plain []
  | last plain line =>
      rw [stripComments_plain plain, stripComments_mark]
      simpa [stripComments] using stripComments_comment line []
  | comment plain line _ ih =>
      rw [stripComments_plain plain, stripComments_mark, stripComments_comment line, ← ih]
      simp [stripComments]

/-- What is left without the comments, read from the inside of a comment or from the outside. -/
lemma uncommented_stripComments (cs : List Char) :
    (∀ plain, '%' ∉ plain → Uncommented (plain ++ cs) (plain ++ stripComments false cs)) ∧
      ∀ plain comment, '%' ∉ plain → '\n' ∉ comment →
        Uncommented (plain ++ '%' :: (comment ++ cs)) (plain ++ stripComments true cs) := by
  induction cs with
  | nil =>
      refine ⟨fun plain hp => ?_, fun plain comment hp hc => ?_⟩
      · simpa [stripComments] using Uncommented.plain hp
      · simpa [stripComments] using Uncommented.last hp hc
  | cons c cs ih =>
      obtain ⟨outside, inside⟩ := ih
      refine ⟨fun plain hp => ?_, fun plain comment hp hc => ?_⟩
      · by_cases mark : c = '%'
        · subst mark
          rw [stripComments_mark]
          exact inside plain [] hp (by simp)
        · have step := outside (plain ++ [c]) (by simp [hp, Ne.symm mark])
          have stays : stripComments false (c :: cs) = c :: stripComments false cs := by
            simp [stripComments, mark]
          rw [stays]
          simpa using step
      · by_cases line : c = '\n'
        · subst line
          have stays : stripComments true ('\n' :: cs) = '\n' :: stripComments false cs := by
            simp [stripComments]
          rw [stays]
          exact .comment hp hc (outside ['\n'] (by decide))
        · have step := inside plain (comment ++ [c]) hp (by simp [hc, Ne.symm line])
          have goes : stripComments true (c :: cs) = stripComments true cs := by
            simp [stripComments, line]
          rw [goes]
          simpa using step

lemma uncommented_iff {cs bare : List Char} :
    Uncommented cs bare ↔ stripComments false cs = bare := by
  refine ⟨stripComments_of_uncommented, ?_⟩
  rintro rfl
  exact (uncommented_stripComments cs).1 [] (by simp)

/-! ## Statements -/

section

variable {cs : List Char}

lemma pieces_append_dot (h : '.' ∉ cs) (ds : List Char) :
    pieces (· = '.') (cs ++ '.' :: ds) = cs :: pieces (· = '.') ds := by
  induction cs with
  | nil => simp [pieces]
  | cons c cs ih =>
      have other : c ≠ '.' := fun e => h (e ▸ List.mem_cons_self)
      rw [List.cons_append, pieces, ih (List.not_mem_of_not_mem_cons h)]
      simp [other]

lemma intercalate_pieces (cs : List Char) : ['.'].intercalate (pieces (· = '.') cs) = cs := by
  induction cs with
  | nil => rfl
  | cons c cs ih =>
      obtain ⟨p, ps, e⟩ := List.exists_cons_of_ne_nil (pieces_ne_nil (· = '.') cs)
      rw [pieces]
      rw [e] at ih ⊢
      split
      · rename_i dot
        rw [List.intercalate_cons_cons, ih, of_decide_eq_true dot]
        rfl
      · rw [List.modifyHead_cons, ← ih]
        cases ps with
        | nil => rw [List.intercalate_singleton, List.intercalate_singleton]
        | cons q ps => rw [List.intercalate_cons_cons, List.intercalate_cons_cons]; rfl

lemma blankOnly_iff : blankOnly cs ↔ Gap cs :=
  List.all_eq_true

lemma WritesRule.not_blankOnly {c : Clause} (h : WritesRule cs c) : blankOnly cs = false := by
  rw [Bool.eq_false_iff]
  intro blank
  have read := Clause.parse_ok_iff.2 h
  rw [Clause.parse, trim_eq_nil_iff.2 (blankOnly_iff.1 blank)] at read
  cases read

/-- The pieces between the dots give these clauses, and no fault is found. -/
def Gives (ps : List (List Char)) (clauses : List Clause) : Prop :=
  (trim (ps.getLast?.getD [])).isEmpty ∧
    readStatements (ps.dropLast.filter fun s => !blankOnly s) = (clauses, none)

lemma gives_singleton_iff {clauses : List Clause} :
    Gives [cs] clauses ↔ Gap cs ∧ clauses = [] := by
  show (trim cs).isEmpty ∧ ([], none) = (clauses, none) ↔ _
  rw [List.isEmpty_iff, trim_eq_nil_iff, Prod.mk.injEq]
  exact ⟨fun h => ⟨h.1, h.2.1.symm⟩, fun h => ⟨h.1, h.2.symm, rfl⟩⟩

lemma readStatements_cons_iff {s : List Char} {ss : List (List Char)} {clauses : List Clause} :
    readStatements (s :: ss) = (clauses, none) ↔
      ∃ c rest, WritesRule s c ∧ clauses = c :: rest ∧ readStatements ss = (rest, none) := by
  rw [readStatements]
  constructor
  · intro h
    split at h
    · cases h
    · rename_i c read
      simp only [Prod.mk.injEq] at h
      exact ⟨c, (readStatements ss).1, Clause.parse_ok_iff.1 read, h.1.symm, Prod.ext rfl h.2⟩
  · rintro ⟨c, rest, rule, rfl, others⟩
    simp only [Clause.parse_ok_iff.2 rule, others]

/-- One more piece in front is blank or a rule. -/
lemma gives_cons_iff {ps : List (List Char)} (hne : ps ≠ []) {clauses : List Clause} :
    Gives (cs :: ps) clauses ↔ Gap cs ∧ Gives ps clauses ∨
      ∃ c rest, WritesRule cs c ∧ clauses = c :: rest ∧ Gives ps rest := by
  have last : (cs :: ps).getLast? = ps.getLast? := by
    obtain ⟨p, ps, rfl⟩ := List.exists_cons_of_ne_nil hne
    rfl
  rw [Gives, last, List.dropLast_cons_of_ne_nil hne]
  by_cases blank : blankOnly cs
  · rw [List.filter_cons_of_neg (by simp [blank])]
    constructor
    · exact fun h => .inl ⟨blankOnly_iff.1 blank, h⟩
    · rintro (⟨-, h⟩ | ⟨c, rest, rule, -⟩)
      · exact h
      · exact absurd blank (by simp [rule.not_blankOnly])
  · rw [List.filter_cons_of_pos (by simp [blank]), readStatements_cons_iff]
    constructor
    · rintro ⟨done, c, rest, rule, rfl, others⟩
      exact .inr ⟨c, rest, rule, rfl, done, others⟩
    · rintro (⟨gap, -⟩ | ⟨c, rest, rule, rfl, done, others⟩)
      · exact absurd (blankOnly_iff.2 gap) blank
      · exact ⟨done, c, rest, rule, rfl, others⟩

lemma Gives.writesStatements {ps : List (List Char)} (hne : ps ≠ []) {clauses : List Clause}
    (h : Gives ps clauses) : WritesStatements (['.'].intercalate ps) clauses := by
  induction ps generalizing clauses with
  | nil => exact absurd rfl hne
  | cons p ps ih =>
      cases ps with
      | nil =>
          obtain ⟨gap, rfl⟩ := gives_singleton_iff.1 h
          rw [List.intercalate_singleton]
          exact .done gap
      | cons q ps =>
          have some : q :: ps ≠ [] := List.cons_ne_nil q ps
          rw [List.intercalate_cons_cons, List.append_assoc, List.singleton_append]
          rcases (gives_cons_iff some).1 h with ⟨gap, rest⟩ | ⟨c, clauses, rule, rfl, rest⟩
          · exact .blank gap (ih some rest)
          · exact .rule rule (ih some rest)

/-- **The statements of a text are the pieces between its dots.** -/
lemma writesStatements_iff {clauses : List Clause} :
    WritesStatements cs clauses ↔ Gives (pieces (· = '.') cs) clauses := by
  have noDot : ∀ {cs}, Gap cs → '.' ∉ cs := fun blank h => absurd (blank _ h) (by decide)
  constructor
  · intro h
    induction h with
    | done blank =>
        rw [pieces_of_not_mem (noDot blank)]
        exact gives_singleton_iff.2 ⟨blank, rfl⟩
    | blank blank _ ih =>
        rw [pieces_append_dot (noDot blank)]
        exact (gives_cons_iff (pieces_ne_nil _ _)).2 (.inl ⟨blank, ih⟩)
    | @rule cs ds c clauses rule _ ih =>
        have plain : '.' ∉ cs := fun h => absurd (rule.chars _ h) (by decide)
        rw [pieces_append_dot plain]
        exact (gives_cons_iff (pieces_ne_nil _ _)).2 (.inr ⟨c, clauses, rule, rfl, ih⟩)
  · intro h
    rw [← intercalate_pieces cs]
    exact h.writesStatements (pieces_ne_nil _ _)

end

/-! ## Texts -/

/-- **The texts of the language are those in which no fault is found.** -/
theorem readClauses_iff {text : String} {clauses : List Clause} :
    readClauses text.toList = (clauses, none) ↔ WritesText text clauses := by
  have shape : readClauses text.toList = (clauses, none) ↔
      Gives (pieces (· = '.') (stripComments false text.toList)) clauses := by
    unfold readClauses Gives
    simp only
    split
    · rename_i done
      exact ⟨fun h => ⟨done, h⟩, And.right⟩
    · rename_i missing
      exact ⟨nofun, fun h => absurd h.1 missing⟩
  rw [shape, ← writesStatements_iff]
  simp only [WritesText, uncommented_iff, exists_eq_left']

lemma WritesStatements.behind {gap cs : List Char} {clauses : List Clause}
    (h : WritesStatements cs clauses) (blank : Gap gap) : WritesStatements (cs ++ gap) clauses := by
  induction h with
  | done blank' => exact .done (blank'.append blank)
  | blank blank' _ ih =>
      rw [List.append_assoc, List.cons_append]
      exact .blank blank' ih
  | rule first _ ih =>
      rw [List.append_assoc, List.cons_append]
      exact .rule first ih

lemma stripComments_line_feed (inside : Bool) (cs : List Char) :
    stripComments inside (cs ++ ['\n']) = stripComments inside cs ++ ['\n'] := by
  induction cs generalizing inside with
  | nil => simp [stripComments]
  | cons c cs ih =>
      rw [List.cons_append, stripComments, stripComments, ih false, ih true]
      split
      · rfl
      · split <;> rfl

/-- A line feed may end a text. -/
lemma WritesText.line_feed {text : String} {clauses : List Clause} (h : WritesText text clauses) :
    WritesText (text ++ "\n") clauses := by
  obtain ⟨bare, uncommented, statements⟩ := h
  refine ⟨bare ++ ['\n'], ?_, statements.behind (by decide)⟩
  rw [uncommented_iff] at uncommented ⊢
  rw [String.toList_append, ← uncommented]
  exact stripComments_line_feed false text.toList

/-- A text that is blank apart from its comments writes no clauses. -/
lemma WritesText.eq_nil_of_blankOnly {text : String} {clauses : List Clause}
    (h : WritesText text clauses) (blank : blankOnly (stripComments false text.toList)) :
    clauses = [] := by
  obtain ⟨bare, uncommented, statements⟩ := h
  have noDot : '.' ∉ bare := by
    intro dot
    rw [← uncommented_iff.1 uncommented] at dot
    exact absurd (blankOnly_iff.1 blank _ dot) (by decide)
  rw [writesStatements_iff, pieces_of_not_mem noDot, gives_singleton_iff] at statements
  exact statements.2

/-- No clause that is written is empty. -/
lemma WritesText.not_isEmpty {text : String} {clauses : List Clause} (h : WritesText text clauses) :
    ∀ c ∈ clauses, c.isEmpty = false := by
  obtain ⟨bare, -, statements⟩ := h
  induction statements with
  | done => simp
  | blank _ _ ih => exact ih
  | rule first _ ih => exact List.forall_mem_cons.2 ⟨first.not_isEmpty, ih⟩

end CausalUpdate.Grammar
