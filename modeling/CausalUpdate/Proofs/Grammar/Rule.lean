import CausalUpdate.Proofs.Grammar.Literal
import CausalUpdate.Rule.Parse

/-!
# Reading what the language calls a rule

A rule text is cut at its arrow, its body at the commas outside parentheses, and an item at the word
`not` in front of a blank.  None of these cuts can go wrong: the arrow, a comma and the word stand
nowhere else in a rule of the language, and what was cut wrongly in any other text is no literal.
Thus the rules that are read are those of the language (`Clause.parse_ok_iff`).
-/

namespace CausalUpdate.Grammar

open CausalUpdate.Text

variable {cs : List Char}

/-! ## Items -/

instance : DecidablePred LiteralChar := fun _ => inferInstanceAs (Decidable (_ ∨ _ ∨ _))

lemma behindNot?_eq_some_iff {inner : List Char} : behindNot? cs = some inner ↔
    ∃ c rest, cs = 'n' :: 'o' :: 't' :: c :: rest ∧ isBlank c ∧
      inner = rest.dropWhile isBlank ∧ inner ≠ [] := by
  constructor
  · intro h
    unfold behindNot? at h
    split at h
    · rename_i c rest
      simp only at h
      split at h
      · rename_i found
        rw [Bool.and_eq_true, Bool.not_eq_true', List.isEmpty_eq_false_iff] at found
        cases h
        exact ⟨c, rest, rfl, found.1, rfl, found.2⟩
      · cases h
    · cases h
  · rintro ⟨c, rest, rfl, blank, rfl, nonempty⟩
    simp [behindNot?, blank, nonempty]

lemma WritesArguments.behind {terms : List String} (h : WritesArguments cs terms) :
    ∃ arguments, Behind cs arguments := by
  cases h with
  | none => exact ⟨Option.none, .nothing .nil⟩
  | group blank _ => exact ⟨_, .parentheses blank⟩

/-- The word `not` in front of a blank is no name. -/
lemma behindNot?_literal {l : Literal} (h : WritesLiteral cs l) : behindNot? cs = none := by
  rw [Option.eq_none_iff_forall_not_mem]
  intro inner found
  obtain ⟨c, rest, e, blank, -, -⟩ := behindNot?_eq_some_iff.1 found
  obtain ⟨signed, named, keyword, applied⟩ := h
  have ends : isIdentifierRest c = false := by
    rw [Bool.eq_false_iff]
    intro rest
    simp [not_isBlank_of_isIdentifierRest rest] at blank
  cases signed with
  | minus => cases e
  | none =>
      obtain ⟨arguments, behind⟩ := applied.behind
      have name := (cut_name .nil (name_iff.1 named) behind.ends).1
      have word := (@cut_name [] ['n', 'o', 't'] (c :: rest) .nil (by decide)
        (by simpa using ends)).1
      rw [e] at name
      exact keyword (name.symm.trans word)

lemma WritesItem.exists_literal {i : Item} (h : WritesItem cs i) :
    ∃ front ds l, cs = front ++ ds ∧ WritesLiteral ds l ∧ (∀ c ∈ front, LiteralChar c) ∧
      (∀ c, cs.head? = some c → isBlank c = false) := by
  cases h with
  | plain literal =>
      exact ⟨[], cs, _, rfl, literal, by simp, literal.begins⟩
  | negated blank apart literal =>
      refine ⟨_ :: _ :: _ :: _, _, _, rfl, literal, ?_, ?_⟩
      · simp only [List.forall_mem_cons]
        exact ⟨by decide, by decide, by decide, blank.literalChar⟩
      · intro c hc
        obtain rfl : 'n' = c := by simpa using hc
        decide

lemma trimmed_item : Trimmed WritesItem := by
  intro cs i h
  obtain ⟨front, ds, l, rfl, literal, -, begins⟩ := h.exists_literal
  refine trimBy_eq_self_of_ends begins fun c hc => ?_
  rw [List.getLast?_append_of_ne_nil _ literal.ne_nil] at hc
  exact literal.stops c hc

lemma WritesItem.chars {i : Item} (h : WritesItem cs i) : ∀ c ∈ cs, LiteralChar c := by
  obtain ⟨front, ds, l, rfl, literal, chars, -⟩ := h.exists_literal
  exact List.forall_mem_append.2 ⟨chars, literal.chars⟩

lemma uncut_item : Uncut WritesItem := by
  intro cs i h
  have literal : ∀ {ds l}, WritesLiteral ds l → Unbroken [','] ds := fun h =>
    unbroken_literal h (List.forall_mem_singleton.2 (by decide))
  cases h with
  | plain h => exact literal h
  | negated blank apart h =>
      have word : Unbroken [','] ['n', 'o', 't'] := .of_flat (by simp; decide) (by simp)
      exact word.append (blank.uncut.append (literal h))

/-- Behind the word `not` stands what follows the blanks. -/
lemma behindNot?_negated {gap : List Char} {l : Literal} (blank : Gap gap) (apart : gap ≠ [])
    (literal : WritesLiteral cs l) : behindNot? ('n' :: 'o' :: 't' :: (gap ++ cs)) = some cs := by
  obtain ⟨c, gap, rfl⟩ := List.exists_cons_of_ne_nil apart
  have inner : cs = (gap ++ cs).dropWhile isBlank := by
    rw [List.dropWhile_append_of_pos fun c hc => blank c (List.mem_cons_of_mem _ hc),
      dropWhile_eq_self_of_head? literal.begins]
  exact behindNot?_eq_some_iff.2
    ⟨c, gap ++ cs, rfl, blank c List.mem_cons_self, inner, literal.ne_nil⟩

/-- An item is read as a literal, behind the word `not` if that stands in front of it. -/
lemma spaced_item_iff {i : Item} : Spaced WritesItem cs i ↔
    match behindNot? (trim cs) with
    | some inner => ∃ l, Literal.parse inner = .ok l ∧ i = .negated l
    | none => ∃ l, Literal.parse (trim cs) = .ok l ∧ i = .plain l := by
  constructor
  · intro h
    rw [spaced_iff trimmed_item] at h
    generalize trim cs = t at h ⊢
    cases h with
    | plain literal =>
        rw [behindNot?_literal literal]
        exact ⟨_, parse_ok_iff.2 (.of_part literal), rfl⟩
    | negated blank apart literal =>
        rw [behindNot?_negated blank apart literal]
        exact ⟨_, parse_ok_iff.2 (.of_part literal), rfl⟩
  · intro h
    refine Spaced.of_spaced_trim ?_
    split at h
    · rename_i inner found
      obtain ⟨l, read, rfl⟩ := h
      obtain ⟨c, rest, e, blank, rfl, -⟩ := behindNot?_eq_some_iff.1 found
      obtain ⟨before, ds, after, hb, ha, literal, split⟩ := parse_ok_iff.1 read
      have gap : Gap (c :: rest.takeWhile isBlank ++ before) :=
        Gap.append (List.forall_mem_cons.2 ⟨blank, fun c => List.mem_takeWhile_imp⟩) hb
      refine ⟨[], _, after, .nil, ha, .negated gap (by simp) literal, ?_⟩
      rw [e]
      conv_lhs => rw [← List.takeWhile_append_dropWhile (p := isBlank) (l := rest), split]
      simp
    · obtain ⟨l, read, rfl⟩ := h
      obtain ⟨before, ds, after, hb, ha, literal, split⟩ := parse_ok_iff.1 read
      exact ⟨before, ds, after, hb, ha, .plain literal, split⟩

/-! ## Bodies -/

/-- The positive and the negative literals of items. -/
def bodiesOf (items : List Item) : List Literal × List Literal :=
  (items.filterMap Item.plain?, items.filterMap Item.negated?)

lemma parseItems_ok_iff {ps : List (List Char)} {bodies : List Literal × List Literal} :
    parseItems (ps.map trim) = .ok bodies ↔
      ∃ items, List.Forall₂ (Spaced WritesItem) ps items ∧ bodies = bodiesOf items := by
  induction ps generalizing bodies with
  | nil => simp [parseItems, List.forall₂_nil_left_iff, bodiesOf, eq_comm]
  | cons p ps ih =>
      rw [List.map_cons, parseItems]
      constructor
      · intro h
        split at h
        · rename_i inner found
          obtain ⟨l, read, h⟩ := Except.bind_ok h
          obtain ⟨others, readOthers, h⟩ := Except.bind_ok h
          obtain ⟨items, parts, rfl⟩ := ih.1 readOthers
          cases h
          refine ⟨.negated l :: items, .cons (spaced_item_iff.2 ?_) parts, rfl⟩
          rw [found]
          exact ⟨l, read, rfl⟩
        · rename_i found
          obtain ⟨l, read, h⟩ := Except.bind_ok h
          obtain ⟨others, readOthers, h⟩ := Except.bind_ok h
          obtain ⟨items, parts, rfl⟩ := ih.1 readOthers
          cases h
          refine ⟨.plain l :: items, .cons (spaced_item_iff.2 ?_) parts, rfl⟩
          rw [found]
          exact ⟨l, read, rfl⟩
      · rintro ⟨items, parts, rfl⟩
        cases parts with
        | cons first rest =>
            have others := ih.2 ⟨_, rest, rfl⟩
            rw [spaced_item_iff] at first
            cases found : behindNot? (trim p) with
            | some inner =>
                rw [found] at first
                obtain ⟨l, read, rfl⟩ := first
                simp only [read, others]
                rfl
            | none =>
                rw [found] at first
                obtain ⟨l, read, rfl⟩ := first
                simp only [read, others]
                rfl

lemma trim_eq_nil_iff : trim cs = [] ↔ Gap cs := by
  constructor
  · intro h
    obtain ⟨before, after, hb, ha, e⟩ := exists_blanks_around cs
    rw [h, List.append_nil] at e
    exact e ▸ Gap.append hb ha
  · intro h
    simpa using trim_append_blanks h []

/-- A body that is read is not empty. -/
lemma Listed.ne_nil {α : Type} {part : List Char → α → Prop} {as : List α}
    (nonempty : ∀ a, ¬ part [] a) (h : Listed part cs as) : cs ≠ [] := by
  cases h with
  | one last =>
      rintro rfl
      exact nonempty _ last
  | more => simp

lemma not_spaced_item_nil (i : Item) : ¬ Spaced WritesItem [] i := by
  rw [spaced_iff trimmed_item, trim_nil]
  intro h
  obtain ⟨front, ds, l, e, literal, -, -⟩ := h.exists_literal
  exact literal.ne_nil (List.append_eq_nil_iff.1 e.symm).2

/-- The bodies that are read are those of listed items. -/
lemma parseBody_ok_iff {statement : List Char} {bodies : List Literal × List Literal} :
    parseBody statement (trim cs) = .ok bodies ↔
      ∃ items, Listed (Spaced WritesItem) cs items ∧ bodies = bodiesOf items := by
  have trimmed : ∀ items, Listed (Spaced WritesItem) (trim cs) items ↔
      Listed (Spaced WritesItem) cs items := fun _ => listed_trim_iff trimmed_item
  simp only [← trimmed]
  generalize trim cs = t
  unfold parseBody
  split
  · rename_i none
    refine ⟨nofun, ?_⟩
    rintro ⟨items, listed, -⟩
    exact absurd (List.isEmpty_iff.1 none) (listed.ne_nil not_spaced_item_nil)
  · simp only [listed_iff uncut_item.spaced]
    split
    · rename_i unbalanced
      simp [unbalanced]
    · rename_i ps cut
      rw [parseItems_ok_iff]
      simp [cut]

/-! ## Rules -/

/-- The heads that are read are literals and nothing at all. -/
lemma parseHead_ok_iff {statement : List Char} {head : Option Literal} :
    parseHead statement (trim cs) = .ok head ↔
      head = none ∧ Gap cs ∨ ∃ l, head = some l ∧ Spaced WritesLiteral cs l := by
  constructor
  · intro h
    unfold parseHead at h
    split at h
    · rename_i none
      cases h
      exact .inl ⟨rfl, trim_eq_nil_iff.1 (List.isEmpty_iff.1 none)⟩
    · split at h
      · cases h
      · split at h
        · cases h
        · split at h
          · cases h
          · obtain ⟨l, read, rfl⟩ := Except.map_eq_ok_iff.1 h
            exact .inr ⟨l, rfl, .of_spaced_trim (parse_ok_iff.1 read)⟩
  · rintro (⟨rfl, blank⟩ | ⟨l, rfl, literal⟩)
    · rw [trim_eq_nil_iff.2 blank]
      rfl
    · rw [spaced_iff trimmed_literal] at literal
      have nonempty : (trim cs).isEmpty = false := List.isEmpty_eq_false_iff.2 literal.ne_nil
      have unbroken : Unbroken [',', ';', '|'] (trim cs) := unbroken_literal literal (by
        simp only [List.forall_mem_cons, List.not_mem_nil, false_implies, implies_true, and_true]
        decide)
      have cut := unbroken.topLevelPieces_eq
      have read : Literal.parse (trim cs) = .ok l := parse_ok_iff.2 (.of_part literal)
      simp only [parseHead, nonempty, cut, behindNot?_literal literal, read]
      rfl

/-- The texts that are cut at a mark were joined by it. -/
lemma intercalate_piecesAt (a b : Char) (cs : List Char) :
    [a, b].intercalate (piecesAt a b cs) = cs := by
  have nonempty : ∀ cs, piecesAt a b cs ≠ [] := by
    intro cs
    fun_induction piecesAt a b cs <;> simp_all
  fun_induction piecesAt a b cs with
  | case1 => rfl
  | case2 c => rfl
  | case3 c d cs mark ih =>
      obtain ⟨p, ps, e⟩ := List.exists_cons_of_ne_nil (nonempty cs)
      rw [e] at ih ⊢
      rw [List.intercalate_cons_cons, ih, mark.1, mark.2]
      rfl
  | case4 c d cs _ ih =>
      obtain ⟨p, ps, e⟩ := List.exists_cons_of_ne_nil (nonempty (d :: cs))
      rw [e] at ih ⊢
      rw [List.modifyHead_cons, ← ih]
      cases ps with
      | nil => rw [List.intercalate_singleton, List.intercalate_singleton]
      | cons q ps => rw [List.intercalate_cons_cons, List.intercalate_cons_cons]; rfl

lemma piecesAt_append {a b : Char} {xs : List Char} (h : a ∉ xs) (ys : List Char) :
    piecesAt a b (xs ++ a :: b :: ys) = xs :: piecesAt a b ys := by
  induction xs with
  | nil => simp [piecesAt]
  | cons x xs ih =>
      have rest := ih (List.not_mem_of_not_mem_cons h)
      have other : x ≠ a := fun e => h (e ▸ List.mem_cons_self)
      cases xs with
      | nil =>
          rw [List.nil_append] at rest
          rw [List.singleton_append, piecesAt, if_neg (fun mark => other mark.1), rest]
          rfl
      | cons y xs =>
          rw [List.cons_append] at rest
          rw [List.cons_append, List.cons_append, piecesAt, if_neg (fun mark => other mark.1), rest]
          rfl

lemma WritesRule.around {before after : List Char} {c : Clause} (h : WritesRule cs c)
    (hb : Gap before) (ha : Gap after) : WritesRule (before ++ cs ++ after) c := by
  cases h with
  | fact head => exact .fact ((head.before hb).behind ha)
  | rule head body =>
      rw [← List.append_assoc, List.append_assoc _ _ after]
      exact .rule (head.before hb) (body.behind ha)
  | constraint blank body =>
      rw [← List.append_assoc, List.append_assoc _ _ after]
      exact .constraint (hb.append blank) (body.behind ha)

lemma spaced_literal_chars {l : Literal} (h : Spaced WritesLiteral cs l) :
    ∀ c ∈ cs, LiteralChar c :=
  h.char_cases (fun _ blank => .inr (.inl blank)) fun _ _ literal => literal.chars

lemma listed_items_chars {items : List Item} (h : Listed (Spaced WritesItem) cs items) :
    ∀ c ∈ cs, LiteralChar c :=
  h.char_cases (fun _ _ spaced => spaced.char_cases (fun _ blank => .inr (.inl blank))
    fun _ _ item => item.chars) (by decide)

lemma not_mem_of_literalChars {d : Char} (h : ∀ c ∈ cs, LiteralChar c) (other : ¬ LiteralChar d) :
    d ∉ cs :=
  fun hd => other (h d hd)

lemma WritesRule.chars {c : Clause} (h : WritesRule cs c) :
    ∀ d ∈ cs, LiteralChar d ∨ d = ':' := by
  have arrow : ∀ {xs ys : List Char}, (∀ d ∈ xs, LiteralChar d) → (∀ d ∈ ys, LiteralChar d) →
      ∀ d ∈ xs ++ ':' :: '-' :: ys, LiteralChar d ∨ d = ':' := by
    intro xs ys hx hy
    simp only [List.forall_mem_append, List.forall_mem_cons]
    exact ⟨fun d hd => .inl (hx d hd), .inr trivial, .inl (by decide), fun d hd => .inl (hy d hd)⟩
  cases h with
  | fact head => exact fun d hd => .inl (spaced_literal_chars head d hd)
  | rule head body => exact arrow (spaced_literal_chars head) (listed_items_chars body)
  | constraint blank body => exact arrow blank.literalChar (listed_items_chars body)

lemma isEmpty_clauseOf {head : Option Literal} {items : List Item} (h : items ≠ []) :
    (clauseOf head items).isEmpty = false := by
  obtain ⟨i, items, rfl⟩ := List.exists_cons_of_ne_nil h
  cases i <;> simp [clauseOf, Clause.isEmpty]

lemma WritesRule.not_isEmpty {c : Clause} (h : WritesRule cs c) : c.isEmpty = false := by
  have listed : ∀ {ds items}, Listed (Spaced WritesItem) ds items → items ≠ [] := by
    rintro ds items (_ | _) <;> simp
  cases h with
  | fact => rfl
  | rule => rfl
  | constraint _ body => exact isEmpty_clauseOf (listed body)

lemma trim_arrow (xs ys : List Char) : trim (xs ++ ':' :: '-' :: ys) =
    xs.dropWhile isBlank ++ ':' :: '-' :: ys.rdropWhile isBlank := by
  have minus : ('-' :: ys).rdropWhile isBlank = '-' :: ys.rdropWhile isBlank :=
    rdropWhile_append_cons (by decide) [] ys
  rw [trim_append_cons (by decide), minus]

lemma parse_arrow {xs ys : List Char} {head : Option Literal} {items : List Item}
    (chars : ∀ c ∈ xs, LiteralChar c)
    (read : ∀ statement, parseHead statement (trim xs) = .ok head)
    (body : Listed (Spaced WritesItem) ys items) :
    Clause.parse (xs ++ ':' :: '-' :: ys) = .ok (clauseOf head items) := by
  have left : ':' ∉ xs.dropWhile isBlank :=
    fun h => not_mem_of_literalChars chars (by decide) ((List.dropWhile_sublist _).subset h)
  have right : ':' ∉ ys.rdropWhile isBlank :=
    not_mem_of_literalChars (listed_items_chars (body.rdropWhile trimmed_item)) (by decide)
  have cut : piecesAt ':' '-' (trim (xs ++ ':' :: '-' :: ys)) =
      [xs.dropWhile isBlank, ys.rdropWhile isBlank] := by
    rw [trim_arrow, piecesAt_append left, piecesAt_of_not_mem right]
  have readBody : ∀ statement, parseBody statement (trim ys) = .ok (bodiesOf items) :=
    fun statement => parseBody_ok_iff.2 ⟨items, body, rfl⟩
  simp only [Clause.parse, cut, trim_dropWhile, trim_rdropWhile, read, readBody]
  rfl

lemma parse_fact {l : Literal} (head : Spaced WritesLiteral cs l) :
    Clause.parse cs = .ok (clauseOf (some l) []) := by
  have spaced : Spaced WritesLiteral (trim cs) l :=
    .of_part ((spaced_iff trimmed_literal).1 head)
  have cut : piecesAt ':' '-' (trim cs) = [trim cs] :=
    piecesAt_of_not_mem (not_mem_of_literalChars (spaced_literal_chars spaced) (by decide))
  have read : parseHead (trim cs) (trim (trim cs)) = .ok (some l) :=
    parseHead_ok_iff.2 (.inr ⟨l, rfl, spaced⟩)
  simp only [Clause.parse, cut, read]
  rfl

/-- A text that is read as a rule writes it. -/
lemma writesRule_of_parse {c : Clause} (h : Clause.parse cs = .ok c) : WritesRule (trim cs) c := by
  have joined := intercalate_piecesAt ':' '-' (trim cs)
  unfold Clause.parse at h
  simp only at h
  split at h
  · rename_i head cut
    rw [cut, List.intercalate_singleton] at joined
    obtain ⟨l, read, h⟩ := Except.bind_ok h
    split at h
    · cases h
    · cases h
      rcases parseHead_ok_iff.1 read with ⟨none, -⟩ | ⟨l, some, literal⟩
      · cases none
      · cases some
        exact joined ▸ .fact literal
  · rename_i head body cut
    rw [cut, List.intercalate_cons_cons, List.intercalate_singleton, List.append_assoc] at joined
    obtain ⟨l, readHead, h⟩ := Except.bind_ok h
    obtain ⟨bodies, readBody, h⟩ := Except.bind_ok h
    obtain ⟨items, listed, rfl⟩ := parseBody_ok_iff.1 readBody
    cases h
    rw [← joined]
    rcases parseHead_ok_iff.1 readHead with ⟨rfl, blank⟩ | ⟨l, rfl, literal⟩
    · exact .constraint blank listed
    · exact .rule literal listed
  · cases h

/-- **The texts of rules are those that are read as rules.** -/
theorem Clause.parse_ok_iff {c : Clause} : Clause.parse cs = .ok c ↔ WritesRule cs c := by
  constructor
  · intro h
    obtain ⟨before, after, hb, ha, e⟩ := exists_blanks_around cs
    rw [e]
    exact (writesRule_of_parse h).around hb ha
  · intro h
    cases h with
    | fact head => exact parse_fact head
    | rule head body =>
        exact parse_arrow (spaced_literal_chars head)
          (fun _ => parseHead_ok_iff.2 (.inr ⟨_, rfl, head⟩)) body
    | constraint blank body =>
        exact parse_arrow blank.literalChar
          (fun _ => parseHead_ok_iff.2 (.inl ⟨rfl, blank⟩)) body

end CausalUpdate.Grammar
