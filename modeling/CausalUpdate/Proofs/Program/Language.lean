import CausalUpdate.Proofs.Grammar.Rendering

/-!
# Texts that are accepted

Reading rules succeeds on the texts of the language and on no others, and gives the clauses that the
text writes, in order and under the labels 0, 1, …; reading a program succeeds if besides there is
at least one rule (`accepts_language`).

A program without empty and repeated rules is read back from its own text, whatever it is called and
whatever identifiers have been taken: the same clauses come out in the same order
(`readsBack_of_text`).
-/

namespace CausalUpdate

open CausalUpdate.Text CausalUpdate.Grammar

/-! ## Reading rules -/

lemma mintAll_labels (label : Nat) (cs : List Clause) (g : Ledger) :
    (mintAll label cs g).1.map Rule.label = (List.range' label cs.length).map Int.ofNat := by
  induction cs generalizing label g with
  | nil => rfl
  | cons c cs ih => exact congrArg ((label : Int) :: ·) (ih (label + 1) _)

lemma parseRules_run (text : String) (g : Ledger) : (parseRules text).run g =
    ((match (readClauses text.toList).2 with
      | none => .ok (mintAll 0 (readClauses text.toList).1 g).1
      | some e => .error e), (mintAll 0 (readClauses text.toList).1 g).2) := by
  unfold parseRules
  rcases readClauses text.toList with ⟨clauses, _ | e⟩ <;> rfl

section

variable {text : String} {clauses : List Clause} {rs : List Rule} {g g' : Ledger}

/-- What reading rules gives, if the text is of the language. -/
lemma parseRules_of_writesText (h : WritesText text clauses) (g : Ledger) :
    (parseRules text).run g = (.ok (mintAll 0 clauses g).1, (mintAll 0 clauses g).2) := by
  rw [parseRules_run, readClauses_iff.2 h]

/-- What has been read is of the language. -/
lemma writesText_of_parseRules (run : (parseRules text).run g = (.ok rs, g')) :
    WritesText text (rs.map Rule.toClause) := by
  rw [parseRules_run] at run
  split at run
  · rename_i fault
    cases run
    rw [(mintAll_apply 0 _ g).1, ← readClauses_iff]
    exact Prod.ext rfl fault
  · cases run

/-! ## Reading programs -/

lemma parse_ok_iff_parseRules {name : String} {p : Program} :
    (Program.parse (some text) name).run g = (.ok p, g') ↔ ∃ rs g₁,
      (parseRules text).run g = (.ok rs, g₁) ∧ rs ≠ [] ∧
        Program.addUnrepeated { name } rs g₁ = (p, g') := by
  constructor
  · intro run
    unfold Program.parse at run
    simp only at run
    split at run
    · cases run
    · obtain ⟨rs, g₁, read, rest⟩ := Attempt.bind_ok run
      split at rest
      · cases rest
      · rename_i some
        refine ⟨rs, g₁, read, by simpa using some, ?_⟩
        have gathered : (Except.ok (Program.addUnrepeated { name } rs g₁).1,
            (Program.addUnrepeated { name } rs g₁).2) = (Except.ok p, g') := rest
        rw [Prod.mk.injEq, Except.ok.injEq] at gathered
        exact Prod.ext gathered.1 gathered.2
  · rintro ⟨rs, g₁, read, some, gathered⟩
    have filled : blankOnly (stripComments false text.toList) = false := by
      rw [Bool.eq_false_iff]
      intro blank
      have none := (writesText_of_parseRules read).eq_nil_of_blankOnly blank
      exact some (List.map_eq_nil_iff.1 none)
    have rules : rs.isEmpty = false := List.isEmpty_eq_false_iff.2 some
    simp only [Program.parse, filled, Bool.false_eq_true, if_false, Attempt.run_bind, read, rules]
    exact congrArg (fun pg : Program × Ledger => (Except.ok pg.1, pg.2)) gathered

/-- What has been read has rules. -/
lemma rules_ne_nil_of_parse {name : String} {p : Program}
    (run : (Program.parse (some text) name).run g = (.ok p, g')) : p.rules ≠ [] := by
  obtain ⟨rs, g₁, read, some, gathered⟩ := parse_ok_iff_parseRules.1 run
  have written := writesText_of_parseRules read
  have gathers := addUnrepeated_gathers { name } rs g₁
  rw [gathered] at gathers
  obtain ⟨r, rs, rfl⟩ := List.exists_cons_of_ne_nil some
  have filled := written.not_isEmpty r.toClause (List.mem_map_of_mem List.mem_cons_self)
  obtain ⟨d, hd, -⟩ := gathers.covers List.mem_cons_self filled
  intro none
  simp [Program.clauses, none] at hd

lemma IsRead.rules_ne_nil {next : Nat} {p : Program} (h : IsRead next p) : p.rules ≠ [] := by
  obtain ⟨text, name, q, g, g', run, -, -, same⟩ := h
  cases text with
  | none => cases run
  | some text =>
      intro none
      have clauses := same.clauses_eq
      rw [Program.clauses, none] at clauses
      exact rules_ne_nil_of_parse run (List.map_eq_nil_iff.1 clauses.symm)

end

/-- **The texts that are accepted are those of the language.**  Reading rules succeeds on them and
gives the clauses that the text writes, under the labels 0, 1, …, and on every other text it fails.
Reading a program succeeds if reading rules does and gives any. -/
theorem accepts_language (text name : String) (g : Ledger) :
    (∀ clauses, WritesText text clauses ↔
      ∃ rs g', (parseRules text).run g = (.ok rs, g') ∧ rs.map Rule.toClause = clauses ∧
        rs.map Rule.label = (List.range clauses.length).map Int.ofNat) ∧
    ((∃ e g', (parseRules text).run g = (.error e, g')) ↔ ∀ clauses, ¬ WritesText text clauses) ∧
    ((∃ p g', (Program.parse (some text) name).run g = (.ok p, g')) ↔
      ∃ rs g', (parseRules text).run g = (.ok rs, g') ∧ rs ≠ []) := by
  refine ⟨fun clauses => ⟨fun h => ?_, ?_⟩, ⟨?_, fun none => ?_⟩, ?_⟩
  · refine ⟨_, _, parseRules_of_writesText h g, (mintAll_apply 0 clauses g).1, ?_⟩
    rw [mintAll_labels, List.range_eq_range']
  · rintro ⟨rs, g', run, rfl, -⟩
    exact writesText_of_parseRules run
  · rintro ⟨e, g', run⟩ clauses h
    rw [parseRules_of_writesText h g] at run
    cases run
  · rcases run : (parseRules text).run g with ⟨e | rs, g'⟩
    · exact ⟨e, g', rfl⟩
    · exact absurd (writesText_of_parseRules run) (none _)
  · constructor
    · rintro ⟨p, g', run⟩
      obtain ⟨rs, g₁, read, some, -⟩ := parse_ok_iff_parseRules.1 run
      exact ⟨rs, g₁, read, some⟩
    · rintro ⟨rs, g₁, read, some⟩
      exact ⟨_, _, parse_ok_iff_parseRules.2 ⟨rs, g₁, read, some, rfl⟩⟩

instance (text : String) (clauses : List Clause) : Decidable (WritesText text clauses) :=
  decidable_of_iff _ readClauses_iff

example : WritesText "-a( x,0 ) :- b , not\tnotc.\n. % a." [
    ⟨some ⟨⟨"a", ["x", "0"]⟩, true⟩, [⟨⟨"b", []⟩, false⟩], [⟨⟨"notc", []⟩, false⟩]⟩] := by
  decide

/-! ## Reading what was written -/

/-- The program is read back from its text: its clauses come out in their order, under the labels
0, 1, …. -/
def Program.ReadsBack (p : Program) : Prop :=
  ∀ name g, ∃ q g', (Program.parse (some p.source) name).run g = (.ok q, g') ∧ q.name = name ∧
    q.clauses = p.clauses ∧ q.rules.map Rule.label = (List.range p.rules.length).map Int.ofNat

/-- Rules that say something and nothing twice all come in as they are. -/
lemma Gathers.rules_eq {p q : Program} {n n' : Nat} {rs : List Rule} (h : Gathers p n rs q n')
    (nonempty : ∀ r ∈ rs, r.isEmpty = false)
    (unrepeated : (p.clauses ++ rs.map Rule.toClause).Pairwise fun c d => ¬ c ≈ d)
    (distinct : (p.ids ++ rs.map Rule.id).Nodup) : q.rules = p.rules ++ rs := by
  induction h with
  | nil => simp
  | refused refuses =>
      exfalso
      rcases refuses with empty | ⟨d, hd, e⟩
      · simp [nonempty _ List.mem_cons_self] at empty
      · exact (List.pairwise_append.1 unrepeated).2.2 d hd _ List.mem_cons_self e
  | asIs _ _ _ ih =>
      rw [ih (fun r hr => nonempty r (List.mem_cons_of_mem _ hr)) (by simpa using unrepeated)
        (by simpa using distinct)]
      simp [Program.push]
  | renumbered _ taken =>
      exact absurd rfl ((List.nodup_append.1 distinct).2.2 _ taken _ List.mem_cons_self)

/-- A text that writes the clauses of a program is read as a program with these clauses. -/
lemma Program.parse_of_writesText {p : Program} (rules : p.rules ≠ []) (unrepeated : p.Unrepeated)
    {text : String} (written : WritesText text p.clauses) (name : String) (g : Ledger) :
    ∃ q g', (Program.parse (some text) name).run g = (.ok q, g') ∧ q.name = name ∧
      q.clauses = p.clauses ∧
      q.rules.map Rule.label = (List.range p.rules.length).map Int.ofNat := by
  have read := parseRules_of_writesText written g
  obtain ⟨clauses, ids, -⟩ := mintAll_apply 0 p.clauses g
  have labels := mintAll_labels 0 p.clauses g
  generalize (mintAll 0 p.clauses g).1 = rs at read clauses ids labels
  generalize (mintAll 0 p.clauses g).2 = g₁ at read
  have some : rs ≠ [] := by
    rintro rfl
    exact rules (List.map_eq_nil_iff.1 clauses.symm)
  have gathers := addUnrepeated_gathers { name } rs g₁
  have all : (Program.addUnrepeated { name } rs g₁).1.rules = rs := by
    refine gathers.rules_eq (fun r hr => ?_) ?_ ?_
    · exact written.not_isEmpty r.toClause (clauses ▸ List.mem_map_of_mem hr)
    · rw [clauses]
      exact unrepeated
    · rw [ids]
      exact List.Nodup.map (fun _ _ => Int.ofNat_inj.1) (List.nodup_range' _)
  refine ⟨_, _, parse_ok_iff_parseRules.2 ⟨rs, g₁, read, some, rfl⟩, gathers.name_eq, ?_, ?_⟩
  · rw [Program.clauses, all, clauses]
  · rw [all, labels, Program.clauses, List.length_map, List.range_eq_range']

lemma Program.readsBack_of_unrepeated {p : Program} (rules : p.rules ≠ [])
    (nonempty : ∀ r ∈ p.rules, r.isEmpty = false) (unrepeated : p.Unrepeated)
    (readable : ReadableProgram p) : p.ReadsBack := by
  have filled : ∀ c ∈ p.clauses, c.isEmpty = false := by
    intro c hc
    obtain ⟨r, hr, rfl⟩ := List.mem_map.1 hc
    exact nonempty r hr
  exact parse_of_writesText rules unrepeated (writesText_source filled readable)

/-- What has been accepted can be written and read again. -/
lemma Program.readsBack_of_parse {text name : String} {p : Program} {g g' : Ledger}
    (run : (Program.parse (some text) name).run g = (.ok p, g')) : p.ReadsBack := by
  obtain ⟨rs, g₁, read, some, gathered⟩ := parse_ok_iff_parseRules.1 run
  have written := writesText_of_parseRules read
  have gathers := addUnrepeated_gathers { name } rs g₁
  rw [gathered] at gathers
  have nonempty := gathers.not_isEmpty fun c hc => absurd hc List.not_mem_nil
  refine Program.readsBack_of_unrepeated (rules_ne_nil_of_parse run)
    (fun r hr => nonempty _ (List.mem_map_of_mem hr)) (gathers.unrepeated .nil) fun c hc => ?_
  have inside : c ∈ (readClauses text.toList).1 := by
    rw [readClauses_iff.2 written]
    exact List.mem_map.2 ((gathers.mem_clauses hc).resolve_left List.not_mem_nil)
  exact readable_of_readClauses inside

/-- **Programs are read back from their texts**, if they have rules, none of them empty and no two
of them equivalent, and all their literals can be read.  What has been accepted is such a program,
so that reading, writing and reading again gives what was read first. -/
theorem readsBack_of_text :
    (∀ p : Program, p.rules ≠ [] → (∀ r ∈ p.rules, r.isEmpty = false) → p.Unrepeated →
      ReadableProgram p → p.ReadsBack) ∧
    ∀ (text name : String) (p : Program) (g g' : Ledger),
      (Program.parse (some text) name).run g = (.ok p, g') → p.ReadsBack :=
  ⟨fun _ => Program.readsBack_of_unrepeated, fun _ _ _ _ _ => Program.readsBack_of_parse⟩

/-- A classical negation, a name that begins like `not`, repeated terms and literals, and a
constraint; and a text with a comment and a blank statement. -/
theorem readsBack_of_text_holiday :
    let p : Program := { rules := [
      { head := some ⟨⟨"notx", ["0", "y_1", "0"]⟩, true⟩, label := 7, id := 4 },
      { body := [⟨⟨"a", []⟩, false⟩, ⟨⟨"a", []⟩, false⟩], negBody := [⟨⟨"b", ["z"]⟩, true⟩],
        id := 2 }] }
    let text := "fly( tweety ) :- not sick.  . % a comment."
    let q : Program := { name := "holiday", rules := [
      { head := some ⟨⟨"fly", ["tweety"]⟩, false⟩, negBody := [⟨⟨"sick", []⟩, false⟩], id := 1 }] }
    (p.rules ≠ [] ∧ (∀ r ∈ p.rules, r.isEmpty = false) ∧ p.Unrepeated ∧ ReadableProgram p ∧
      p.ReadsBack) ∧
    (Program.parse (some text) "holiday").run {} = (.ok q, { nextId := 2 }) ∧ q.ReadsBack := by
  intro p text q
  have rules : p.rules ≠ [] := List.cons_ne_nil _ _
  have nonempty : ∀ r ∈ p.rules, r.isEmpty = false := by decide
  have unrepeated : p.Unrepeated := by
    unfold Program.Unrepeated
    decide
  have readable : ReadableProgram p := by
    unfold ReadableProgram
    decide
  have run : (Program.parse (some text) "holiday").run {} = (.ok q, { nextId := 2 }) := by
    unfold text q
    rfl
  exact ⟨⟨rules, nonempty, unrepeated, readable,
    readsBack_of_text.1 p rules nonempty unrepeated readable⟩, run,
      readsBack_of_text.2 _ _ _ _ _ run⟩

end CausalUpdate
