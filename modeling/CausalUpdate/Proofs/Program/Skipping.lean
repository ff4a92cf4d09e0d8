import CausalUpdate.Proofs.Program.Language
import CausalUpdate.Proofs.Solver.Exact

/-!
# Skipping repetitions

A program that is read from a text leaves out every rule to which an earlier one is equivalent.  A
solver goes by what is written.  It takes no notice of the rules that are left out as long as
equivalent rules are *written alike*, with the same text at the head and the same texts in either
body, in whatever order and however often.  Where the terms of an atom come in another order, this
is not so, and a fact can be lost.

* `WrittenAlike` — clauses of which a solver cannot tell equivalent ones apart.
* `solve_congr` — programs with the same stable models get the same reply.
* `skipping_keeps_answerSets` — the answer sets of a text are those of its program.
-/

namespace CausalUpdate

open CausalUpdate.Grammar

/-! ## Clauses that are written alike -/

instance GroundRule.decidableRepeats (r s : GroundRule) : Decidable (r.Repeats s) :=
  decidable_of_iff (r.head = s.head ∧ (r.pos ⊆ s.pos ∧ s.pos ⊆ r.pos) ∧
      r.neg ⊆ s.neg ∧ s.neg ⊆ r.neg)
    ⟨fun ⟨head, pos, neg⟩ => ⟨head, fun _ => ⟨@pos.1 _, @pos.2 _⟩, fun _ => ⟨@neg.1 _, @neg.2 _⟩⟩,
      fun h => ⟨h.head, ⟨fun a => (h.pos a).1, fun a => (h.pos a).2⟩,
        fun a => (h.neg a).1, fun a => (h.neg a).2⟩⟩

/-- Equivalent clauses have the same text at the head and the same texts in either body. -/
def WrittenAlike (cs : List Clause) : Prop :=
  ∀ c ∈ cs, ∀ d ∈ cs, c ≈ d → c.ground.Repeats d.ground

instance (cs : List Clause) : Decidable (WrittenAlike cs) :=
  inferInstanceAs (Decidable (∀ c ∈ cs, ∀ d ∈ cs, c ≈ d → c.ground.Repeats d.ground))

/-- One clause for each that is equivalent to it is enough for the stable models. -/
lemma WrittenAlike.isStable_iff {cs ds : List Clause} (alike : WrittenAlike cs)
    (sub : ∀ d ∈ ds, d ∈ cs) (covers : ∀ c ∈ cs, ∃ d ∈ ds, d ≈ c) (held : String → Prop) :
    IsStable (ds.map Clause.ground) held ↔ IsStable (cs.map Clause.ground) held := by
  refine isStable_congr (fun r hr => ?_) fun r hr => ?_
  · obtain ⟨d, hd, rfl⟩ := List.mem_map.1 hr
    exact ⟨_, List.mem_map_of_mem (sub d hd), alike d (sub d hd) d (sub d hd) (Setoid.refl d)⟩
  · obtain ⟨c, hc, rfl⟩ := List.mem_map.1 hr
    obtain ⟨d, hd, e⟩ := covers c hc
    exact ⟨_, List.mem_map_of_mem hd, alike c hc d (sub d hd) (Setoid.symm e)⟩

/-! ## Replies -/

section

variable {p q : Program}

lemma IsModelText.congr (same : ∀ held, IsStable p.ground held ↔ IsStable q.ground held)
    (m : String) : IsModelText p m ↔ IsModelText q m :=
  exists_congr fun _ => and_congr_right fun _ => and_congr_left fun _ => same _

lemma modelsOf_congr (readable : ReadableProgram p) (readable' : ReadableProgram q)
    (same : ∀ held, IsStable p.ground held ↔ IsStable q.ground held) :
    modelsOf p.ground = modelsOf q.ground := by
  have written := renders_modelsOf readable
  have written' := renders_modelsOf readable'
  have perm : (modelsOf p.ground).Perm (modelsOf q.ground) := by
    refine (List.perm_ext_iff_of_nodup written.nodup written'.nodup).2 fun m => ?_
    rw [written.mem_iff, written'.mem_iff, IsModelText.congr same]
  have sorted : ∀ rules, sortTexts (modelsOf rules) = modelsOf rules := fun rules =>
    sortTexts_eq_of_perm (List.mergeSort_perm _ _)
  calc modelsOf p.ground = sortTexts (modelsOf p.ground) := (sorted _).symm
    _ = sortTexts (modelsOf q.ground) := sortTexts_eq_of_perm perm
    _ = modelsOf q.ground := sorted _

/-- **Programs with the same stable models get the same reply.** -/
theorem solve_congr (readable : ReadableProgram p) (readable' : ReadableProgram q)
    (rules : p.rules ≠ []) (rules' : q.rules ≠ [])
    (same : ∀ held, IsStable p.ground held ↔ IsStable q.ground held) : p.solve = q.solve := by
  have reply : ∀ {r : Program}, ReadableProgram r → r.rules ≠ [] →
      r.solve = .ok (Solved.ofRules r.ground) := by
    intro r readable rules
    have filled : r.isEmpty = false := List.isEmpty_eq_false_iff.2 rules
    rw [Program.solve, filled, Program.grounding, if_pos readable.isPlain]
    rfl
  rw [reply readable rules, reply readable' rules', Solved.ofRules, Solved.ofRules,
    modelsOf_congr readable readable' same]

end

/-! ## Programs that are read -/

section

variable {text name : String} {p : Program} {clauses : List Clause} {g g' : Ledger}

lemma readable_of_writesText (h : WritesText text clauses) :
    ∀ c ∈ clauses, ∀ l ∈ c.literals, l.Readable := by
  intro c hc
  rw [show clauses = (readClauses text.toList).1 by rw [readClauses_iff.2 h]] at hc
  exact readable_of_readClauses hc

/-- What is read of a text is some of what the text writes, and something equivalent to each of
it. -/
lemma clauses_of_parse (run : (Program.parse (some text) name).run g = (.ok p, g')) :
    ∃ clauses, WritesText text clauses ∧ clauses ≠ [] ∧ (∀ c ∈ p.clauses, c ∈ clauses) ∧
      ∀ c ∈ clauses, ∃ d ∈ p.clauses, d ≈ c := by
  obtain ⟨rs, g₁, read, some, gathered⟩ := parse_ok_iff_parseRules.1 run
  have written := writesText_of_parseRules read
  have gathers := addUnrepeated_gathers { name } rs g₁
  rw [gathered] at gathers
  refine ⟨_, written, by simpa using some, fun c hc => ?_, fun c hc => ?_⟩
  · exact List.mem_map.2 ((gathers.mem_clauses hc).resolve_left List.not_mem_nil)
  · obtain ⟨r, hr, rfl⟩ := List.mem_map.1 hc
    exact gathers.covers hr (written.not_isEmpty _ hc)

/-- **Skipping repetitions keeps the answer sets**, if equivalent rules are written alike.  Let a
text be accepted as a program.  Then its rules can be read at any time, and if equivalent ones of
them have the same text at the head and the same texts in either body, then the program has the
stable models that all the rules have together, and the same reply is given to either. -/
theorem skipping_keeps_answerSets (run : (Program.parse (some text) name).run g = (.ok p, g'))
    (g₁ : Ledger) : ∃ rs g₂, (parseRules text).run g₁ = (.ok rs, g₂) ∧
      (WrittenAlike (rs.map Rule.toClause) →
        (∀ held, IsStable p.ground held ↔ IsStable (Program.ground { name, rules := rs }) held) ∧
          p.solve = Program.solve { name, rules := rs }) := by
  obtain ⟨clauses, written, some, sub, covers⟩ := clauses_of_parse run
  have read := parseRules_of_writesText written g₁
  obtain ⟨same, -⟩ := mintAll_apply 0 clauses g₁
  generalize (mintAll 0 clauses g₁).1 = rs at read same
  refine ⟨rs, _, read, fun alike => ?_⟩
  rw [same] at alike
  let full : Program := { name, rules := rs }
  have all : full.clauses = clauses := same
  have stable : ∀ held, IsStable p.ground held ↔ IsStable full.ground held := by
    intro held
    rw [Program.ground_eq, Program.ground_eq, all]
    exact alike.isStable_iff sub covers held
  have readable := readable_of_writesText written
  refine ⟨stable, solve_congr (fun c hc => readable c (sub c hc)) ?_ (rules_ne_nil_of_parse run) ?_
    stable⟩
  · unfold ReadableProgram
    rwa [all]
  · rintro rfl
    exact some same.symm

/-- A rule that is repeated with its body in another order and a literal of it twice. -/
theorem skipping_keeps_answerSets_order :
    let text := "a :- b, not c. a :- not c, b, b. b."
    let a : Literal := ⟨⟨"a", []⟩, false⟩
    let b : Literal := ⟨⟨"b", []⟩, false⟩
    let c : Literal := ⟨⟨"c", []⟩, false⟩
    let first : Rule := { head := some a, body := [b], negBody := [c], id := 1 }
    let second : Rule := { head := some a, body := [b, b], negBody := [c], label := 1, id := 2 }
    let fact : Rule := { head := some b, label := 2, id := 3 }
    let p : Program := { rules := [first, fact] }
    let full : Program := { rules := [first, second, fact] }
    (∃ g, (Program.parse (some text)).run {} = (.ok p, g)) ∧
      (∃ g, (parseRules text).run {} = (.ok full.rules, g)) ∧ WrittenAlike full.clauses ∧
      (∀ held, IsStable p.ground held ↔ IsStable full.ground held) ∧ p.solve = full.solve := by
  intro text a b c first second fact p full
  have all : (parseRules text).run {} = (.ok full.rules, { nextId := 4 }) := by
    unfold text full
    rfl
  have run : (Program.parse (some text)).run {} = (.ok p, _) :=
    parse_ok_iff_parseRules.2 ⟨full.rules, _, all, List.cons_ne_nil _ _, rfl⟩
  have alike : WrittenAlike full.clauses := by decide
  obtain ⟨rs, g', read, keeps⟩ := skipping_keeps_answerSets run {}
  obtain rfl : full.rules = rs :=
    Except.ok.inj (congrArg Prod.fst (all.symm.trans read))
  exact ⟨⟨_, run⟩, ⟨_, all⟩, alike, keeps alike⟩

/-- Two facts that are equivalent and that a solver tells apart: one of them is left out, and with
it an atom of the answer set. -/
theorem skipping_loses_atoms :
    let text := "p(a,b). p(b,a)."
    let first : Rule := { head := some ⟨⟨"p", ["a", "b"]⟩, false⟩, id := 1 }
    let second : Rule := { head := some ⟨⟨"p", ["b", "a"]⟩, false⟩, label := 1, id := 2 }
    let p : Program := { rules := [first] }
    let full : Program := { rules := [first, second] }
    (∃ g, (Program.parse (some text)).run {} = (.ok p, g)) ∧
      (∃ g, (parseRules text).run {} = (.ok full.rules, g)) ∧
      IsStable p.ground (· ∈ ["p(a,b)"]) ∧ ¬ IsStable full.ground (· ∈ ["p(a,b)"]) := by
  intro text first second p full
  have all : (parseRules text).run {} = (.ok full.rules, { nextId := 3 }) := by
    unfold text full
    rfl
  have run : (Program.parse (some text)).run {} = (.ok p, _) :=
    parse_ok_iff_parseRules.2 ⟨full.rules, _, all, List.cons_ne_nil _ _, rfl⟩
  have found : ["p(a,b)"] ∈ stableSets p.ground := by decide +kernel
  refine ⟨⟨_, run⟩, ⟨_, all⟩, (stableSets_found p.ground).stable _ found, fun stable => ?_⟩
  have derived : Derivable full.ground (· ∈ ["p(a,b)"]) "p(b,a)" :=
    .rule (r := ⟨some "p(b,a)", [], []⟩) (by decide) rfl (by simp) (by simp)
  exact absurd ((stable.founded _).2 derived) (by decide)

end

end CausalUpdate
