import CausalUpdate.Proofs.Detection.Comparing
import CausalUpdate.Proofs.Strategy.Versions

/-!
# Rules that are never reported

A solver that lists nothing but models is enough to know that the rules of a reported conflict can
fire together: the cause was derived, and so both bodies hold in some stable model.  Rules that
block each other are therefore never reported, neither by comparing two programs nor after merging
any number of them.
-/

namespace CausalUpdate

/-- The rules of the conflict are among those of the programs, and can fire together. -/
structure Unblocked (ps : List Program) (c : Conflict) : Prop where
  older : c.older ∈ rulesOf ps
  newer : c.newer ∈ rulesOf ps
  apart : ¬ c.older.Blocks c.newer.toClause

/-- Of two programs that are compared on behalf of a sequence, one has the older rule of the
conflict and the other one the newer rule, and both rules fire in an answer set of their update
program. -/
structure Fires (mark : Mark) (ps : List Program) (c : Conflict) (m p : Program)
    (held : Set Literal) : Prop where
  compares : Compares ps m p
  answer : IsAnswerSet (updateClauses mark m p) held
  older : c.older ∈ m.rules
  newer : c.newer ∈ p.rules
  older_holds : c.older.HoldsIn held
  newer_holds : c.newer.HoldsIn held

lemma Clause.HoldsIn.not_blocks {c d : Clause} {held : Set Literal} (hc : c.HoldsIn held)
    (hd : d.HoldsIn held) : ¬ c.Blocks d := by
  rintro ⟨l, ⟨pos, neg⟩ | ⟨neg, pos⟩⟩
  · exact hd.2 l neg (hc.1 l pos)
  · exact hc.2 l neg (hd.1 l pos)

/-- An answer set that is read is written in one of the models. -/
lemma AnswerSet.exists_parse_of_mem_parseAll {models : List String} {g : Ledger} {s : AnswerSet}
    (h : s ∈ (AnswerSet.parseAll models g).1) :
    ∃ m ∈ models, AnswerSet.parse m.toList = .ok s := by
  induction models generalizing g with
  | nil => exact absurd h List.not_mem_nil
  | cons m models ih =>
      cases parsed : AnswerSet.parse m.toList with
      | ok s' =>
          rw [AnswerSet.parseAll, parsed] at h
          rcases List.mem_cons.1 h with rfl | h
          · exact ⟨m, List.mem_cons_self, parsed⟩
          · obtain ⟨m', hm', parsed⟩ := ih h
            exact ⟨m', List.mem_cons_of_mem _ hm', parsed⟩
      | error e =>
          rw [AnswerSet.parseAll, parsed] at h
          obtain ⟨m', hm', parsed⟩ := ih h
          exact ⟨m', List.mem_cons_of_mem _ hm', parsed⟩

section

variable {mark : Mark} {older newer : Program} {held : Set Literal} {s t : Solver} {g g' : Ledger}
  {d : Detection} {c : Conflict} {l : Literal}

/-! ## Two programs -/

/-- The models of an update program that are read are sets of literals that it derives. -/
lemma exists_isAnswerSet_of_parse (wf : WellFormed mark [older, newer])
    (positive : Positive [older, newer]) {m : String} {set : AnswerSet}
    (model : IsModelText (buildUpdateProgram older newer mark g).1 m)
    (parsed : AnswerSet.parse m.toList = .ok set) :
    ∃ held, IsAnswerSet (buildUpdateProgram older newer mark g).1.clauses held ∧
      ∀ l ∈ set.literals, l ∈ held := by
  have readable := readableProgram_buildUpdateProgram wf positive g
  have legible : AllLegible (buildUpdateProgram older newer mark g).1.clauses :=
    fun c hc l hl => (readable c hc l hl).legible
  obtain ⟨atoms, -, stable, rfl⟩ := model
  rw [Program.ground_eq] at stable
  replace stable : IsStable _ (· ∈ {t | t ∈ atoms}) := stable
  obtain ⟨held, answer, e⟩ := (isStable_ground_iff legible).1 stable
  have heads : ∀ l ∈ held, l.Readable := by
    intro l hl
    obtain ⟨c, hc, head, -⟩ := answer.mem_iff.1 hl
    exact readable c hc l (by simp [Clause.literals, head])
  have members : ∀ t, t ∈ atoms ↔ t ∈ Literal.text '' held := fun t => by rw [← e]; rfl
  obtain ⟨set', parsed', represents⟩ := exists_parse_modelText heads members
  rw [parsed, Except.ok.injEq] at parsed'
  exact ⟨held, answer, parsed' ▸ represents.sound⟩

/-- The rules of a cause that is derived have complementary heads and can fire together. -/
lemma holdsIn_of_cause (wf : WellFormed mark [older, newer]) {cs : List Clause}
    (update : ∀ c ∈ cs, UpdateClause mark older newer c) (answer : IsAnswerSet cs held) {a b : Rule}
    (ha : a ∈ older.rules) (hb : b ∈ newer.rules) (hl : a.rejectedBy mark b ∈ held) :
    a.Opposed b.toClause ∧ a.HoldsIn held ∧ b.HoldsIn held := by
  obtain ⟨c, hc, head, holds⟩ := answer.mem_iff.1 hl
  obtain ⟨a', ha', b', hb', opposed, e, rfl⟩ := (update c hc).of_cause wf head rfl
  obtain ⟨ea, eb⟩ := Rule.rejectedBy_inj.1 e
  obtain rfl := Program.eq_of_id_eq (wf.ids older (by simp)) ha ha' ea
  obtain rfl := Program.eq_of_id_eq (wf.ids newer (by simp)) hb hb' eb
  obtain ⟨c', hc', head', holds'⟩ := answer.mem_iff.1 (holds.1 (b.active mark) (by simp))
  obtain ⟨b', hb', k, hk, e', rfl⟩ := (update c' hc').of_active wf head' rfl
  obtain rfl := Program.eq_of_id_eq (wf.ids newer (by simp)) hb hb' (Rule.active_inj.1 e')
  exact ⟨opposed, ⟨fun m hm => holds.1 m (by simp [hm]), holds.2⟩, holds'⟩

/-- The rules of a conflict between two programs have complementary heads and fire in an answer set
of clauses of the update program, if some answer set of these clauses holds what is read of a
model. -/
lemma detectPair_fires_in {cs : List Clause} (wf : WellFormed mark [older, newer])
    (positive : Positive [older, newer]) (sound : s.Sound)
    (update : ∀ c ∈ cs, UpdateClause mark older newer c)
    (read : ∀ m set, IsModelText (buildUpdateProgram older newer mark g).1 m →
      AnswerSet.parse m.toList = .ok set →
        ∃ held, IsAnswerSet cs held ∧ ∀ l ∈ set.literals, l ∈ held)
    (run : (detectPair mark older newer).run s g = ((.ok d, t), g'))
    (hc : c ∈ d.findings.conflicts) :
    ∃ held, IsAnswerSet cs held ∧ c.older.Opposed c.newer.toClause ∧ c.older.HoldsIn held ∧
      c.newer.HoldsIn held := by
  have readable := readableProgram_buildUpdateProgram wf positive g
  cases detectPair_outcome run with
  | refused _ => exact absurd hc List.not_mem_nil
  | inconsistent _ _ => exact absurd hc List.not_mem_nil
  | unreadable _ _ => exact absurd hc List.not_mem_nil
  | @found solved g₁ g₂ conflicts replied satisfiable extracted =>
      obtain ⟨recorded, -⟩ := extractConflicts_recorded extracted
      obtain ⟨x, hx, pair⟩ := recorded.named c hc
      obtain ⟨y, hy, hp⟩ := List.mem_filterMap.1 hx
      obtain ⟨set, hset, hl, -⟩ := mem_sightings.1 hy
      obtain ⟨q, hq, rfl⟩ := Option.map_eq_some_iff.1 hp
      obtain ⟨m, hm, parsed⟩ := AnswerSet.exists_parse_of_mem_parseAll hset
      obtain ⟨held, answer, inside⟩ :=
        read m set (sound s.asked _ solved readable replied m hm) parsed
      -- the literal that named the pair was derived, and so it is the cause of two rules
      obtain ⟨k, hk, head, -⟩ := answer.mem_iff.1 (inside _ hl)
      have literal := (update k hk).updateLiteral (l := y.1) (by simp [Clause.literals, head])
      obtain ⟨a, ha, b, hb, e, ids⟩ := literal.rules_of_namedPair? wf positive hq
      obtain ⟨fa, fb⟩ := recorded.found c hc
      have pair : (a.id, b.id) = (c.older.id, c.newer.id) := ids.symm.trans pair
      rw [Prod.mk.injEq] at pair
      have older_eq : a = c.older := Program.eq_of_id_eq (wf.ids older (by simp)) ha
        (Program.mem_of_find? fa) pair.1
      have newer_eq : b = c.newer := Program.eq_of_id_eq (wf.ids newer (by simp)) hb
        (Program.mem_of_find? fb) pair.2
      have derived := inside _ hl
      rw [e] at derived
      exact ⟨held, answer, older_eq ▸ newer_eq ▸ holdsIn_of_cause wf update answer ha hb derived⟩

/-- The rules of a conflict between two programs do not block each other. -/
lemma detectPair_not_blocks (wf : WellFormed mark [older, newer])
    (positive : Positive [older, newer]) (sound : s.Sound)
    (run : (detectPair mark older newer).run s g = ((.ok d, t), g'))
    (hc : c ∈ d.findings.conflicts) : ¬ c.older.Blocks c.newer.toClause := by
  obtain ⟨held, -, -, holds, holds'⟩ := detectPair_fires_in wf positive sound
    (clauses_buildUpdateProgram mark older newer g).1
    (fun _ _ model parsed => exists_isAnswerSet_of_parse wf positive model parsed) run hc
  exact holds.not_blocks holds'

/-- **The rules of a conflict between clean programs fire in an answer set** of their update
program. -/
theorem detectPair_fires (clean : Clean mark [older, newer]) (positive : Positive [older, newer])
    (sound : s.Sound) (run : (detectPair mark older newer).run s g = ((.ok d, t), g'))
    (hc : c ∈ d.findings.conflicts) : ∃ held, IsAnswerSet (updateClauses mark older newer) held ∧
      c.older.HoldsIn held ∧ c.newer.HoldsIn held := by
  obtain ⟨held, answer, -, holds⟩ := detectPair_fires_in clean.toWellFormed positive sound
    (fun _ hc => mem_updateClauses.1 hc) (fun m set model parsed => by
      obtain ⟨set', held, parsed', answer, represents, -⟩ :=
        exists_represents clean positive g model
      rw [parsed, Except.ok.injEq] at parsed'
      exact ⟨held, answer, parsed' ▸ represents.sound⟩) run hc
  exact ⟨held, answer, holds⟩

/-! ## Sequences -/

/-- **Rules that block each other are never reported.** -/
theorem detectSequence_unblocked {next : Nat} {ps : List Program} (live : Live mark next ps)
    (sound : s.Sound) (run : (detectSequence mark ps).run s g = ((.ok d, t), g')) :
    ∀ c ∈ d.findings.conflicts, Unblocked ps c ∧ c.solutions = [] := by
  intro c hc
  obtain ⟨ha, hb, unsolved⟩ := detectSequence_found live.toOrderly run hc
  obtain ⟨m, p, s₁, g₁, t₁, g₂, compares, reply, run⟩ :=
    detectSequence_compares live.toOrderly run hc
  have wf := live.wellFormed compares.ids compares.rules
  have positive := live.positive compares.rules
  have apart := detectPair_not_blocks wf positive (sound.of_reply reply) run hc
  exact ⟨⟨ha, hb, apart⟩, unsolved⟩

/-- **The rules of a conflict fire in an answer set** of the update program of the two programs that
were compared. -/
theorem detectSequence_fires {next : Nat} {ps : List Program} (live : Live mark next ps)
    (clean : Clean mark ps) (sound : s.Sound)
    (run : (detectSequence mark ps).run s g = ((.ok d, t), g'))
    (hc : c ∈ d.findings.conflicts) : ∃ m p held, Fires mark ps c m p held := by
  obtain ⟨m, p, s₁, g₁, t₁, g₂, compares, reply, run⟩ :=
    detectSequence_compares live.toOrderly run hc
  obtain ⟨ha, hb, -⟩ := detectPair_found run hc
  obtain ⟨held, answer, holds, holds'⟩ := detectPair_fires
    (clean.of_rules compares.ids compares.rules) (live.positive compares.rules)
    (sound.of_reply reply) run hc
  exact ⟨m, p, held, compares, answer, ha, hb, holds, holds'⟩

end

end CausalUpdate
