import CausalUpdate.Proofs.StableModel.Rendering
import CausalUpdate.Proofs.UpdateProgram.Clauses

/-!
# The update program as a solver sees it

The literals of an update program can be told apart by their texts.  Equivalent clauses, of which
the update program keeps one, repeat each other: for literals that the programs mention this is
part of being clean, and the only other literals that are equivalent without being the same are
causes with their rules exchanged, which no two equivalent clauses have.

* `UpdateLiteral` — the literals of an update program.
* `isStable_updateProgram_iff` — the models of the update program are those of all its clauses.
-/

namespace CausalUpdate

/-! ## Literals -/

/-- A literal of the update program of two programs. -/
inductive UpdateLiteral (mark : Mark) (older newer : Program) : Literal → Prop
  | plain {l : Literal} (hl : l ∈ mentioned [older, newer]) : UpdateLiteral mark older newer l
  | olderCopy {l : Literal} (hl : l ∈ mentioned [older, newer]) :
      UpdateLiteral mark older newer (l.withSuffix olderSuffix)
  | newerCopy {l : Literal} (hl : l ∈ mentioned [older, newer]) :
      UpdateLiteral mark older newer (l.withSuffix newerSuffix)
  | active {b : Rule} (hb : b ∈ newer.rules) : UpdateLiteral mark older newer (b.active mark)
  | rejected {a : Rule} (ha : a ∈ older.rules) : UpdateLiteral mark older newer (a.rejected mark)
  | rejectedBy {a b : Rule} (ha : a ∈ older.rules) (hb : b ∈ newer.rules) :
      UpdateLiteral mark older newer (a.rejectedBy mark b)

section

variable {mark : Mark} {older newer : Program} {c d : Clause} {l m : Literal}

lemma UpdateClause.updateLiteral (hc : UpdateClause mark older newer c) (hl : l ∈ c.literals) :
    UpdateLiteral mark older newer l := by
  have body : ∀ {p r}, p ∈ [older, newer] → r ∈ p.rules → l ∈ r.body →
      UpdateLiteral mark older newer l := fun hp hr h => .plain (mentioned_body hp hr h)
  have negBody : ∀ {p r}, p ∈ [older, newer] → r ∈ p.rules → l ∈ r.negBody →
      UpdateLiteral mark older newer l := fun hp hr h => .plain (mentioned_negBody hp hr h)
  have hOlder : older ∈ [older, newer] := by simp
  have hNewer : newer ∈ [older, newer] := by simp
  simp only [Clause.literals, Clause.completeBody, List.mem_append, Option.mem_toList] at hl
  cases hc with
  | constraint hp hr hnone => exact .plain (mem_mentioned.2 ⟨_, hp, _, hr, by
      simpa [Clause.literals, Clause.completeBody] using hl⟩)
  | older ha head =>
      simp only [Option.some.injEq, List.mem_append, List.mem_singleton] at hl
      rcases hl with rfl | hl | hl | rfl
      · exact .olderCopy (mentioned_head hOlder ha head)
      · exact body hOlder ha hl
      · exact negBody hOlder ha hl
      · exact .rejected ha
  | newer hb head =>
      simp only [Option.some.injEq] at hl
      rcases hl with rfl | hl | hl
      · exact .newerCopy (mentioned_head hNewer hb head)
      · exact body hNewer hb hl
      · exact negBody hNewer hb hl
  | active hb head =>
      simp only [Option.some.injEq] at hl
      rcases hl with rfl | hl | hl
      · exact .active hb
      · exact body hNewer hb hl
      · exact negBody hNewer hb hl
  | cause ha hb opposed =>
      simp only [Option.some.injEq, List.mem_append, List.mem_singleton] at hl
      rcases hl with rfl | (hl | rfl) | hl
      · exact .rejectedBy ha hb
      · exact body hOlder ha hl
      · exact .active hb
      · exact negBody hOlder ha hl
  | rejected ha hb opposed =>
      simp only [Option.some.injEq, List.mem_singleton, List.not_mem_nil, or_false] at hl
      rcases hl with rfl | rfl
      · exact .rejected ha
      · exact .rejectedBy ha hb
  | copyNewer hm =>
      simp only [Option.some.injEq, List.mem_singleton, List.not_mem_nil, or_false] at hl
      rcases hl with rfl | rfl
      · exact .olderCopy (mentioned_of_mem_literalBase hm)
      · exact .newerCopy (mentioned_of_mem_literalBase hm)
  | copyOlder hm =>
      simp only [Option.some.injEq, List.mem_singleton, List.not_mem_nil, or_false] at hl
      rcases hl with rfl | rfl
      · exact .plain (mentioned_of_mem_literalBase hm)
      · exact .olderCopy (mentioned_of_mem_literalBase hm)

/-! ## Texts -/

lemma Rule.constant_chars (r : Rule) : ∀ c ∈ r.constant.toList, isIdentifierRest c ∨ c = '-' := by
  have digits : ∀ {n : Nat} {c : Char}, c ∈ Nat.toDigits 10 n → isIdentifierRest c :=
    fun hc => isIdentifierRest_of_isDigit
      (Nat.isDigit_of_mem_toDigits (by decide) (by decide) hc)
  intro c hc
  rw [Rule.toList_constant, List.mem_cons] at hc
  rcases hc with rfl | hc
  · exact Or.inl (by decide)
  · split at hc
    · exact Or.inl (digits hc)
    · rcases List.mem_cons.1 hc with rfl | hc
      · exact Or.inr rfl
      · exact Or.inl (digits hc)

/-- A literal that speaks of rules can be told from its text. -/
lemma legible_of_isReserved (hl : l.IsReserved mark)
    (terms : ∀ t ∈ l.atom.terms, ∃ r : Rule, t = r.constant) : l.Legible where
  predicate _ hc e := parenthesis_not_mem_of_isIdentifier (mark.isIdentifier_of_mem hl) (e ▸ hc)
  unsigned := head?_ne_minus_of_isIdentifier (mark.isIdentifier_of_mem hl)
  terms t ht c hc := by
    obtain ⟨r, rfl⟩ := terms t ht
    rcases r.constant_chars c hc with h | rfl
    · exact ⟨isFlat_of_isIdentifierRest h, ne_comma_of_isIdentifierRest h⟩
    · decide

lemma Literal.Readable.withSuffix (h : l.Readable) {suffix : String}
    (hs : suffix ∈ [olderSuffix, newerSuffix]) : (l.withSuffix suffix).Readable where
  predicate := by
    have letters : ∀ s ∈ [olderSuffix, newerSuffix], s.toList.all isIdentifierRest := by decide
    have chars := fun s hs => List.all_eq_true.1 (letters s hs)
    obtain ⟨c, cs, hp, hc⟩ := h.predicate_eq_cons
    rw [Literal.withSuffix, String.toList_append, isIdentifier_iff]
    refine ⟨⟨c, by simp [hp], hc⟩, fun d hd => ?_⟩
    rcases List.mem_append.1 hd with hd | hd
    · exact h.predicate_chars d hd
    · exact chars suffix hs d hd
  keyword e := by
    have ends : ∀ s ∈ [olderSuffix, newerSuffix], ∃ c, s.toList.getLast? = some c ∧ c ≠ 't' := by
      simp [olderSuffix, newerSuffix]
    obtain ⟨c, hc, hne⟩ := ends suffix hs
    have last := Literal.getLast?_withSuffix l suffix c hc
    rw [e] at last
    exact hne (Option.some.inj last).symm
  terms := h.terms

lemma UpdateLiteral.legible (wf : WellFormed mark [older, newer])
    (h : UpdateLiteral mark older newer l) : l.Legible := by
  cases h with
  | plain hl => exact (wf.readable l hl).legible
  | olderCopy hl => exact ((wf.readable _ hl).withSuffix (by simp)).legible
  | newerCopy hl => exact ((wf.readable _ hl).withSuffix (by simp)).legible
  | @active b hb => exact legible_of_isReserved b.isReserved_active (by simp [Rule.active])
  | @rejected a ha => exact legible_of_isReserved a.isReserved_rejected (by simp [Rule.rejected])
  | @rejectedBy a b ha hb =>
      exact legible_of_isReserved (a.isReserved_rejectedBy b) (by simp [Rule.rejectedBy])

lemma allLegible_updateClauses (wf : WellFormed mark [older, newer]) :
    AllLegible (updateClauses mark older newer) :=
  fun _ hc _ hl => ((mem_updateClauses.1 hc).updateLiteral hl).legible wf

/-! ## Equivalent clauses -/

/-- The literal says that a rule is the cause of the rejection of another one. -/
def Literal.IsCause (mark : Mark) (l : Literal) : Prop :=
  ∃ a b : Rule, l = a.rejectedBy mark b

/-- A literal of an update program is a copy of one that the programs mention, or it says something
of one rule, or it is a cause. -/
lemma UpdateLiteral.shape (h : UpdateLiteral mark older newer l) :
    (∃ j ∈ mentioned [older, newer], ∃ s ∈ ["", olderSuffix, newerSuffix], l = j.withSuffix s) ∨
    (∃ p ∈ [mark.activePredicate, mark.rejectedPredicate], ∃ t, l = ⟨⟨p, [t]⟩, false⟩) ∨
      l.IsCause mark := by
  cases h with
  | plain hl => exact Or.inl ⟨l, hl, "", by simp, by simp [Literal.withSuffix]⟩
  | olderCopy hl => exact Or.inl ⟨_, hl, olderSuffix, by simp, rfl⟩
  | newerCopy hl => exact Or.inl ⟨_, hl, newerSuffix, by simp, rfl⟩
  | active hb => exact Or.inr (Or.inl ⟨mark.activePredicate, by simp, _, rfl⟩)
  | rejected ha => exact Or.inr (Or.inl ⟨mark.rejectedPredicate, by simp, _, rfl⟩)
  | @rejectedBy a b ha hb => exact Or.inr (Or.inr ⟨a, b, rfl⟩)

/-- Equivalent literals of an update program are the same, unless they are causes. -/
lemma UpdateLiteral.eq_of_equiv (clean : Clean mark [older, newer])
    (hl : UpdateLiteral mark older newer l) (hm : UpdateLiteral mark older newer m) (e : l ≈ m) :
    l = m ∨ l.IsCause mark ∧ m.IsCause mark := by
  have predicates : l.atom.predicate = m.atom.predicate := e.1.1
  have copy : ∀ {j : Literal} {s p : String}, j ∈ mentioned [older, newer] →
      s ∈ ["", olderSuffix, newerSuffix] → p ∈ mark.reservedPredicates →
      (j.withSuffix s).atom.predicate ≠ p := by
    rintro j s p hj hs hp rfl
    exact clean.not_isReserved_copy hj hs hp
  have single : ∀ {p : String}, p ∈ [mark.activePredicate, mark.rejectedPredicate] →
      p ∈ mark.reservedPredicates ∧ p ≠ mark.causePredicate := by
    intro p hp
    simp only [List.mem_cons, List.not_mem_nil, or_false] at hp
    rcases hp with rfl | rfl <;> simp
  rcases hl.shape with ⟨j, hj, s, hs, rfl⟩ | ⟨p, hp, t, rfl⟩ | ⟨a, b, rfl⟩ <;>
    rcases hm.shape with ⟨k, hk, u, hu, rfl⟩ | ⟨q, hq, v, rfl⟩ | ⟨a', b', rfl⟩
  · obtain rfl := clean.suffix_eq hj hk hs hu predicates
    rw [clean.eq_of_equiv hj hk (Literal.withSuffix_equiv.1 e)]
    exact Or.inl rfl
  · exact absurd predicates (copy hj hs (single hq).1)
  · exact absurd predicates (copy hj hs (a'.isReserved_rejectedBy b'))
  · exact absurd predicates.symm (copy hk hu (single hp).1)
  · have terms : t = v := by simpa using e.1.2.1 t (by simp)
    rw [show p = q from predicates, terms]
    exact Or.inl rfl
  · exact absurd predicates (single hp).2
  · exact absurd predicates.symm (copy hk hu (a.isReserved_rejectedBy b))
  · exact absurd predicates.symm (single hq).2
  · exact Or.inr ⟨⟨a, b, rfl⟩, ⟨a', b', rfl⟩⟩

lemma Rule.constant_eq_of_equiv {a b : Rule} {p q : String} {s t : Bool}
    (e : (⟨⟨p, [a.constant]⟩, s⟩ : Literal) ≈ ⟨⟨q, [b.constant]⟩, t⟩) :
    a.constant = b.constant := by
  simpa using e.1.2.1 a.constant (by simp)

/-- Equivalent causes that agree on one of their rules are the same. -/
lemma Rule.rejectedBy_eq_of_equiv {a b a' b' : Rule}
    (e : a.rejectedBy mark b ≈ a'.rejectedBy mark b')
    (h : a.constant = a'.constant ∨ b.constant = b'.constant) :
    a.rejectedBy mark b = a'.rejectedBy mark b' := by
  have there := e.1.2.1
  have back := e.1.2.2
  simp only [rejectedBy, List.mem_cons, List.not_mem_nil, or_false, forall_eq_or_imp,
    forall_eq] at there back
  rw [rejectedBy, rejectedBy]
  grind

/-- The two clauses that mention a cause. -/
lemma UpdateClause.of_cause_mem (clean : Clean mark [older, newer])
    (hc : UpdateClause mark older newer c) {x y : Rule} (h : x.rejectedBy mark y ∈ c.literals) :
    ∃ a b : Rule, a.rejectedBy mark b = x.rejectedBy mark y ∧ a ∈ older.rules ∧
      (c = ⟨some (a.rejectedBy mark b), a.body ++ [b.active mark], a.negBody⟩ ∨
        c = ⟨some (a.rejected mark), [a.rejectedBy mark b], []⟩) := by
  have plain : x.rejectedBy mark y ∉ mentioned [older, newer] :=
    fun hm => clean.not_isReserved hm (by simp)
  have body : ∀ {p r}, p ∈ [older, newer] → r ∈ p.rules → x.rejectedBy mark y ∉ r.body :=
    fun hp hr h => plain (mentioned_body hp hr h)
  have negBody : ∀ {p r}, p ∈ [older, newer] → r ∈ p.rules → x.rejectedBy mark y ∉ r.negBody :=
    fun hp hr h => plain (mentioned_negBody hp hr h)
  have copy : ∀ {s : String}, s ∈ [olderSuffix, newerSuffix] → ∀ l : Literal,
      l.withSuffix s ≠ x.rejectedBy mark y := fun {s} hs l e =>
    l.not_isReserved_withSuffix mark hs (e ▸ x.isReserved_rejectedBy y)
  have olderCopy := copy (s := olderSuffix) (by simp)
  have newerCopy := copy (s := newerSuffix) (by simp)
  have hOlder : older ∈ [older, newer] := by simp
  have hNewer : newer ∈ [older, newer] := by simp
  simp only [Clause.literals, Clause.completeBody, List.mem_append, Option.mem_toList] at h
  cases hc with
  | constraint hp hr hnone => simp [hnone, body hp hr, negBody hp hr] at h
  | older ha head =>
      simp [body hOlder ha, negBody hOlder ha, olderCopy,
        (Rule.rejected_ne_rejectedBy _ _ _).symm] at h
  | newer hb head => simp [body hNewer hb, negBody hNewer hb, newerCopy] at h
  | active hb head => simp [body hNewer hb, negBody hNewer hb] at h
  | @cause a b ha hb opposed =>
      refine ⟨a, b, ?_, ha, Or.inl rfl⟩
      simpa [body hOlder ha, negBody hOlder ha, (Rule.active_ne_rejectedBy _ _ _).symm] using h
  | @rejected a b ha hb opposed =>
      refine ⟨a, b, ?_, ha, Or.inr rfl⟩
      simpa [eq_comm] using h
  | copyNewer hm => simp [olderCopy, (newerCopy _).symm] at h
  | copyOlder hm =>
      have : ∀ {l}, l ∈ Program.literalBase [older, newer] → l ≠ x.rejectedBy mark y :=
        fun hm e => plain (e ▸ mentioned_of_mem_literalBase hm)
      simp [this hm, (olderCopy _).symm] at h

/-- Equivalent literals of equivalent clauses are the same. -/
lemma UpdateClause.same_of_equiv (clean : Clean mark [older, newer])
    (hc : UpdateClause mark older newer c) (hd : UpdateClause mark older newer d) (e : c ≈ d) :
    ∀ l ∈ c.literals, ∀ m ∈ d.literals, l ≈ m → l = m := by
  intro l hl m hm e'
  have wf := clean.toWellFormed
  rcases (hc.updateLiteral hl).eq_of_equiv clean (hd.updateLiteral hm) e' with h |
    ⟨⟨x, y, rfl⟩, x', y', rfl⟩
  · exact h
  · obtain ⟨a, b, hab, ha, hc⟩ := hc.of_cause_mem clean hl
    obtain ⟨a', b', hab', ha', hd⟩ := hd.of_cause_mem clean hm
    rw [← hab, ← hab'] at e' ⊢
    refine Rule.rejectedBy_eq_of_equiv e' ?_
    rcases hc with rfl | rfl <;> rcases hd with rfl | rfl
    · -- the newer rule is active in the body of either clause
      obtain ⟨k, hk, e⟩ := e.2.1.1 (b.active mark) (by simp)
      rcases List.mem_append.1 hk with hk | hk
      · have unreserved := clean.not_isReserved (mentioned_body (by simp) ha' hk)
        rw [Literal.IsReserved, ← e.1.1] at unreserved
        exact absurd b.isReserved_active unreserved
      · rw [List.mem_singleton.1 hk] at e
        exact Or.inr (Rule.constant_eq_of_equiv e)
    · exact absurd (show mark.causePredicate = mark.rejectedPredicate from e.1.1.1)
        mark.rejected_ne_cause.symm
    · exact absurd (show mark.rejectedPredicate = mark.causePredicate from e.1.1.1)
        mark.rejected_ne_cause
    · exact Or.inl (Rule.constant_eq_of_equiv e.1)

/-- No clause of the update program is empty. -/
lemma UpdateClause.not_isEmpty (wf : WellFormed mark [older, newer])
    (hc : UpdateClause mark older newer c) : c.isEmpty = false := by
  cases hc with
  | constraint hp hr hnone => exact wf.nonempty _ hp _ hr
  | _ => rfl

end

/-! ## The program -/

lemma map_toClause_relabel (taken : List Int) (start : Int) (rs : List Rule) :
    (relabel taken start rs).map Rule.toClause = rs.map Rule.toClause := by
  induction rs generalizing taken start with
  | nil => rfl
  | cons r rs ih =>
      rw [relabel, List.map_cons, List.map_cons, ih]
      rfl

lemma Program.clauses_relabelled (p : Program) (start : Int) (reserved : List Rule) :
    (p.relabelled start reserved).clauses = p.clauses :=
  map_toClause_relabel _ _ _

section

variable {mark : Mark} {older newer : Program} {g : Ledger}

/-- The update program says what it should, and leaves out only repetitions. -/
lemma clauses_buildUpdateProgram (mark : Mark) (older newer : Program) (g : Ledger) :
    (∀ c ∈ (buildUpdateProgram older newer mark g).1.clauses, UpdateClause mark older newer c) ∧
      ∀ c, UpdateClause mark older newer c → c.isEmpty = false →
        ∃ d ∈ (buildUpdateProgram older newer mark g).1.clauses, d ≈ c := by
  obtain ⟨minted, -, -⟩ := mintAll_apply 0 (updateClauses mark older newer)
    (Work.began "detection" "build_update_program" g).2
  have gathers := ofRules_gathers s!"mup({older.name},{newer.name})"
    (mintAll 0 (updateClauses mark older newer)
      (Work.began "detection" "build_update_program" g).2).1
    (mintAll 0 (updateClauses mark older newer)
      (Work.began "detection" "build_update_program" g).2).2
  have clauses : (buildUpdateProgram older newer mark g).1.clauses =
      (Program.ofRules s!"mup({older.name},{newer.name})"
        (mintAll 0 (updateClauses mark older newer)
          (Work.began "detection" "build_update_program" g).2).1
        (mintAll 0 (updateClauses mark older newer)
          (Work.began "detection" "build_update_program" g).2).2).1.clauses :=
    Program.clauses_relabelled _ 0 []
  rw [clauses]
  constructor
  · intro c hc
    rcases gathers.mem_clauses hc with hc | ⟨r, hr, rfl⟩
    · simp [Program.clauses] at hc
    · rw [← mem_updateClauses, ← minted]
      exact List.mem_map_of_mem hr
  · intro c hc hne
    rw [← mem_updateClauses, ← minted] at hc
    obtain ⟨r, hr, rfl⟩ := List.mem_map.1 hc
    exact gathers.covers hr hne

/-- **A solver's models of the update program are those of all its clauses.** -/
theorem isStable_updateProgram_iff (clean : Clean mark [older, newer]) (g : Ledger)
    {held : String → Prop} : IsStable (buildUpdateProgram older newer mark g).1.ground held ↔
      IsStable ((updateClauses mark older newer).map Clause.ground) held := by
  obtain ⟨sound, covers⟩ := clauses_buildUpdateProgram mark older newer g
  rw [Program.ground_eq]
  refine isStable_congr ?_ ?_
  · intro r hr
    obtain ⟨c, hc, rfl⟩ := List.mem_map.1 hr
    exact ⟨c.ground, List.mem_map_of_mem (mem_updateClauses.2 (sound c hc)), rfl, by simp, by simp⟩
  · intro r hr
    obtain ⟨c, hc, rfl⟩ := List.mem_map.1 hr
    have hc := mem_updateClauses.1 hc
    obtain ⟨d, hd, e⟩ := covers c hc (hc.not_isEmpty clean.toWellFormed)
    refine ⟨d.ground, List.mem_map_of_mem hd, ?_⟩
    exact Clause.ground_repeats (Setoid.symm e)
      (hc.same_of_equiv clean (sound d hd) (Setoid.symm e))

end

end CausalUpdate
