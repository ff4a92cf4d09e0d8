import CausalUpdate.Proofs.UpdateProgram.Ground
import Mathlib.Data.Set.Function

/-!
# What the update program means

The answer sets of the update program are about causal rejection.  What the two programs see of an
answer set is an answer set of the rules that *survive* in it, and every such set is seen in exactly
one answer set of the update program.  Which rules survive depends on the set itself, and so does
the reduct; both sides are compared over literals, derivation by derivation.

* `survivors` — the newer program and what it leaves of the older one.
* `expansion` — the answer set of the update program in which a given set is seen.
* `isAnswerSet_updateClauses_iff` — the correspondence over literals.
* `bijOn_visibleTexts` — the correspondence of a solver's models.
-/

namespace CausalUpdate

/-! ## Causal rejection -/

/-- Some rule of the newer program has the complementary head, and both bodies hold. -/
def Overruled (newer : Program) (held : Set Literal) (a : Rule) : Prop :=
  ∃ b ∈ newer.rules, a.Opposed b.toClause ∧ a.HoldsIn held ∧ b.HoldsIn held

open Classical in
/-- The rules of the older program that are not overruled in a set of literals, and those of the
newer program. -/
noncomputable def survivors (older newer : Program) (held : Set Literal) : Program :=
  { rules := older.rules.filter (fun a => ¬ Overruled newer held a) ++ newer.rules }

lemma mem_survivors {older newer : Program} {held : Set Literal} {c : Clause} :
    c ∈ (survivors older newer held).clauses ↔
      (∃ a ∈ older.rules, ¬ Overruled newer held a ∧ a.toClause = c) ∨
        ∃ b ∈ newer.rules, b.toClause = c := by
  simp [survivors, Program.clauses, and_assoc]

/-- What is in the answer set of the update program in which the programs see `held`. -/
inductive Expansion (mark : Mark) (older newer : Program) (held : Set Literal) : Literal → Prop
  | plain {l : Literal} (hl : l ∈ held) : Expansion mark older newer held l
  | olderCopy {l : Literal} (hl : l ∈ held) :
      Expansion mark older newer held (l.withSuffix olderSuffix)
  | newerCopy {b : Rule} {h : Literal} (hb : b ∈ newer.rules) (head : b.head = some h)
      (holds : b.HoldsIn held) : Expansion mark older newer held (h.withSuffix newerSuffix)
  | active {b : Rule} {h : Literal} (hb : b ∈ newer.rules) (head : b.head = some h)
      (holds : b.HoldsIn held) : Expansion mark older newer held (b.active mark)
  | cause {a b : Rule} (ha : a ∈ older.rules) (hb : b ∈ newer.rules)
      (opposed : a.Opposed b.toClause) (older_holds : a.HoldsIn held)
      (newer_holds : b.HoldsIn held) : Expansion mark older newer held (a.rejectedBy mark b)
  | rejected {a : Rule} (ha : a ∈ older.rules) (overruled : Overruled newer held a) :
      Expansion mark older newer held (a.rejected mark)

/-- The answer set of the update program in which the programs see `held`. -/
def expansion (mark : Mark) (older newer : Program) (held : Set Literal) : Set Literal :=
  {x | Expansion mark older newer held x}

/-! ## Bodies -/

section

variable {older newer : Program} {held seen : Set Literal} {p : Program} {a b r : Rule}
  {l : Literal}

lemma Clause.holdsIn_congr {c : Clause} (h : ∀ l ∈ c.completeBody, l ∈ held ↔ l ∈ seen) :
    c.HoldsIn held ↔ c.HoldsIn seen := by
  have pos : ∀ l ∈ c.body, l ∈ held ↔ l ∈ seen := fun l hl => h l (by simp [completeBody, hl])
  have neg : ∀ l ∈ c.negBody, l ∈ held ↔ l ∈ seen := fun l hl => h l (by simp [completeBody, hl])
  exact and_congr (forall₂_congr pos) (forall₂_congr fun l hl => not_congr (neg l hl))

/-- Whether a body holds is a question about what the programs mention. -/
lemma holdsIn_congr_of_mentioned {ps : List Program} (hp : p ∈ ps) (hr : r ∈ p.rules)
    (h : ∀ l ∈ mentioned ps, l ∈ held ↔ l ∈ seen) : r.HoldsIn held ↔ r.HoldsIn seen := by
  refine Clause.holdsIn_congr fun l hl => h l (mem_mentioned.2 ⟨p, hp, r, hr, ?_⟩)
  rw [Clause.literals, List.mem_append]
  exact Or.inr hl

lemma overruled_congr (ha : a ∈ older.rules)
    (h : ∀ l ∈ mentioned [older, newer], l ∈ held ↔ l ∈ seen) :
    Overruled newer held a ↔ Overruled newer seen a := by
  refine exists_congr fun b => and_congr_right fun hb => and_congr_right fun _ => ?_
  rw [holdsIn_congr_of_mentioned (by simp) ha h, holdsIn_congr_of_mentioned (by simp) hb h]

end

/-! ## From the update program to the survivors -/

namespace IsAnswerSet

variable {mark : Mark} {older newer : Program} {held : Set Literal} {a b : Rule} {l : Literal}

/-- The answer sets of an update program hold nothing but its literals. -/
lemma updateLiteral (h : IsAnswerSet (updateClauses mark older newer) held) (hl : l ∈ held) :
    UpdateLiteral mark older newer l := by
  obtain ⟨c, hc, head, -⟩ := h.mem_iff.1 hl
  exact (mem_updateClauses.1 hc).updateLiteral (by simp [Clause.literals, head])

/-- A cause in an answer set is that of an older and a newer rule. -/
lemma exists_rules_of_isCause (wf : WellFormed mark [older, newer])
    (h : IsAnswerSet (updateClauses mark older newer) held) (hl : l ∈ held)
    (cause : l.IsCause mark) : ∃ a ∈ older.rules, ∃ b ∈ newer.rules, l = a.rejectedBy mark b := by
  obtain ⟨x, y, rfl⟩ := cause
  obtain ⟨c, hc, head, -⟩ := h.mem_iff.1 hl
  obtain ⟨a, ha, b, hb, -, e, -⟩ := (mem_updateClauses.1 hc).of_cause wf head rfl
  exact ⟨a, ha, b, hb, e⟩

/-- The newer rules whose bodies hold are active. -/
lemma active_mem_iff (wf : WellFormed mark [older, newer])
    (h : IsAnswerSet (updateClauses mark older newer) held) (hb : b ∈ newer.rules) :
    b.active mark ∈ held ↔ ∃ k, b.head = some k ∧ b.HoldsIn held := by
  rw [h.mem_iff]
  constructor
  · rintro ⟨c, hc, head, holds⟩
    obtain ⟨b', hb', k, hk, e, rfl⟩ := (mem_updateClauses.1 hc).of_active wf head rfl
    obtain rfl := Program.eq_of_id_eq (wf.ids newer (by simp)) hb hb' (Rule.active_inj.1 e)
    exact ⟨k, hk, holds⟩
  · rintro ⟨k, hk, holds⟩
    exact ⟨_, mem_updateClauses.2 (.active hb hk), rfl, holds⟩

/-- The causes are the pairs of rules with complementary heads whose bodies hold. -/
lemma rejectedBy_mem_iff (wf : WellFormed mark [older, newer])
    (h : IsAnswerSet (updateClauses mark older newer) held) (ha : a ∈ older.rules)
    (hb : b ∈ newer.rules) :
    a.rejectedBy mark b ∈ held ↔ a.Opposed b.toClause ∧ a.HoldsIn held ∧ b.HoldsIn held := by
  constructor
  · intro hm
    obtain ⟨c, hc, head, holds⟩ := h.mem_iff.1 hm
    obtain ⟨a', ha', b', hb', opposed, e, rfl⟩ := (mem_updateClauses.1 hc).of_cause wf head rfl
    obtain ⟨ea, eb⟩ := Rule.rejectedBy_inj.1 e
    obtain rfl := Program.eq_of_id_eq (wf.ids older (by simp)) ha ha' ea
    obtain rfl := Program.eq_of_id_eq (wf.ids newer (by simp)) hb hb' eb
    obtain ⟨-, -, active⟩ := (h.active_mem_iff wf hb).1 (holds.1 _ (by simp))
    exact ⟨opposed, ⟨fun m hm => holds.1 m (by simp [hm]), holds.2⟩, active⟩
  · rintro ⟨opposed, holds, holds'⟩
    obtain ⟨-, k, -, hk, -⟩ := opposed.heads
    refine h.mem_iff.2 ⟨_, mem_updateClauses.2 (.cause ha hb opposed), rfl, ?_, holds.2⟩
    intro m hm
    rcases List.mem_append.1 hm with hm | hm
    · exact holds.1 m hm
    · rw [List.mem_singleton.1 hm]
      exact (h.active_mem_iff wf hb).2 ⟨k, hk, holds'⟩

/-- The rejected rules are those that are overruled. -/
lemma rejected_mem_iff (wf : WellFormed mark [older, newer])
    (h : IsAnswerSet (updateClauses mark older newer) held) (ha : a ∈ older.rules) :
    a.rejected mark ∈ held ↔ Overruled newer held a := by
  constructor
  · intro hm
    obtain ⟨c, hc, head, holds⟩ := h.mem_iff.1 hm
    obtain ⟨a', ha', b, hb, -, e, rfl⟩ := (mem_updateClauses.1 hc).of_rejected wf head rfl
    obtain rfl := Program.eq_of_id_eq (wf.ids older (by simp)) ha ha' (Rule.rejected_inj.1 e)
    exact ⟨b, hb, (h.rejectedBy_mem_iff wf ha hb).1 (holds.1 _ (by simp))⟩
  · rintro ⟨b, hb, both⟩
    refine h.mem_iff.2 ⟨_, mem_updateClauses.2 (.rejected ha hb both.1), rfl, ?_, by simp⟩
    simpa using (h.rejectedBy_mem_iff wf ha hb).2 both

/-- The newer copy holds what the newer program derives. -/
lemma newer_mem_iff (clean : Clean mark [older, newer])
    (h : IsAnswerSet (updateClauses mark older newer) held) (hl : l ∈ mentioned [older, newer]) :
    l.withSuffix newerSuffix ∈ held ↔ ∃ b ∈ newer.rules, b.head = some l ∧ b.HoldsIn held := by
  rw [h.mem_iff]
  constructor
  · rintro ⟨c, hc, head, holds⟩
    obtain ⟨b, hb, hh, rfl⟩ := (mem_updateClauses.1 hc).of_newer clean head hl
    exact ⟨b, hb, hh, holds⟩
  · rintro ⟨b, hb, hh, holds⟩
    exact ⟨_, mem_updateClauses.2 (.newer hb hh), rfl, holds⟩

/-- The older copy holds what the survivors derive. -/
lemma older_mem_iff (clean : Clean mark [older, newer])
    (h : IsAnswerSet (updateClauses mark older newer) held) (hl : l ∈ mentioned [older, newer]) :
    l.withSuffix olderSuffix ∈ held ↔
      ∃ c ∈ (survivors older newer held).clauses, c.head = some l ∧ c.HoldsIn held := by
  constructor
  · intro hm
    obtain ⟨c, hc, head, holds⟩ := h.mem_iff.1 hm
    rcases (mem_updateClauses.1 hc).of_older clean head hl with ⟨a, ha, hh, rfl⟩ | rfl
    · have rejected := holds.2 (a.rejected mark) (by simp)
      rw [h.rejected_mem_iff clean.toWellFormed ha] at rejected
      exact ⟨a.toClause, mem_survivors.2 (Or.inl ⟨a, ha, rejected, rfl⟩), hh, holds.1,
        fun m hm => holds.2 m (by simp [hm])⟩
    · obtain ⟨b, hb, hh, holds⟩ := (h.newer_mem_iff clean hl).1 (holds.1 _ (by simp))
      exact ⟨b.toClause, mem_survivors.2 (Or.inr ⟨b, hb, rfl⟩), hh, holds⟩
  · rintro ⟨c, hc, hh, holds⟩
    rw [h.mem_iff]
    rcases mem_survivors.1 hc with ⟨a, ha, survives, rfl⟩ | ⟨b, hb, rfl⟩
    · refine ⟨_, mem_updateClauses.2 (.older ha hh), rfl, holds.1, fun m hm => ?_⟩
      rcases List.mem_append.1 hm with hm | hm
      · exact holds.2 m hm
      · rw [List.mem_singleton.1 hm, h.rejected_mem_iff clean.toWellFormed ha]
        exact survives
    · refine ⟨_, mem_updateClauses.2 (.copyNewer (clean.mem_literalBase.2 hl)), rfl, ?_, by simp⟩
      simpa using (h.newer_mem_iff clean hl).2 ⟨b, hb, hh, holds⟩

/-- What the programs mention holds when it does in the older copy. -/
lemma plain_mem_iff (clean : Clean mark [older, newer])
    (h : IsAnswerSet (updateClauses mark older newer) held) (hl : l ∈ mentioned [older, newer]) :
    l ∈ held ↔ l.withSuffix olderSuffix ∈ held := by
  constructor
  · intro hm
    obtain ⟨c, hc, head, holds⟩ := h.mem_iff.1 hm
    rw [(mem_updateClauses.1 hc).of_mentioned clean hl head] at holds
    exact holds.1 _ (by simp)
  · intro hm
    refine h.mem_iff.2 ⟨_, mem_updateClauses.2 (.copyOlder (clean.mem_literalBase.2 hl)), rfl, ?_⟩
    exact ⟨by simpa using hm, by simp⟩

/-- What the newer program derives holds. -/
lemma mem_of_newer (clean : Clean mark [older, newer])
    (h : IsAnswerSet (updateClauses mark older newer) held) (hb : b ∈ newer.rules)
    (head : b.head = some l) (holds : b.HoldsIn held) : l ∈ held := by
  have hl : l ∈ mentioned [older, newer] := mentioned_head (by simp) hb head
  refine (h.plain_mem_iff clean hl).2 ((h.older_mem_iff clean hl).2 ⟨b.toClause, ?_, head, holds⟩)
  exact mem_survivors.2 (Or.inr ⟨b, hb, rfl⟩)

/-- What holds of what the programs mention is derived by one of their rules. -/
lemma exists_rule (clean : Clean mark [older, newer])
    (h : IsAnswerSet (updateClauses mark older newer) held) (hl : l ∈ mentioned [older, newer])
    (hm : l ∈ held) :
    ∃ r, (r ∈ older.rules ∨ r ∈ newer.rules) ∧ r.head = some l ∧ r.HoldsIn held := by
  obtain ⟨c, hc, head, holds⟩ := (h.older_mem_iff clean hl).1 ((h.plain_mem_iff clean hl).1 hm)
  rcases mem_survivors.1 hc with ⟨a, ha, -, rfl⟩ | ⟨b, hb, rfl⟩
  · exact ⟨a, Or.inl ha, head, holds⟩
  · exact ⟨b, Or.inr hb, head, holds⟩

end IsAnswerSet

/-! ### What is seen of an answer set -/

section

variable {mark : Mark} {older newer : Program} {held : Set Literal} {l : Literal}

/-- What the programs mention. -/
def seenIn (ps : List Program) (held : Set Literal) : Set Literal :=
  {l ∈ held | l ∈ mentioned ps}

lemma mem_seenIn_iff {ps : List Program} (hl : l ∈ mentioned ps) :
    l ∈ held ↔ l ∈ seenIn ps held :=
  ⟨fun h => ⟨h, hl⟩, And.left⟩

/-- The survivors mention nothing new. -/
lemma mentioned_of_mem_survivors {seen : Set Literal} {c : Clause}
    (hc : c ∈ (survivors older newer seen).clauses) {m : Literal} (hm : m ∈ c.literals) :
    m ∈ mentioned [older, newer] := by
  rcases mem_survivors.1 hc with ⟨a, ha, -, rfl⟩ | ⟨b, hb, rfl⟩
  · exact mem_mentioned.2 ⟨older, by simp, a, ha, hm⟩
  · exact mem_mentioned.2 ⟨newer, by simp, b, hb, hm⟩

lemma holdsIn_survivor_congr {seen seen' : Set Literal} {c : Clause}
    (hc : c ∈ (survivors older newer seen).clauses)
    (h : ∀ l ∈ mentioned [older, newer], l ∈ held ↔ l ∈ seen') :
    c.HoldsIn held ↔ c.HoldsIn seen' := by
  refine Clause.holdsIn_congr fun l hl => h l (mentioned_of_mem_survivors hc ?_)
  rw [Clause.literals, List.mem_append]
  exact Or.inr hl

/-- Sets that agree on what the programs mention have the same survivors. -/
lemma survivors_congr {seen : Set Literal}
    (h : ∀ l ∈ mentioned [older, newer], l ∈ held ↔ l ∈ seen) :
    survivors older newer held = survivors older newer seen := by
  unfold survivors
  congr 2
  refine List.filter_congr fun a ha => ?_
  rw [decide_eq_decide]
  exact not_congr (overruled_congr ha h)

/-- What follows in an answer set of the update program, of a copy or not, follows from the
survivors. -/
lemma follows_survivors (clean : Clean mark [older, newer])
    (h : IsAnswerSet (updateClauses mark older newer) held) {x : Literal}
    (hx : Follows (updateClauses mark older newer) held x) :
    ∀ l ∈ mentioned [older, newer],
      x = l ∨ x = l.withSuffix olderSuffix ∨ x = l.withSuffix newerSuffix →
      Follows (survivors older newer held).clauses held l := by
  induction hx with
  | @clause c x mem head pos neg ih =>
      have hc := mem_updateClauses.1 mem
      rintro l hl (rfl | rfl | rfl)
      · obtain rfl := hc.of_mentioned clean hl head
        exact ih (x.withSuffix olderSuffix) (by simp) x hl (Or.inr (Or.inl rfl))
      · rcases hc.of_older clean head hl with ⟨a, ha, hh, rfl⟩ | rfl
        · have rejected := neg (a.rejected mark) (by simp)
          rw [h.rejected_mem_iff clean.toWellFormed ha] at rejected
          refine .clause (mem_survivors.2 (Or.inl ⟨a, ha, rejected, rfl⟩)) hh ?_ ?_
          · exact fun m hm => ih m hm m (mentioned_body (by simp) ha hm) (Or.inl rfl)
          · exact fun m hm => neg m (List.mem_append_left _ hm)
        · exact ih (l.withSuffix newerSuffix) (by simp) l hl (Or.inr (Or.inr rfl))
      · obtain ⟨b, hb, hh, rfl⟩ := hc.of_newer clean head hl
        refine .clause (mem_survivors.2 (Or.inr ⟨b, hb, rfl⟩)) hh (fun m hm => ?_) neg
        exact ih m hm m (mentioned_body (by simp) hb hm) (Or.inl rfl)

/-- **What the programs see of an answer set of the update program is an answer set of its
survivors.** -/
theorem IsAnswerSet.seen (clean : Clean mark [older, newer])
    (h : IsAnswerSet (updateClauses mark older newer) held) :
    IsAnswerSet (survivors older newer (seenIn [older, newer] held)).clauses
      (seenIn [older, newer] held) := by
  have agree : ∀ l ∈ mentioned [older, newer], l ∈ held ↔ l ∈ seenIn [older, newer] held :=
    fun l hl => mem_seenIn_iff hl
  rw [← survivors_congr agree]
  refine ⟨fun l => ⟨?_, fun f => ?_⟩, ?_, ?_⟩
  · rintro ⟨hl, hm⟩
    have f := follows_survivors clean h ((h.founded l).1 hl) l hm (Or.inl rfl)
    refine f.congr fun c hc m hm => agree m (mentioned_of_mem_survivors hc ?_)
    simp [Clause.literals, Clause.completeBody, hm]
  · induction f with
    | @clause c l mem head _ neg ih =>
        have hl := mentioned_of_mem_survivors mem (m := l) (by simp [Clause.literals, head])
        have holds := (holdsIn_survivor_congr mem agree).2 ⟨ih, neg⟩
        refine ⟨?_, hl⟩
        rw [h.plain_mem_iff clean hl, h.older_mem_iff clean hl]
        exact ⟨c, mem, head, holds⟩
  · intro c hc head holds
    have holds := (holdsIn_survivor_congr hc agree).2 holds
    rcases mem_survivors.1 hc with ⟨a, ha, -, rfl⟩ | ⟨b, hb, rfl⟩
    · exact h.constraints _ (mem_updateClauses.2 (.constraint (by simp) ha head)) head holds
    · exact h.constraints _ (mem_updateClauses.2 (.constraint (by simp) hb head)) head holds
  · rintro l ⟨hl, -⟩ ⟨hl', -⟩
    exact h.consistent l hl hl'

/-- Nothing else is in an answer set of the update program but what comes with what is seen. -/
lemma IsAnswerSet.mem_iff_expansion (clean : Clean mark [older, newer])
    (h : IsAnswerSet (updateClauses mark older newer) held) {x : Literal} :
    x ∈ held ↔ Expansion mark older newer (seenIn [older, newer] held) x := by
  have wf := clean.toWellFormed
  have agree : ∀ l ∈ mentioned [older, newer], l ∈ held ↔ l ∈ seenIn [older, newer] held :=
    fun l hl => mem_seenIn_iff hl
  have older_agree : ∀ {a}, a ∈ older.rules →
      (a.HoldsIn held ↔ a.HoldsIn (seenIn [older, newer] held)) :=
    fun ha => holdsIn_congr_of_mentioned (by simp) ha agree
  have newer_agree : ∀ {b}, b ∈ newer.rules →
      (b.HoldsIn held ↔ b.HoldsIn (seenIn [older, newer] held)) :=
    fun hb => holdsIn_congr_of_mentioned (by simp) hb agree
  constructor
  · intro hx
    cases h.updateLiteral hx with
    | plain hl => exact .plain ((agree _ hl).1 hx)
    | olderCopy hl => exact .olderCopy ((agree _ hl).1 ((h.plain_mem_iff clean hl).2 hx))
    | newerCopy hl =>
        obtain ⟨b, hb, hh, holds⟩ := (h.newer_mem_iff clean hl).1 hx
        exact .newerCopy hb hh ((newer_agree hb).1 holds)
    | active hb =>
        obtain ⟨k, hk, holds⟩ := (h.active_mem_iff wf hb).1 hx
        exact .active hb hk ((newer_agree hb).1 holds)
    | rejected ha =>
        exact .rejected ha ((overruled_congr ha agree).1 ((h.rejected_mem_iff wf ha).1 hx))
    | rejectedBy ha hb =>
        obtain ⟨opposed, holds, holds'⟩ := (h.rejectedBy_mem_iff wf ha hb).1 hx
        exact .cause ha hb opposed ((older_agree ha).1 holds) ((newer_agree hb).1 holds')
  · intro hx
    cases hx with
    | plain hl => exact hl.1
    | olderCopy hl => exact (h.plain_mem_iff clean hl.2).1 hl.1
    | newerCopy hb hh holds =>
        have hl := mentioned_head (show newer ∈ [older, newer] by simp) hb hh
        exact (h.newer_mem_iff clean hl).2 ⟨_, hb, hh, (newer_agree hb).2 holds⟩
    | active hb hh holds => exact (h.active_mem_iff wf hb).2 ⟨_, hh, (newer_agree hb).2 holds⟩
    | cause ha hb opposed holds holds' =>
        refine (h.rejectedBy_mem_iff wf ha hb).2 ⟨opposed, ?_, ?_⟩
        · exact (older_agree ha).2 holds
        · exact (newer_agree hb).2 holds'
    | rejected ha overruled =>
        exact (h.rejected_mem_iff wf ha).2 ((overruled_congr ha agree).2 overruled)

end

/-! ## From the survivors to the update program -/

/-- The set holds only what the programs mention, and the head of every newer rule whose bodies
hold. -/
structure Fits (older newer : Program) (held : Set Literal) : Prop where
  mentioned : ∀ l ∈ held, l ∈ mentioned [older, newer]
  closed : ∀ b ∈ newer.rules, ∀ h, b.head = some h → b.HoldsIn held → h ∈ held

section

variable {mark : Mark} {older newer : Program} {held : Set Literal} {a b : Rule} {l x : Literal}

lemma IsAnswerSet.fits (h : IsAnswerSet (survivors older newer held).clauses held) :
    Fits older newer held where
  mentioned l hl := by
    obtain ⟨c, hc, head, -⟩ := h.mem_iff.1 hl
    exact mentioned_of_mem_survivors hc (by simp [Clause.literals, head])
  closed b hb k hk holds := h.mem_iff.2 ⟨_, mem_survivors.2 (Or.inr ⟨b, hb, rfl⟩), hk, holds⟩

namespace Expansion

/-- What is in an expansion is a copy of something that is held, or a statement on rules. -/
lemma shape (fits : Fits older newer held) (h : Expansion mark older newer held x) :
    (∃ j ∈ held, ∃ s ∈ ["", olderSuffix, newerSuffix], x = j.withSuffix s) ∨
      x.IsReserved mark ∧ x.negated = false := by
  cases h with
  | plain hl => exact Or.inl ⟨x, hl, "", by simp, by simp [Literal.withSuffix]⟩
  | olderCopy hl => exact Or.inl ⟨_, hl, olderSuffix, by simp, rfl⟩
  | newerCopy hb hh holds =>
      exact Or.inl ⟨_, fits.closed _ hb _ hh holds, newerSuffix, by simp, rfl⟩
  | active _ _ _ => exact Or.inr ⟨by simp, rfl⟩
  | cause _ _ _ _ _ => exact Or.inr ⟨by simp, rfl⟩
  | rejected _ _ => exact Or.inr ⟨by simp, rfl⟩

/-- A copy is in an expansion only if what it is a copy of is held. -/
lemma held_of_copy (clean : Clean mark [older, newer]) (fits : Fits older newer held)
    (hl : l ∈ mentioned [older, newer]) {s : String} (hs : s ∈ ["", olderSuffix, newerSuffix])
    (h : Expansion mark older newer held (l.withSuffix s)) : l ∈ held := by
  rcases h.shape fits with ⟨j, hj, t, ht, e⟩ | ⟨reserved, -⟩
  · obtain rfl := clean.suffix_eq hl (fits.mentioned j hj) hs ht
      (congrArg (fun k : Literal => k.atom.predicate) e)
    rwa [Literal.withSuffix_inj.1 e]
  · exact absurd reserved (clean.not_isReserved_copy hl hs)

lemma plain_iff (clean : Clean mark [older, newer]) (fits : Fits older newer held)
    (hl : l ∈ mentioned [older, newer]) : Expansion mark older newer held l ↔ l ∈ held :=
  ⟨fun h => held_of_copy clean fits hl (s := "") (by simp) (by simpa [Literal.withSuffix] using h),
    .plain⟩

/-- What is said of rules in an expansion. -/
lemma of_isReserved (wf : WellFormed mark [older, newer]) (fits : Fits older newer held)
    (h : Expansion mark older newer held x) (reserved : x.IsReserved mark) :
    (∃ b ∈ newer.rules, b.HoldsIn held ∧ x = b.active mark) ∨
    (∃ a ∈ older.rules, ∃ b ∈ newer.rules, (a.Opposed b.toClause ∧ a.HoldsIn held ∧
      b.HoldsIn held) ∧ x = a.rejectedBy mark b) ∨
    ∃ a ∈ older.rules, Overruled newer held a ∧ x = a.rejected mark := by
  cases h with
  | plain hl => exact absurd reserved (wf.not_isReserved (fits.mentioned _ hl))
  | olderCopy _ => exact absurd reserved (by simp)
  | newerCopy _ _ _ => exact absurd reserved (by simp)
  | active hb _ holds => exact Or.inl ⟨_, hb, holds, rfl⟩
  | cause ha hb opposed holds holds' =>
      exact Or.inr (Or.inl ⟨_, ha, _, hb, ⟨opposed, holds, holds'⟩, rfl⟩)
  | rejected ha overruled => exact Or.inr (Or.inr ⟨_, ha, overruled, rfl⟩)

lemma holds_of_active (wf : WellFormed mark [older, newer]) (fits : Fits older newer held)
    (hb : b ∈ newer.rules) (h : Expansion mark older newer held (b.active mark)) :
    b.HoldsIn held := by
  rcases h.of_isReserved wf fits (by simp) with ⟨b', hb', holds, e⟩ | ⟨a, -, b', -, -, e⟩ |
    ⟨a, -, -, e⟩
  · rwa [Program.eq_of_id_eq (wf.ids newer (by simp)) hb hb' (Rule.active_inj.1 e)]
  · exact absurd e (by simp)
  · exact absurd e (by simp)

lemma overruled_of_cause (wf : WellFormed mark [older, newer]) (fits : Fits older newer held)
    (ha : a ∈ older.rules) (h : Expansion mark older newer held (a.rejectedBy mark b)) :
    Overruled newer held a := by
  rcases h.of_isReserved wf fits (by simp) with ⟨b', -, -, e⟩ | ⟨a', ha', b', hb', both, e⟩ |
    ⟨a', -, -, e⟩
  · exact absurd e.symm (by simp)
  · rw [Program.eq_of_id_eq (wf.ids older (by simp)) ha ha' (Rule.rejectedBy_inj.1 e).1]
    exact ⟨b', hb', both⟩
  · exact absurd e.symm (by simp)

lemma overruled_of_rejected (wf : WellFormed mark [older, newer]) (fits : Fits older newer held)
    (ha : a ∈ older.rules) (h : Expansion mark older newer held (a.rejected mark)) :
    Overruled newer held a := by
  rcases h.of_isReserved wf fits (by simp) with ⟨b', -, -, e⟩ | ⟨a', -, b', -, -, e⟩ |
    ⟨a', ha', overruled, e⟩
  · exact absurd e.symm (by simp)
  · exact absurd e (by simp)
  · rwa [Program.eq_of_id_eq (wf.ids older (by simp)) ha ha' (Rule.rejected_inj.1 e)]

end Expansion

/-- What is held follows, in either copy, from the clauses of the update program. -/
lemma follows_copies (clean : Clean mark [older, newer])
    (h : IsAnswerSet (survivors older newer held).clauses held)
    (f : Follows (survivors older newer held).clauses held l) :
    Follows (updateClauses mark older newer) (expansion mark older newer held) l ∧
      Follows (updateClauses mark older newer) (expansion mark older newer held)
        (l.withSuffix olderSuffix) := by
  have fits := h.fits
  have copy : ∀ {l}, l ∈ mentioned [older, newer] →
      Follows (updateClauses mark older newer) (expansion mark older newer held)
        (l.withSuffix olderSuffix) →
      Follows (updateClauses mark older newer) (expansion mark older newer held) l := by
    intro l hl hf
    refine .clause (mem_updateClauses.2 (.copyOlder (clean.mem_literalBase.2 hl))) rfl ?_ ?_
    · simpa using hf
    · simp
  induction f with
  | @clause c l mem head _ neg ih =>
      have hl := mentioned_of_mem_survivors mem (m := l) (by simp [Clause.literals, head])
      have neg' : ∀ m ∈ c.negBody, m ∉ expansion mark older newer held := by
        intro m hm hx
        refine neg m hm ((Expansion.plain_iff clean fits ?_).1 hx)
        exact mentioned_of_mem_survivors mem (by simp [Clause.literals, Clause.completeBody, hm])
      suffices hf : Follows (updateClauses mark older newer) (expansion mark older newer held)
          (l.withSuffix olderSuffix) from ⟨copy hl hf, hf⟩
      rcases mem_survivors.1 mem with ⟨a, ha, survives, rfl⟩ | ⟨b, hb, rfl⟩
      · refine .clause (mem_updateClauses.2 (.older ha head)) rfl (fun m hm => (ih m hm).1) ?_
        intro m hm
        rcases List.mem_append.1 hm with hm | hm
        · exact neg' m hm
        · rw [List.mem_singleton.1 hm]
          exact fun hx => survives (Expansion.overruled_of_rejected clean.toWellFormed fits ha hx)
      · have newer_follows : Follows (updateClauses mark older newer)
            (expansion mark older newer held) (l.withSuffix newerSuffix) :=
          .clause (mem_updateClauses.2 (.newer hb head)) rfl (fun m hm => (ih m hm).1) neg'
        refine .clause (mem_updateClauses.2 (.copyNewer (clean.mem_literalBase.2 hl))) rfl ?_ ?_
        · simpa using newer_follows
        · simp

/-- What follows from the clauses of the update program is in the expansion. -/
lemma expansion_of_follows (clean : Clean mark [older, newer])
    (h : IsAnswerSet (survivors older newer held).clauses held)
    (f : Follows (updateClauses mark older newer) (expansion mark older newer held) x) :
    Expansion mark older newer held x := by
  have wf := clean.toWellFormed
  have fits := h.fits
  have agree : ∀ l ∈ mentioned [older, newer], l ∈ expansion mark older newer held ↔ l ∈ held :=
    fun l hl => Expansion.plain_iff clean fits hl
  induction f with
  | @clause c x mem head _ neg ih =>
      have holds : c.HoldsIn (expansion mark older newer held) := ⟨ih, neg⟩
      cases mem_updateClauses.1 mem with
      | constraint hp hr hnone => simp [hnone] at head
      | @older a k ha hh =>
          cases head
          have holds : a.HoldsIn held := by
            rw [← holdsIn_congr_of_mentioned (show older ∈ [older, newer] by simp) ha agree]
            exact ⟨holds.1, fun m hm => holds.2 m (List.mem_append_left _ hm)⟩
          have survives : ¬ Overruled newer held a :=
            fun o => neg (a.rejected mark) (by simp) (.rejected ha o)
          exact .olderCopy
            (h.mem_iff.2 ⟨_, mem_survivors.2 (Or.inl ⟨a, ha, survives, rfl⟩), hh, holds⟩)
      | @newer b k hb hh =>
          cases head
          exact .newerCopy hb hh ((holdsIn_congr_of_mentioned (by simp) hb agree).1 holds)
      | @active b k hb hh =>
          cases head
          exact .active hb hh ((holdsIn_congr_of_mentioned (by simp) hb agree).1 holds)
      | @cause a b ha hb opposed =>
          cases head
          refine .cause ha hb opposed ?_ (Expansion.holds_of_active wf fits hb (ih _ (by simp)))
          rw [← holdsIn_congr_of_mentioned (show older ∈ [older, newer] by simp) ha agree]
          exact ⟨fun m hm => holds.1 m (List.mem_append_left _ hm), holds.2⟩
      | @rejected a b ha hb opposed =>
          cases head
          have cause := ih (a.rejectedBy mark b) (List.mem_singleton_self _)
          exact .rejected ha (Expansion.overruled_of_cause wf fits ha cause)
      | @copyNewer l hl =>
          cases head
          have hl := mentioned_of_mem_literalBase hl
          have copy := ih (l.withSuffix newerSuffix) (List.mem_singleton_self _)
          exact .olderCopy (Expansion.held_of_copy clean fits hl (by simp) copy)
      | @copyOlder l hl =>
          cases head
          have hl := mentioned_of_mem_literalBase hl
          have copy := ih (x.withSuffix olderSuffix) (List.mem_singleton_self _)
          exact .plain (Expansion.held_of_copy clean fits hl (by simp) copy)

/-- Everything in the expansion follows from the clauses of the update program. -/
lemma follows_of_expansion (clean : Clean mark [older, newer])
    (h : IsAnswerSet (survivors older newer held).clauses held)
    (hx : Expansion mark older newer held x) :
    Follows (updateClauses mark older newer) (expansion mark older newer held) x := by
  have hOlder : older ∈ [older, newer] := by simp
  have hNewer : newer ∈ [older, newer] := by simp
  have plain := fun {l} (hl : l ∈ held) => follows_copies clean h ((h.founded l).1 hl)
  have body : ∀ {r : Rule}, r.HoldsIn held → ∀ m ∈ r.body,
      Follows (updateClauses mark older newer) (expansion mark older newer held) m :=
    fun holds m hm => (plain (holds.1 m hm)).1
  have neg : ∀ {p r}, p ∈ [older, newer] → r ∈ p.rules → r.HoldsIn held →
      ∀ m ∈ r.negBody, m ∉ expansion mark older newer held := by
    intro p r hp hr holds m hm hx
    exact holds.2 m hm ((Expansion.plain_iff clean h.fits (mentioned_negBody hp hr hm)).1 hx)
  have active : ∀ {b : Rule} {k : Literal}, b ∈ newer.rules → b.head = some k → b.HoldsIn held →
      Follows (updateClauses mark older newer) (expansion mark older newer held) (b.active mark) :=
    fun hb hh holds => .clause (mem_updateClauses.2 (.active hb hh)) rfl (body holds)
      (neg hNewer hb holds)
  have cause : ∀ {a b : Rule}, a ∈ older.rules → b ∈ newer.rules → a.Opposed b.toClause →
      a.HoldsIn held → b.HoldsIn held →
      Follows (updateClauses mark older newer) (expansion mark older newer held)
        (a.rejectedBy mark b) := by
    intro a b ha hb opposed holds holds'
    obtain ⟨-, k, -, hk, -⟩ := opposed.heads
    refine .clause (mem_updateClauses.2 (.cause ha hb opposed)) rfl ?_ (neg hOlder ha holds)
    intro m hm
    rcases List.mem_append.1 hm with hm | hm
    · exact body holds m hm
    · rw [List.mem_singleton.1 hm]
      exact active hb hk holds'
  cases hx with
  | plain hl => exact (plain hl).1
  | olderCopy hl => exact (plain hl).2
  | newerCopy hb hh holds =>
      exact .clause (mem_updateClauses.2 (.newer hb hh)) rfl (body holds) (neg hNewer hb holds)
  | active hb hh holds => exact active hb hh holds
  | cause ha hb opposed holds holds' => exact cause ha hb opposed holds holds'
  | rejected ha overruled =>
      obtain ⟨b, hb, opposed, holds, holds'⟩ := overruled
      refine .clause (mem_updateClauses.2 (.rejected ha hb opposed)) rfl ?_ (by simp)
      simpa using cause ha hb opposed holds holds'

/-- No literal is in an expansion together with its complement. -/
lemma Expansion.consistent (clean : Clean mark [older, newer])
    (h : IsAnswerSet (survivors older newer held).clauses held)
    (hx : Expansion mark older newer held x) : ¬ Expansion mark older newer held x.complement := by
  intro hx'
  have fits := h.fits
  rcases hx.shape fits with ⟨j, hj, s, hs, rfl⟩ | ⟨reserved, sign⟩
  · rcases hx'.shape fits with ⟨k, hk, t, ht, e⟩ | ⟨reserved, -⟩
    · obtain rfl := clean.suffix_eq (fits.mentioned j hj) (fits.mentioned k hk) hs ht
        (congrArg (fun m : Literal => m.atom.predicate) e)
      rw [Literal.complement_withSuffix, Literal.withSuffix_inj] at e
      exact h.consistent j hj (e ▸ hk)
    · exact clean.not_isReserved_copy (fits.mentioned j hj) hs reserved
  · rcases hx'.shape fits with ⟨k, hk, t, ht, e⟩ | ⟨-, sign'⟩
    · have reserved' : x.complement.IsReserved mark := reserved
      rw [e] at reserved'
      exact clean.not_isReserved_copy (fits.mentioned k hk) ht reserved'
    · simp [Literal.complement, sign] at sign'

/-- **An answer set of its survivors is what the programs see of an answer set of the update
program.** -/
theorem IsAnswerSet.expand (clean : Clean mark [older, newer])
    (h : IsAnswerSet (survivors older newer held).clauses held) :
    IsAnswerSet (updateClauses mark older newer) (expansion mark older newer held) := by
  refine ⟨fun x => ⟨follows_of_expansion clean h, expansion_of_follows clean h⟩, ?_, ?_⟩
  · intro c hc head holds
    cases mem_updateClauses.1 hc with
    | @constraint p r hp hr hnone =>
        have holds := (holdsIn_congr_of_mentioned hp hr
          fun l hl => Expansion.plain_iff clean h.fits hl).1 holds
        refine h.constraints r.toClause (mem_survivors.2 ?_) hnone holds
        rcases List.mem_cons.1 hp with rfl | hp
        · refine Or.inl ⟨r, hr, ?_, rfl⟩
          rintro ⟨b, -, opposed, -⟩
          obtain ⟨k, -, hk, -⟩ := opposed.heads
          rw [hnone] at hk
          exact absurd hk (by simp)
        · rw [List.mem_singleton.1 hp] at hr
          exact Or.inr ⟨r, hr, rfl⟩
    | _ => exact absurd head (by simp)
  · exact fun x hx => Expansion.consistent clean h hx

/-- What the programs see of an expansion is what it was made from. -/
lemma seenIn_expansion (clean : Clean mark [older, newer]) (fits : Fits older newer held) :
    seenIn [older, newer] (expansion mark older newer held) = held := by
  ext l
  constructor
  · rintro ⟨hx, hl⟩
    exact (Expansion.plain_iff clean fits hl).1 hx
  · exact fun hl => ⟨.plain hl, fits.mentioned l hl⟩

end

/-! ## The correspondence -/

section

variable {mark : Mark} {older newer : Program} {held : Set Literal}

/-- **The answer sets of the update program are the expansions of the answer sets of their
survivors.** -/
theorem isAnswerSet_updateClauses_iff (clean : Clean mark [older, newer]) :
    IsAnswerSet (updateClauses mark older newer) held ↔
      ∃ seen, IsAnswerSet (survivors older newer seen).clauses seen ∧
        held = expansion mark older newer seen := by
  constructor
  · intro h
    exact ⟨_, h.seen clean, Set.ext fun _ => h.mem_iff_expansion clean⟩
  · rintro ⟨seen, h, rfl⟩
    exact h.expand clean

/-- What the programs see of a model: the texts of literals that are among their base. -/
def visibleTexts (older newer : Program) (texts : Set String) : Set String :=
  {t ∈ texts | ∃ l : Literal, l.Readable ∧ l.text = t ∧ l.Among (Program.literalBase [older, newer])}

/-- The literals of the update program that are among the base are those the programs mention. -/
lemma UpdateLiteral.among_literalBase_iff (clean : Clean mark [older, newer]) {l : Literal}
    (h : UpdateLiteral mark older newer l) :
    l.Among (Program.literalBase [older, newer]) ↔ l ∈ mentioned [older, newer] := by
  rw [among_literalBase]
  refine ⟨?_, Literal.among_of_mem⟩
  rintro ⟨m, hm, e⟩
  rcases h.eq_of_equiv clean (.plain hm) e with rfl | ⟨-, a, b, rfl⟩
  · exact hm
  · exact absurd (a.isReserved_rejectedBy b) (clean.not_isReserved hm)

/-- Over texts, what is seen of an answer set. -/
lemma visibleTexts_image (clean : Clean mark [older, newer])
    (h : IsAnswerSet (updateClauses mark older newer) held) :
    visibleTexts older newer (Literal.text '' held) =
      Literal.text '' seenIn [older, newer] held := by
  ext t
  constructor
  · rintro ⟨⟨l, hl, rfl⟩, m, hm, e, among⟩
    have hx := h.updateLiteral hl
    obtain rfl := hm.legible.text_inj (hx.legible clean.toWellFormed) e
    exact ⟨m, ⟨hl, (hx.among_literalBase_iff clean).1 among⟩, rfl⟩
  · rintro ⟨l, ⟨hl, hm⟩, rfl⟩
    refine ⟨⟨l, hl, rfl⟩, l, clean.readable l hm, rfl, ?_⟩
    exact among_literalBase.2 (Literal.among_of_mem hm)

/-- A solver's models of the survivors are answer sets over literals. -/
lemma isStable_survivors_iff (clean : Clean mark [older, newer]) {texts : Set String} :
    IsStable (survivors older newer {l | l.text ∈ texts}).ground (· ∈ texts) ↔
      ∃ seen, IsAnswerSet (survivors older newer seen).clauses seen ∧
        texts = Literal.text '' seen := by
  have wf := clean.toWellFormed
  have legible : ∀ seen : Set Literal, AllLegible (survivors older newer seen).clauses :=
    fun seen c hc l hl => (wf.readable l (mentioned_of_mem_survivors hc hl)).legible
  have agree : ∀ {seen seen' : Set Literal},
      IsAnswerSet (survivors older newer seen').clauses seen →
      survivors older newer {l | l.text ∈ Literal.text '' seen} = survivors older newer seen := by
    intro seen seen' h
    refine survivors_congr fun l hl => agree_image ?_ l (wf.readable l hl).legible
    intro m hm
    obtain ⟨c, hc, head, -⟩ := h.mem_iff.1 hm
    exact legible _ c hc m (by simp [Clause.literals, head])
  rw [Program.ground_eq, isStable_ground_iff (legible _)]
  constructor
  · rintro ⟨seen, h, rfl⟩
    rw [agree h] at h
    exact ⟨seen, h, rfl⟩
  · rintro ⟨seen, h, rfl⟩
    refine ⟨seen, ?_, rfl⟩
    rw [agree h]
    exact h

/-- **The update program means causal rejection.**  What two clean programs see of a model of their
update program is a model of the rules that survive in it; every such model is seen, and it is seen
in one model of the update program only. -/
theorem bijOn_visibleTexts (clean : Clean mark [older, newer]) (g : Ledger) :
    Set.BijOn (visibleTexts older newer)
      {texts | IsStable (buildUpdateProgram older newer mark g).1.ground (· ∈ texts)}
      {texts | IsStable (survivors older newer {l | l.text ∈ texts}).ground (· ∈ texts)} := by
  have models : ∀ {texts : Set String},
      IsStable (buildUpdateProgram older newer mark g).1.ground (· ∈ texts) ↔
        ∃ held, IsAnswerSet (updateClauses mark older newer) held ∧ texts = Literal.text '' held :=
    (isStable_updateProgram_iff clean g).trans
      (isStable_ground_iff (allLegible_updateClauses clean.toWellFormed))
  refine ⟨?_, ?_, ?_⟩
  · intro texts stable
    obtain ⟨held, h, rfl⟩ := models.1 stable
    exact (isStable_survivors_iff clean).2 ⟨_, h.seen clean, visibleTexts_image clean h⟩
  · intro texts stable texts' stable' e
    obtain ⟨held, h, rfl⟩ := models.1 stable
    obtain ⟨held', h', rfl⟩ := models.1 stable'
    rw [visibleTexts_image clean h, visibleTexts_image clean h'] at e
    have seen : seenIn [older, newer] held = seenIn [older, newer] held' := by
      refine (Set.InjOn.image_eq_image_iff ?_ (fun l hl => hl.2) (fun l hl => hl.2)).1 e
      exact fun l hl m hm => ((clean.readable l hl).legible).text_inj (clean.readable m hm).legible
    have same : held = held' := by
      ext x
      rw [h.mem_iff_expansion clean, h'.mem_iff_expansion clean, seen]
    rw [same]
  · intro texts stable
    obtain ⟨seen, h, rfl⟩ := (isStable_survivors_iff clean).1 stable
    refine ⟨_, models.2 ⟨_, h.expand clean, rfl⟩, ?_⟩
    rw [visibleTexts_image clean (h.expand clean), seenIn_expansion clean h.fits]

/-- The correspondence for a fact and a loop through negation that may contradict it. -/
theorem bijOn_visibleTexts_loop :
    let fly : Literal := ⟨⟨"fly", ["tweety"]⟩, false⟩
    let sick : Literal := ⟨⟨"sick", []⟩, false⟩
    let well : Literal := ⟨⟨"well", []⟩, false⟩
    let older : Program := { rules := [{ head := some fly, id := 1 }] }
    let newer : Program := { rules := [
      { head := some fly.complement, body := [sick], id := 2 },
      { head := some sick, negBody := [well], id := 3 },
      { head := some well, negBody := [sick], id := 4 }] }
    Clean default [older, newer] ∧ Set.BijOn (visibleTexts older newer)
      {texts | IsStable (buildUpdateProgram older newer default {}).1.ground (· ∈ texts)}
      {texts | IsStable (survivors older newer {l | l.text ∈ texts}).ground (· ∈ texts)} :=
  ⟨by decide, bijOn_visibleTexts (by decide) {}⟩

end

end CausalUpdate
