import CausalUpdate.Proofs.UpdateProgram.CausalRejection

/-!
# Causal rejection and merging

Where nothing is overruled, comparing two programs and merging them comes to the same.  A program
that is merged from others *condenses* them: it says what they say and leaves out nothing but
repetitions.  Clean programs that are condensed stay clean and keep their stable models.

* `Condenses` — programs that say what others say.
* `merge_condenses` — merging condenses.
* `isAnswerSet_allClauses_iff` — the answer sets of two programs taken together are those of their
  survivors in which nothing is overruled.
-/

namespace CausalUpdate

/-- What the rules of several programs say. -/
def allClauses (ps : List Program) : List Clause :=
  ps.flatMap Program.clauses

lemma mem_allClauses {ps : List Program} {c : Clause} :
    c ∈ allClauses ps ↔ ∃ p ∈ ps, ∃ r ∈ p.rules, r.toClause = c := by
  simp [allClauses, Program.clauses]

@[simp] lemma allClauses_cons (p : Program) (ps : List Program) :
    allClauses (p :: ps) = p.clauses ++ allClauses ps :=
  List.flatMap_cons

@[simp] lemma allClauses_nil : allClauses [] = [] :=
  rfl

lemma mem_mentioned_iff_allClauses {ps : List Program} {l : Literal} :
    l ∈ mentioned ps ↔ ∃ c ∈ allClauses ps, l ∈ c.literals := by
  rw [mem_mentioned]
  constructor
  · rintro ⟨p, hp, r, hr, hl⟩
    exact ⟨r.toClause, mem_allClauses.2 ⟨p, hp, r, hr, rfl⟩, hl⟩
  · rintro ⟨c, hc, hl⟩
    obtain ⟨p, hp, r, hr, rfl⟩ := mem_allClauses.1 hc
    exact ⟨p, hp, r, hr, hl⟩

/-! ## Condensing -/

/-- The first programs say what the second ones say, up to repetitions. -/
structure Condenses (ms ps : List Program) : Prop where
  sound : ∀ c ∈ allClauses ms, c ∈ allClauses ps
  covers : ∀ c ∈ allClauses ps, ∃ d ∈ allClauses ms, d ≈ c

namespace Condenses

variable {mark : Mark} {ms ps qs : List Program} {m : Program} {held : String → Prop}

lemma refl (ps : List Program) : Condenses ps ps :=
  ⟨fun _ => id, fun c hc => ⟨c, hc, Setoid.refl c⟩⟩

lemma trans (h : Condenses ms ps) (k : Condenses ps qs) : Condenses ms qs where
  sound c hc := k.sound c (h.sound c hc)
  covers c hc := by
    obtain ⟨d, hd, e⟩ := k.covers c hc
    obtain ⟨b, hb, e'⟩ := h.covers d hd
    exact ⟨b, hb, Setoid.trans e' e⟩

/-- Further programs may follow. -/
lemma append (h : Condenses ms ps) (qs : List Program) : Condenses (ms ++ qs) (ps ++ qs) := by
  have split : ∀ ps : List Program, allClauses (ps ++ qs) = allClauses ps ++ allClauses qs :=
    fun ps => List.flatMap_append
  refine ⟨fun c hc => ?_, fun c hc => ?_⟩
  · rw [split, List.mem_append] at hc ⊢
    exact hc.imp (h.sound c) id
  · rw [split, List.mem_append] at hc
    rcases hc with hc | hc
    · obtain ⟨d, hd, e⟩ := h.covers c hc
      exact ⟨d, by rw [split]; exact List.mem_append_left _ hd, e⟩
    · exact ⟨c, by rw [split]; exact List.mem_append_right _ hc, Setoid.refl c⟩

lemma mentioned_subset (h : Condenses ms ps) {l : Literal} (hl : l ∈ mentioned ms) :
    l ∈ mentioned ps := by
  rw [mem_mentioned_iff_allClauses] at hl ⊢
  obtain ⟨c, hc, hl⟩ := hl
  exact ⟨c, h.sound c hc, hl⟩

/-- What is condensed from clean programs is clean. -/
lemma clean (h : Condenses ms ps) (clean : Clean mark ps) (ids : ∀ m ∈ ms, m.ids.Nodup) :
    Clean mark ms where
  ids := ids
  nonempty m hm r hr := by
    have hc := h.sound r.toClause (mem_allClauses.2 ⟨m, hm, r, hr, rfl⟩)
    obtain ⟨p, hp, s, hs, e⟩ := mem_allClauses.1 hc
    have hne := clean.nonempty p hp s hs
    rwa [e] at hne
  readable l hl := clean.readable l (h.mentioned_subset hl)
  unreserved l hl := clean.unreserved l (h.mentioned_subset hl)
  uncopied l hl k hk := clean.uncopied l (h.mentioned_subset hl) k (h.mentioned_subset hk)
  coherent l hl k hk := clean.coherent l (h.mentioned_subset hl) k (h.mentioned_subset hk)

/-- **Condensing clean programs changes no stable model.** -/
theorem isStable_iff (h : Condenses ms ps) (clean : Clean mark ps) :
    IsStable ((allClauses ms).map Clause.ground) held ↔
      IsStable ((allClauses ps).map Clause.ground) held := by
  refine isStable_congr ?_ ?_
  · intro r hr
    obtain ⟨c, hc, rfl⟩ := List.mem_map.1 hr
    exact ⟨c.ground, List.mem_map_of_mem (h.sound c hc), rfl, by simp, by simp⟩
  · intro r hr
    obtain ⟨c, hc, rfl⟩ := List.mem_map.1 hr
    obtain ⟨d, hd, e⟩ := h.covers c hc
    refine ⟨d.ground, List.mem_map_of_mem hd, Clause.ground_repeats (Setoid.symm e) ?_⟩
    intro l hl k hk
    exact clean.eq_of_equiv (mem_mentioned_iff_allClauses.2 ⟨c, hc, hl⟩)
      (mem_mentioned_iff_allClauses.2 ⟨d, h.sound d hd, hk⟩)

/-- **Condensing clean programs changes no answer set.** -/
theorem isAnswerSet_iff (h : Condenses ms ps) (clean : Clean mark ps) {held : Set Literal} :
    IsAnswerSet (allClauses ms) held ↔ IsAnswerSet (allClauses ps) held := by
  refine isAnswerSet_congr_of_firing
    (fun c hc holds => ⟨c, h.sound c hc, rfl, .refl _, holds⟩) fun c hc holds => ?_
  obtain ⟨d, hd, e⟩ := h.covers c hc
  have same : ∀ l ∈ d.literals, ∀ m ∈ c.literals, l ≈ m → l = m := fun l hl m hm =>
    clean.eq_of_equiv (mem_mentioned_iff_allClauses.2 ⟨d, h.sound d hd, hl⟩)
      (mem_mentioned_iff_allClauses.2 ⟨c, hc, hm⟩)
  obtain ⟨head, body, negBody⟩ := Clause.parts_of_equiv e same
  exact ⟨d, hd, head, fun l => (body l).1, fun l hl => holds.1 l ((body l).1 hl),
    fun l hl => holds.2 l ((negBody l).1 hl)⟩

end Condenses

lemma Gathers.condenses {p m : Program} {qs : List Program} {n n' : Nat}
    (h : Gathers p n (qs.flatMap Program.rules) m n')
    (hqs : ∀ q ∈ qs, ∀ r ∈ q.rules, r.isEmpty = false) : Condenses [m] (p :: qs) := by
  have said : ∀ {c}, c ∈ allClauses [m] ↔ c ∈ m.clauses := by simp
  refine ⟨fun c hc => ?_, fun c hc => ?_⟩
  · rw [allClauses_cons, List.mem_append]
    refine (h.mem_clauses (said.1 hc)).imp id ?_
    rintro ⟨r, hr, rfl⟩
    obtain ⟨q, hq, hr⟩ := List.mem_flatMap.1 hr
    exact mem_allClauses.2 ⟨q, hq, r, hr, rfl⟩
  · rw [allClauses_cons, List.mem_append] at hc
    rcases hc with hc | hc
    · exact ⟨c, said.2 (h.clauses_prefix.subset hc), Setoid.refl c⟩
    · obtain ⟨q, hq, r, hr, rfl⟩ := mem_allClauses.1 hc
      obtain ⟨d, hd, e⟩ := h.covers (List.mem_flatMap.2 ⟨q, hq, hr⟩) (hqs q hq r hr)
      exact ⟨d, said.2 hd, e⟩

/-- **Merging condenses**, and it does not fail.  If identifiers have been taken from the supply,
the merged program is numbered. -/
theorem merge_condenses (p : Program) (qs : List Program) (name : Option String) (g : Ledger)
    (nonempty : ∀ q ∈ qs, ∀ r ∈ q.rules, r.isEmpty = false) :
    ∃ m g', (Program.merge (p :: qs) name).run g = (.ok m, g') ∧ Condenses [m] (p :: qs) ∧
      ((∀ q ∈ p :: qs, Numbered g.nextId q) → g.nextId ≤ g'.nextId ∧ Numbered g'.nextId m) := by
  obtain ⟨m, g', run, gathers⟩ := merge_gathers p qs name g nonempty
  have condenses : Condenses [m] (p.renamed (name.getD p.name) :: qs) := gathers.condenses nonempty
  refine ⟨m, g', run, ⟨condenses.sound, condenses.covers⟩, fun numbered => ⟨gathers.le, ?_⟩⟩
  have first := numbered p List.mem_cons_self
  refine gathers.numbered ⟨first.distinct, first.taken⟩ fun r hr => ?_
  obtain ⟨q, hq, hr⟩ := List.mem_flatMap.1 hr
  exact (numbered q (List.mem_cons_of_mem _ hq)).taken r.id (List.mem_map_of_mem hr)

/-! ## Two programs -/

section

variable {mark : Mark} {older newer : Program} {held : Set Literal}

/-- Complementary heads do not hold together. -/
lemma IsAnswerSet.not_overruled (clean : Clean mark [older, newer])
    (h : IsAnswerSet (allClauses [older, newer]) held) {a : Rule} (ha : a ∈ older.rules) :
    ¬ Overruled newer held a := by
  rintro ⟨b, hb, opposed, holds, holds'⟩
  obtain ⟨k, k', hk, hk', complementary⟩ := opposed.heads
  have hm := h.mem_iff.2 ⟨a.toClause, mem_allClauses.2 ⟨older, by simp, a, ha, rfl⟩, hk, holds⟩
  have hm' := h.mem_iff.2 ⟨b.toClause, mem_allClauses.2 ⟨newer, by simp, b, hb, rfl⟩, hk', holds'⟩
  rw [clean.eq_complement (mentioned_head (by simp) ha hk) (mentioned_head (by simp) hb hk')
    complementary] at hm'
  exact h.consistent k hm hm'

/-- **The answer sets of two programs taken together are those of their survivors in which nothing
is overruled.** -/
theorem isAnswerSet_allClauses_iff (clean : Clean mark [older, newer]) :
    IsAnswerSet (allClauses [older, newer]) held ↔
      IsAnswerSet (survivors older newer held).clauses held ∧
        ∀ a ∈ older.rules, ¬ Overruled newer held a := by
  -- if nothing is overruled, everything survives
  have all : (∀ a ∈ older.rules, ¬ Overruled newer held a) → ∀ c,
      c ∈ allClauses [older, newer] ↔ c ∈ (survivors older newer held).clauses := by
    intro survive c
    rw [mem_survivors]
    simp only [allClauses_cons, allClauses_nil, List.append_nil, List.mem_append, Program.clauses,
      List.mem_map]
    refine or_congr_left (exists_congr fun a => and_congr_right fun ha => ?_)
    rw [and_iff_right (survive a ha)]
  constructor
  · intro h
    have survive := fun a (ha : a ∈ older.rules) => h.not_overruled clean ha
    exact ⟨(isAnswerSet_congr (all survive)).1 h, survive⟩
  · rintro ⟨h, survive⟩
    exact (isAnswerSet_congr (all survive)).2 h

end

end CausalUpdate
