import CausalUpdate.Proofs.Detection.Folding
import CausalUpdate.Proofs.Detection.Pair

/-!
# Detecting in a sequence

A detection that finds nothing wrong has merged all programs but the last, step by step, and has
compared the result with the last one.  The programs it has compared in the end condense those it
started from, so that what it has found holds of them as well.

* `detectFrom_compared` — the last comparison of a detection that finds nothing wrong.
* `detectSequence_clean`, `detectSequence_pair` — what a detection says about merging.
-/

namespace CausalUpdate

variable {mark : Mark} {ps : List Program} {s t : Solver} {g g' : Ledger} {d : Detection}

/-- A detection never fails for the sake of a solution. -/
lemma detectSequence_status_ne (run : (detectSequence mark ps).run s g = ((.ok d, t), g')) :
    d.status ≠ "invalid_solution" := by
  rcases ps with _ | ⟨p, _ | ⟨newer, qs⟩⟩
  · cases run
    simp [Detection.status, DetectionFailure.status]
  · cases run
    simp [Detection.status, DetectionFailure.status]
  · obtain ⟨_, _, _, _, _, _, _, _, -, -, -, last⟩ :=
      detectSequence_stepwise (List.cons_ne_nil newer qs) run
    exact (detectPair_outcome last).status_ne

lemma positive_of_numbered (h : ∀ p ∈ ps, Numbered g.nextId p) : Positive ps :=
  fun p hp id hid => ((h p hp).taken id hid).1

/-- The first of the programs merged with the second one. -/
lemma merged_condenses {older newer m : Program} {rest : List Program} {name : Option String}
    (clean : Clean mark (older :: newer :: rest))
    (numbered : ∀ p ∈ older :: newer :: rest, Numbered g.nextId p)
    (run : (Program.merge [older, newer] name).run g = (.ok m, g')) :
    Condenses (m :: rest) (older :: newer :: rest) ∧ Clean mark (m :: rest) ∧
      ∀ p ∈ m :: rest, Numbered g'.nextId p := by
  obtain ⟨m', g₁, run', condenses, after⟩ := merge_condenses older [newer] name g
    fun q hq => clean.nonempty q (by simp_all)
  rw [run] at run'
  cases run'
  obtain ⟨grows, first⟩ := after fun q hq => numbered q (List.mem_append_left rest hq)
  have all : ∀ p ∈ m :: rest, Numbered g'.nextId p := by
    intro p hp
    rcases List.mem_cons.1 hp with rfl | hp
    · exact first
    · exact (numbered p (by simp [hp])).mono grows
  have condenses := condenses.append rest
  exact ⟨condenses, condenses.clean clean fun p hp => (all p hp).distinct, all⟩

/-- **The last comparison of a detection that finds nothing wrong.** -/
theorem detectFrom_compared {last position : Nat} {older : Program} {rest : List Program}
    (exact : s.Exact) (clean : Clean mark (older :: rest))
    (numbered : ∀ p ∈ older :: rest, Numbered g.nextId p) (several : rest ≠ [])
    (run : (detectFrom mark last position older rest).run s g = ((.ok d, t), g'))
    (isClean : d.isClean = true) : ∃ m newest sets f, Condenses [m, newest] (older :: rest) ∧
      Clean mark [m, newest] ∧ Positive [m, newest] ∧ Compared mark m newest sets f ∧
        d = .completed f := by
  induction rest generalizing position older s g with
  | nil => exact absurd rfl several
  | cons newer rest ih =>
      cases rest with
      | nil =>
          have positive := positive_of_numbered numbered
          rcases detectPair_compared clean positive exact run with
            ⟨sets, f, compared, rfl⟩ | ⟨-, -, e, -, rfl⟩
          · exact ⟨older, newer, sets, f, .refl _, clean, positive, compared, rfl⟩
          · simp [Detection.isClean, Detection.ok] at isClean
      | cons next rest =>
          obtain ⟨d₁, s₁, g₁, first, rest_run⟩ := Updating.bind_ok run
          obtain ⟨reply, grows⟩ := (detectPair_steady mark older newer).of_run first
          split at rest_run
          · obtain ⟨m, s₂, g₂, attempted, last_run⟩ := Updating.bind_ok rest_run
            obtain ⟨merged, rfl⟩ := Updating.attempt_ok attempted
            obtain ⟨condenses, clean, numbered⟩ := merged_condenses clean
              (fun p hp => (numbered p hp).mono grows) merged
            obtain ⟨m', newest, sets, f, condenses', found⟩ :=
              ih (exact.of_reply reply) clean numbered (by simp) last_run
            exact ⟨m', newest, sets, f, condenses'.trans condenses, found⟩
          · rename_i unclean
            cases rest_run
            exact absurd isClean unclean

/-! ## What a detection says about merging -/

/-- Programs can be merged, under any name, and then have these answer sets. -/
def MergesTo (ps : List Program) (found : AnswerSet → Prop) : Prop :=
  ∀ name g, ∃ m g', (Program.merge ps name).run g = (.ok m, g') ∧ ∀ texts : Set String,
    IsStable m.ground (· ∈ texts) ↔ ∃ w, found w ∧ texts = {t | t ∈ w.texts}

/-- Merged programs have the answer sets that they have when they are taken together. -/
lemma mergesTo_of_isStable_iff (clean : Clean mark ps) (nonempty : ps ≠ [])
    {found : AnswerSet → Prop}
    (h : ∀ texts : Set String, IsStable ((allClauses ps).map Clause.ground) (· ∈ texts) ↔
      ∃ w, found w ∧ texts = {t | t ∈ w.texts}) : MergesTo ps found := by
  intro name g
  cases ps with
  | nil => exact absurd rfl nonempty
  | cons p qs =>
      obtain ⟨m, g', run, condenses, -⟩ := merge_condenses p qs name g
        fun q hq => clean.nonempty q (List.mem_cons_of_mem _ hq)
      refine ⟨m, g', run, fun texts => ?_⟩
      have same : IsStable ((allClauses [m]).map Clause.ground) (· ∈ texts) ↔ _ :=
        condenses.isStable_iff clean
      rw [allClauses_cons, allClauses_nil, List.append_nil] at same
      rw [Program.ground_eq, same]
      exact h texts

/-- What a detection that finds nothing wrong says about merging the programs. -/
theorem detectSequence_clean (exact : s.Exact) (clean : Clean mark ps)
    (numbered : ∀ p ∈ ps, Numbered g.nextId p) (several : 2 ≤ ps.length)
    (run : (detectSequence mark ps).run s g = ((.ok d, t), g')) (isClean : d.isClean = true) :
    d.findings.answerSets ≠ [] ∧ MergesTo ps (· ∈ d.findings.answerSets) := by
  rcases ps with _ | ⟨oldest, rest⟩
  · simp at several
  obtain ⟨m, newest, sets, f, condenses, clean', positive, compared, rfl⟩ :=
    detectFrom_compared exact clean numbered (by rintro rfl; simp at several) run isClean
  obtain ⟨⟨-, none⟩, consistent⟩ : (true = true ∧ f.conflicts = []) ∧ f.consistent = true := by
    simpa [Detection.isClean, Detection.ok, Detection.hasConflicts, Detection.findings]
      using isClean
  refine ⟨?_, mergesTo_of_isStable_iff clean (by simp) fun texts => ?_⟩
  · have some := compared.consistent.1 consistent
    rw [Detection.findings, compared.visible]
    simpa using some
  · rw [← condenses.isStable_iff clean, compared.isStable_iff clean' positive]
    refine exists_congr fun w => and_congr_right fun _ => and_iff_right ?_
    rw [none]
    exact fun h => by simp [Witnessed] at h

/-- What a detection says about merging two programs. -/
theorem detectSequence_pair {older newer : Program} (exact : s.Exact)
    (clean : Clean mark [older, newer])
    (numbered : ∀ p ∈ [older, newer], Numbered g.nextId p)
    (run : (detectSequence mark [older, newer]).run s g = ((.ok d, t), g')) :
    (∃ f, d = .completed f ∧ (f.consistent = false → f.answerSets = []) ∧
      MergesTo [older, newer] fun w => w ∈ f.answerSets ∧ ¬ Witnessed f.conflicts w) ∨
        Refused s [older, newer] d := by
  have positive := positive_of_numbered numbered
  refine (detectPair_compared clean positive exact run).imp ?_ id
  rintro ⟨sets, f, compared, rfl⟩
  refine ⟨f, rfl, fun inconsistent => ?_, mergesTo_of_isStable_iff clean (by simp) fun texts => ?_⟩
  · have none : sets = [] := by
      by_contra h
      rw [compared.consistent.2 h] at inconsistent
      cases inconsistent
    rw [compared.visible, none, List.map_nil]
  · rw [compared.isStable_iff clean positive]
    exact exists_congr fun w => (and_assoc).symm

end CausalUpdate
