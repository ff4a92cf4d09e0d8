import CausalUpdate.Proofs.Conflict.Naming
import CausalUpdate.Proofs.Detection.Running
import CausalUpdate.Proofs.Solver.Exact
import CausalUpdate.Proofs.UpdateProgram.Merging

/-!
# Comparing two programs

What the comparison of two programs finds, and what it says about merging them.  An answer set that
is found is an answer set of both programs taken together, unless it is a witness of a conflict; and
these are all there are.

* `detectPair_outcome` — the ways in which a comparison ends.
* `Compared` — what is found if the solver is exact.
* `Compared.isStable_iff` — what this says about both programs taken together.
-/

namespace CausalUpdate

/-! ## Outcomes -/

/-- How a comparison ends, once the solver has replied. -/
inductive PairOutcome (mark : Mark) (older newer : Program) (reply : Except SolverError Solved) :
    Detection → Prop
  | refused {e : SolverError} (replied : reply = .error e) :
      PairOutcome mark older newer reply (.failed (.solver e))
  | inconsistent {solved : Solved} (replied : reply = .ok solved)
      (unsatisfiable : solved.satisfiable = false) :
      PairOutcome mark older newer reply (.completed { consistent := false })
  | unreadable {solved : Solved} {g : Ledger} (replied : reply = .ok solved)
      (lost : (AnswerSet.parseAll solved.models g).1.length ≠ solved.models.length) :
      PairOutcome mark older newer reply (.failed .unreadableModels)
  | found {solved : Solved} {g g' : Ledger} {conflicts : List Conflict}
      (replied : reply = .ok solved) (satisfiable : solved.satisfiable = true)
      (extracted : (extractConflicts older newer (AnswerSet.parseAll solved.models g).1 mark).run
        (AnswerSet.parseAll solved.models g).2 = (.ok conflicts, g')) :
      PairOutcome mark older newer reply (.completed
        { conflicts, answerSets := visibleSets older newer (AnswerSet.parseAll solved.models g).1 })

section

variable {mark : Mark} {older newer : Program} {s t : Solver} {g g' : Ledger} {d : Detection}

lemma findingsOf_outcome {solved : Solved} {models : List String} (e : models = solved.models)
    {reply : Except SolverError Solved} (replied : reply = .ok solved)
    (satisfiable : solved.satisfiable = true)
    (run : (findingsOf mark older newer models).run s g = ((.ok d, t), g')) :
    PairOutcome mark older newer reply d := by
  subst e
  rw [findingsOf, Updating.run_work_bind] at run
  split at run
  · rename_i lost
    cases run
    exact .unreadable replied lost
  · obtain ⟨conflicts, s₁, g₁, attempted, rest⟩ := Updating.bind_ok run
    obtain ⟨extracted, rfl⟩ := Updating.attempt_ok attempted
    cases rest
    exact .found replied satisfiable extracted

/-- **The ways in which a comparison ends.** -/
theorem detectPair_outcome (run : (detectPair mark older newer).run s g = ((.ok d, t), g')) :
    PairOutcome mark older newer (s.reply s.asked (buildUpdateProgram older newer mark g).1) d := by
  rw [detectPair, Updating.run_work_bind] at run
  obtain ⟨reply, s₁, g₁, asked, rest⟩ := Updating.bind_ok run
  obtain ⟨g₂, answered, -⟩ := Updating.run_ask (buildUpdateProgram older newer mark g).1 s
    (buildUpdateProgram older newer mark g).2
  rw [answered] at asked
  obtain rfl : s.reply s.asked (buildUpdateProgram older newer mark g).1 = reply := by
    cases asked
    rfl
  split at rest
  · rename_i e replied
    cases rest
    exact .refused replied
  · rename_i solved replied
    split at rest
    · rename_i satisfiable
      exact findingsOf_outcome rfl replied satisfiable rest
    · rename_i unsatisfiable
      cases rest
      exact .inconsistent replied (Bool.eq_false_iff.2 unsatisfiable)

/-- Comparing programs says nothing about solutions. -/
lemma PairOutcome.status_ne {reply : Except SolverError Solved}
    (h : PairOutcome mark older newer reply d) : d.status ≠ "invalid_solution" := by
  cases h <;> simp [Detection.status, DetectionFailure.status]

/-! ## What an exact solver lets one find -/

/-- What is found, where `sets` are the answer sets of the update program. -/
structure Compared (mark : Mark) (older newer : Program) (sets : List AnswerSet)
    (f : Findings) : Prop where
  readSets : ReadSets mark older newer sets
  read : ∀ s ∈ sets, ∀ l ∈ s.literals, ∃ o, l.causePair mark = .ok o
  recorded : Recorded older newer (namedPairs mark (sets.flatMap
    (sightings (Program.literalBase [older, newer])))) f.conflicts
  visible : f.answerSets = sets.map fun s => s.restrictedTo (Program.literalBase [older, newer])
  consistent : f.consistent = true ↔ sets ≠ []

lemma AnswerSet.distinctSets_eq {ss : List AnswerSet} (h : ss.Pairwise fun s t => ¬ s ≈ t) :
    AnswerSet.distinctSets ss = ss := by
  induction ss with
  | nil => rfl
  | cons s ss ih =>
      obtain ⟨different, rest⟩ := List.pairwise_cons.1 h
      rw [distinctSets, ih rest, List.filter_eq_self.2]
      exact fun t ht => decide_eq_true (different t ht)

lemma ReadSets.visibleSets_eq {sets : List AnswerSet} (h : ReadSets mark older newer sets) :
    visibleSets older newer sets =
      sets.map fun s => s.restrictedTo (Program.literalBase [older, newer]) := by
  rw [visibleSets, AnswerSet.distinctSets_eq]
  exact List.pairwise_map.2 h.different

/-- Only the update program of programs without rules has none itself. -/
lemma rules_eq_nil_of_buildUpdateProgram (wf : WellFormed mark [older, newer])
    (h : (buildUpdateProgram older newer mark g).1.rules = []) :
    older.rules = [] ∧ newer.rules = [] := by
  have nothing : ∀ {c}, ¬ UpdateClause mark older newer c := by
    intro c hc
    obtain ⟨d, hd, -⟩ := (clauses_buildUpdateProgram mark older newer g).2 c hc (hc.not_isEmpty wf)
    rw [Program.clauses, h] at hd
    exact absurd hd List.not_mem_nil
  constructor
  · refine List.eq_nil_iff_forall_not_mem.2 fun a ha => ?_
    cases head : a.head with
    | none => exact nothing (.constraint (show older ∈ [older, newer] by simp) ha head)
    | some k => exact nothing (.older ha head)
  · refine List.eq_nil_iff_forall_not_mem.2 fun b hb => ?_
    cases head : b.head with
    | none => exact nothing (.constraint (show newer ∈ [older, newer] by simp) hb head)
    | some k => exact nothing (.newer hb head)

/-- The programs have no rules, and the solver has refused to be asked about that. -/
def Refused (s : Solver) (ps : List Program) (d : Detection) : Prop :=
  (∀ p ∈ ps, p.rules = []) ∧ ∃ p e, s.reply s.asked p = .error e ∧ d = .failed (.solver e)

/-- **With an exact solver a comparison finds all there is**, unless there are no rules that the
solver could be asked about. -/
theorem detectPair_compared (clean : Clean mark [older, newer]) (positive : Positive [older, newer])
    (exact : s.Exact) (run : (detectPair mark older newer).run s g = ((.ok d, t), g')) :
    (∃ sets f, Compared mark older newer sets f ∧ d = .completed f) ∨
      Refused s [older, newer] d := by
  have wf := clean.toWellFormed
  have readable := readableProgram_buildUpdateProgram wf positive g
  cases detectPair_outcome run with
  | @refused e replied =>
      refine Or.inr ?_
      have empty : (buildUpdateProgram older newer mark g).1.rules = [] := by
        by_contra rules
        obtain ⟨solved, answered⟩ := exact.answers s.asked _ readable rules
        rw [answered] at replied
        cases replied
      obtain ⟨ho, hn⟩ := rules_eq_nil_of_buildUpdateProgram wf empty
      exact ⟨by simp [ho, hn], _, e, replied, rfl⟩
  | @inconsistent solved replied unsatisfiable =>
      obtain ⟨satisfiable, rendered⟩ := exact.models s.asked _ solved readable replied
      have none : solved.models = [] := by
        by_contra h
        rw [satisfiable.2 h] at unsatisfiable
        cases unsatisfiable
      rw [none] at rendered
      have sets : ReadSets mark older newer [] := (readSets_parseAll clean positive rendered g).1
      have recorded := recorded_nil older newer
      refine Or.inl ⟨[], { consistent := false }, ⟨sets, ?_, recorded, rfl, ?_⟩, rfl⟩
      · exact fun s hs => absurd hs List.not_mem_nil
      · exact ⟨fun h => absurd h (by simp), fun h => absurd rfl h⟩
  | @unreadable solved g₁ replied lost =>
      obtain ⟨-, rendered⟩ := exact.models s.asked _ solved readable replied
      exact absurd (readSets_parseAll clean positive rendered g₁).2 lost
  | @found solved g₁ g₂ conflicts replied satisfiable extracted =>
      obtain ⟨satisfied, rendered⟩ := exact.models s.asked _ solved readable replied
      obtain ⟨sets, length⟩ := readSets_parseAll clean positive rendered g₁
      obtain ⟨recorded, read⟩ := extractConflicts_recorded extracted
      refine Or.inl ⟨_, _, ⟨sets, read, recorded, sets.visibleSets_eq, ?_⟩, rfl⟩
      refine ⟨fun _ none => satisfied.1 satisfiable ?_, fun _ => rfl⟩
      rw [none] at length
      exact List.length_eq_zero_iff.1 length.symm

lemma findingsOf_total {models : List String}
    (extracted : ∀ g, ∃ conflicts g', (extractConflicts older newer
      (AnswerSet.parseAll models g).1 mark).run (AnswerSet.parseAll models g).2 =
        (.ok conflicts, g'))
    (s : Solver) (g : Ledger) :
    ∃ d t g', (findingsOf mark older newer models).run s g = ((.ok d, t), g') := by
  rw [findingsOf, Updating.run_work_bind]
  split
  · exact ⟨_, _, _, rfl⟩
  · obtain ⟨conflicts, g', extracted⟩ := extracted g
    rw [Updating.run_bind, Updating.run_attempt, extracted]
    exact ⟨_, _, _, rfl⟩

/-- **A comparison is not broken off**, if identifiers can be read. -/
theorem detectPair_total (clean : Clean mark [older, newer]) (named : Named [older, newer])
    (exact : s.Exact) (g : Ledger) :
    ∃ d t g', (detectPair mark older newer).run s g = ((.ok d, t), g') := by
  have positive := named.positive
  have readable := readableProgram_buildUpdateProgram clean.toWellFormed positive g
  obtain ⟨g₁, asked, -⟩ := Updating.run_ask (buildUpdateProgram older newer mark g).1 s
    (buildUpdateProgram older newer mark g).2
  rw [detectPair, Updating.run_work_bind, Updating.run_bind, asked]
  cases replied : s.reply s.asked (buildUpdateProgram older newer mark g).1 with
  | error e => exact ⟨_, _, _, rfl⟩
  | ok solved =>
      obtain ⟨-, rendered⟩ := exact.models s.asked _ solved readable replied
      cases satisfiable : solved.satisfiable with
      | false =>
          simp only [satisfiable]
          exact ⟨_, _, _, rfl⟩
      | true =>
          simp only [satisfiable, if_true]
          refine findingsOf_total (fun g₂ => ?_) _ g₁
          obtain ⟨sets, -⟩ := readSets_parseAll clean positive rendered g₂
          exact extractConflicts_total mark older newer (sets.causePair clean.toWellFormed named) _

/-! ## Witnesses and merging -/

/-- The answer set is a witness of one of the conflicts. -/
def Witnessed (conflicts : List Conflict) (s : AnswerSet) : Prop :=
  ∃ c ∈ conflicts, ∃ w ∈ c.answerSets, w ≈ s

namespace Compared

variable {sets : List AnswerSet} {f : Findings} {held : Set Literal} {s : AnswerSet}

/-- An answer set is a witness of a conflict exactly if some rule is overruled in it. -/
lemma witnessed_iff (clean : Clean mark [older, newer]) (positive : Positive [older, newer])
    (h : Compared mark older newer sets f) (hs : s ∈ sets)
    (answer : IsAnswerSet (updateClauses mark older newer) held) (represents : Represents s held) :
    Witnessed f.conflicts (s.restrictedTo (Program.literalBase [older, newer])) ↔
      ∃ a ∈ older.rules, Overruled newer held a := by
  have wf := clean.toWellFormed
  constructor
  · rintro ⟨c, hc, w, hw, e⟩
    rw [h.recorded.witnesses c hc] at hw
    obtain ⟨x, hx, rfl⟩ := List.mem_map.1 hw
    obtain ⟨seen, named⟩ := List.mem_filter.1 hx
    obtain ⟨y, hy, hp⟩ := List.mem_filterMap.1 seen
    obtain ⟨s', hs', hl, seen_of⟩ := mem_sightings.1 hy
    obtain ⟨pair, hpair, rfl⟩ := Option.map_eq_some_iff.1 hp
    rw [seen_of] at e
    obtain ⟨held', answer', represents'⟩ := h.readSets.read s' hs'
    obtain rfl := represents'.eq_of_restrictedTo_equiv clean answer' answer represents e
    obtain ⟨a, ha, b, hb, e, -⟩ :=
      (h.readSets.updateLiteral hs' hl).rules_of_namedPair? wf positive hpair
    have hm := represents'.sound _ hl
    rw [e] at hm
    exact ⟨a, ha, b, hb, (answer.rejectedBy_mem_iff wf ha hb).1 hm⟩
  · rintro ⟨a, ha, b, hb, both⟩
    -- the cause may have been read in another guise, but it has been read
    obtain ⟨l, hl, a', ha', b', hb', rfl⟩ : ∃ l ∈ s.literals,
        ∃ a' ∈ older.rules, ∃ b' ∈ newer.rules, l = a'.rejectedBy mark b' := by
      obtain ⟨l, hl, e⟩ := represents.complete _ ((answer.rejectedBy_mem_iff wf ha hb).2 both)
      have hx := answer.updateLiteral (represents.sound l hl)
      rcases (UpdateLiteral.rejectedBy ha hb).eq_of_equiv clean hx e with rfl | ⟨-, cause⟩
      · exact ⟨_, hl, a, ha, b, hb, rfl⟩
      · exact ⟨l, hl, answer.exists_rules_of_isCause wf (represents.sound l hl) cause⟩
    obtain ⟨o, read⟩ := h.read s hs _ hl
    obtain ⟨na, nb⟩ := Rule.named_of_causePair (positive.rule (by simp) ha')
      (positive.rule (by simp) hb') read
    let w := s.restrictedTo (Program.literalBase [older, newer])
    have seen : ((a'.id, b'.id), w) ∈ namedPairs mark (sets.flatMap
        (sightings (Program.literalBase [older, newer]))) := by
      refine List.mem_filterMap.2 ⟨(a'.rejectedBy mark b', w), mem_sightings.2 ⟨s, hs, hl, rfl⟩, ?_⟩
      rw [Rule.namedPair?_rejectedBy na nb]
      rfl
    obtain ⟨c, hc, pair⟩ := h.recorded.covered _ seen (Program.isSome_find? ha')
      (Program.isSome_find? hb')
    refine ⟨c, hc, w, ?_, Setoid.refl w⟩
    rw [h.recorded.witnesses c hc, pair]
    exact List.mem_map_of_mem (f := Prod.snd) (List.mem_filter.2 ⟨seen, by simp⟩)

end Compared

/-- Over texts, what is seen of a set that is read. -/
lemma Represents.texts_restrictedTo {held : Set Literal} {s : AnswerSet}
    (clean : Clean mark [older, newer]) (answer : IsAnswerSet (updateClauses mark older newer) held)
    (h : Represents s held) :
    {t | t ∈ (s.restrictedTo (Program.literalBase [older, newer])).texts} =
      Literal.text '' seenIn [older, newer] held := by
  ext t
  simp only [Set.mem_ofPred_eq, AnswerSet.texts, List.mem_map, mem_sorted, Set.mem_image,
    h.mem_restrictedTo_iff clean answer]

/-- **The answer sets of both programs taken together are those that are found and that are no
witness of a conflict.** -/
theorem Compared.isStable_iff {sets : List AnswerSet} {f : Findings}
    (clean : Clean mark [older, newer]) (positive : Positive [older, newer])
    (h : Compared mark older newer sets f) {texts : Set String} :
    IsStable ((allClauses [older, newer]).map Clause.ground) (· ∈ texts) ↔
      ∃ w ∈ f.answerSets, ¬ Witnessed f.conflicts w ∧ texts = {t | t ∈ w.texts} := by
  have legible : AllLegible (allClauses [older, newer]) := fun c hc l hl =>
    (clean.readable l (mem_mentioned_iff_allClauses.2 ⟨c, hc, hl⟩)).legible
  rw [isStable_ground_iff legible, h.visible]
  constructor
  · rintro ⟨seen, answer, rfl⟩
    obtain ⟨survivors, nothing⟩ := (isAnswerSet_allClauses_iff clean).1 answer
    have expanded := survivors.expand clean
    obtain ⟨s, hs, represents⟩ := h.readSets.complete _ expanded
    refine ⟨_, List.mem_map_of_mem hs, ?_, ?_⟩
    · rw [h.witnessed_iff clean positive hs expanded represents]
      rintro ⟨a, ha, overruled⟩
      refine nothing a ha ((overruled_congr ha fun l hl => ?_).1 overruled)
      exact Expansion.plain_iff clean survivors.fits hl
    · rw [represents.texts_restrictedTo clean expanded, seenIn_expansion clean survivors.fits]
  · rintro ⟨w, hw, unwitnessed, rfl⟩
    obtain ⟨s, hs, rfl⟩ := List.mem_map.1 hw
    obtain ⟨held, answer, represents⟩ := h.readSets.read s hs
    rw [h.witnessed_iff clean positive hs answer represents] at unwitnessed
    refine ⟨seenIn [older, newer] held, ?_, represents.texts_restrictedTo clean answer⟩
    refine (isAnswerSet_allClauses_iff clean).2 ⟨answer.seen clean, fun a ha overruled => ?_⟩
    refine unwitnessed ⟨a, ha, (overruled_congr ha fun l hl => ?_).2 overruled⟩
    exact mem_seenIn_iff hl

end

end CausalUpdate
