import CausalUpdate.Proofs.Conflict.Exactness
import CausalUpdate.Proofs.Detection.Sequence
import CausalUpdate.Proofs.Detection.Surviving
import CausalUpdate.Proofs.UpdateProgram.Listing
import CausalUpdate.Proofs.UpdateSequence.Accepting

/-!
# Detecting and merging

What a detection reports agrees with what the merged sequence means.  If nothing is wrong, its
answer sets are those of the merged programs.  For two programs, the answer sets of the merged
program are in any case those that are reported and are no witness of a conflict; where there is
none, the programs contradict each other for good.
-/

namespace CausalUpdate

/-- Solutions that are offered change nothing about what is found. -/
lemma Surviving.offered {older newer : Program} {ps : List Program} {ss : List Strategy}
    {low high : Nat} {x : Findings} {cs : List Conflict} (h : Surviving older newer x)
    (back : ∀ c' ∈ cs, ∃ c ∈ x.conflicts, Offers ps ss low high c c')
    (there : ∀ c ∈ x.conflicts, ∃ c' ∈ cs, Offers ps ss low high c c') :
    Surviving older newer { x with conflicts := cs } := by
  refine ⟨h.answerSets, fun a b => ?_, fun c' hc' => ?_, h.consistent⟩
  · rw [← h.reported]
    constructor
    · rintro ⟨c', hc', rfl, rfl⟩
      obtain ⟨c, hc, offers⟩ := back c' hc'
      exact ⟨c, hc, offers.older.symm, offers.newer.symm⟩
    · rintro ⟨c, hc, rfl, rfl⟩
      obtain ⟨c', hc', offers⟩ := there c hc
      exact ⟨c', hc', offers.older, offers.newer⟩
  · obtain ⟨c, hc, offers⟩ := back c' hc'
    rw [offers.older, offers.newer, offers.answerSets]
    exact h.witnesses c hc

namespace UpdateSequence

variable {u u' : UpdateSequence} {s t : Solver} {g g' : Ledger} {d : Detection}

/-- Solutions that are offered do not change what a conflict is witnessed by. -/
lemma witnessed_iff_of_offers {ps : List Program} {ss : List Strategy} {low high : Nat}
    {cs cs' : List Conflict} (back : ∀ c' ∈ cs', ∃ c ∈ cs, Offers ps ss low high c c')
    (there : ∀ c ∈ cs, ∃ c' ∈ cs', Offers ps ss low high c c') {w : AnswerSet} :
    Witnessed cs' w ↔ Witnessed cs w := by
  constructor
  · rintro ⟨c', hc', v, hv, e⟩
    obtain ⟨c, hc, offers⟩ := back c' hc'
    exact ⟨c, hc, v, offers.answerSets ▸ hv, e⟩
  · rintro ⟨c, hc, v, hv, e⟩
    obtain ⟨c', hc', offers⟩ := there c hc
    exact ⟨c', hc', v, offers.answerSets ▸ hv, e⟩

lemma isClean_of_offers {ps : List Program} {ss : List Strategy} {low high : Nat} {f : Findings}
    {cs : List Conflict} (there : ∀ c ∈ f.conflicts, ∃ c' ∈ cs, Offers ps ss low high c c')
    (isClean : (Detection.completed { f with conflicts := cs }).isClean = true) :
    (Detection.completed f).isClean = true := by
  simp only [Detection.isClean, Detection.ok, Detection.hasConflicts, Detection.findings,
    Bool.true_and, Bool.not_not, Bool.and_eq_true, List.isEmpty_iff] at isClean ⊢
  refine ⟨List.eq_nil_iff_forall_not_mem.2 fun c hc => ?_, isClean.2⟩
  obtain ⟨c', hc', -⟩ := there c hc
  rw [isClean.1] at hc'
  exact List.not_mem_nil hc'

/-- If solutions can be offered for what is found in two programs, a detection is not broken off. -/
lemma Detected.exists_ok {older newer : Program} {high : Nat} {o : Except UpdateError Detection}
    (detected : Detected u s g high o u') (programs : u.programs = [older, newer])
    (exact : s.Exact) (clean : Clean u.mark [older, newer]) (named : Named [older, newer])
    (offers : ∀ (f : Findings) (t : Solver) (g₁ : Ledger), g.nextId ≤ g₁.nextId →
      (∀ c ∈ f.conflicts, c.older ∈ older.rules ∧ c.newer ∈ newer.rules ∧ c.solutions = []) →
      ∃ cs t' g₂, ((u.withFindings f).offerAll f.conflicts).run t g₁ = ((.ok cs, t'), g₂)) :
    ∃ d, o = .ok d := by
  cases detected with
  | undetected detected =>
      obtain ⟨d, t, g₁, total⟩ := detectPair_total clean named exact g
      rw [programs] at detected
      rw [show (detectPair u.mark older newer).run s g = _ from detected] at total
      cases total
  | @unoffered f _ t₁ _ g₁ _ detected offered =>
      rw [programs] at detected
      have grows := ((detectSequence_steady _ _).of_run detected).2
      obtain ⟨cs, t₂, g₂, total⟩ := offers f t₁ g₁ grows fun c hc => detectPair_found detected hc
      rw [offered] at total
      cases total
  | failed _ => exact ⟨_, rfl⟩
  | completed _ _ _ => exact ⟨_, rfl⟩

/-- Where no strategy is applied, two programs are always reported on. -/
lemma detect_total {older newer : Program} (programs : u.programs = [older, newer])
    (none : u.strategies = []) (exact : s.Exact) (clean : Clean u.mark [older, newer])
    (named : Named [older, newer]) (g : Ledger) :
    ∃ d u' t g', u.detect.run s g = (((.ok d, u'), t), g') := by
  rcases run : u.detect.run s g with ⟨⟨⟨o, u'⟩, t⟩, g'⟩
  obtain ⟨_, -, detected⟩ := detect_outcome run
  obtain ⟨d, rfl⟩ := detected.exists_ok programs exact clean named fun f t g₁ _ found =>
    offerAll_total_of_none (u := u.withFindings f) none (fun c hc => (found c hc).2.2) t g₁
  exact ⟨d, u', t, g', rfl⟩

/-- Where solutions are not scored, a detection on two orderly programs is not broken off. -/
lemma Detected.exists_ok_of_unscored {older newer : Program} {high : Nat}
    {o : Except UpdateError Detection} (detected : Detected u s g high o u')
    (programs : u.programs = [older, newer]) (unscored : u.settings.scoreSolutions = false)
    (exact : s.Exact) (clean : Clean u.mark [older, newer]) (named : Named [older, newer])
    (orderly : Orderly g.nextId u.programs) : ∃ d, o = .ok d := by
  refine detected.exists_ok programs exact clean named fun f t g₁ grows found => ?_
  refine offerAll_total_of_unscored (u := u.withFindings f) unscored orderly (fun c hc => ?_) t
    grows
  obtain ⟨ha, hb, -⟩ := found c hc
  rw [show (u.withFindings f).programs = [older, newer] from programs]
  simp [ha, hb]

/-- What is reported of two programs, unless there are no rules that the solver could be asked
about. -/
lemma Detected.surviving_or_refused {older newer : Program} {high : Nat}
    (detected : Detected u s g high (.ok d) u') (clean : Clean u.mark [older, newer])
    (positive : Positive [older, newer]) (disjoint : ∀ id ∈ older.ids, id ∉ newer.ids)
    (programs : u.programs = [older, newer]) (exact : s.Exact) :
    (∃ x, d = .completed x ∧ Surviving older newer x) ∨ Refused s [older, newer] d := by
  cases detected with
  | failed detected =>
      rw [programs] at detected
      rcases detectPair_compared clean positive exact detected with ⟨sets, f, -, e⟩ | refused
      · cases e
      · exact Or.inr refused
  | completed detected back there =>
      rw [programs] at detected
      rcases detectPair_compared clean positive exact detected with
        ⟨sets, x, compared, e⟩ | ⟨-, -, e, -, he⟩
      · cases e
        exact Or.inl ⟨_, rfl, (compared.surviving clean positive disjoint).offered back there⟩
      · cases he

lemma detect_surviving_or_refused {older newer : Program} (clean : Clean u.mark [older, newer])
    (positive : Positive [older, newer]) (disjoint : ∀ id ∈ older.ids, id ∉ newer.ids)
    (programs : u.programs = [older, newer]) (exact : s.Exact)
    (run : u.detect.run s g = (((.ok d, u'), t), g')) :
    (∃ x, d = .completed x ∧ Surviving older newer x) ∨ Refused s [older, newer] d := by
  obtain ⟨g₀, -, detected⟩ := detect_outcome run
  exact detected.surviving_or_refused clean positive disjoint programs exact

/-- What is found in two programs, the older one of which has rules. -/
lemma Detected.surviving {older newer : Program} {high : Nat}
    (detected : Detected u s g high (.ok d) u') (clean : Clean u.mark [older, newer])
    (positive : Positive [older, newer]) (disjoint : ∀ id ∈ older.ids, id ∉ newer.ids)
    (rules : older.rules ≠ []) (programs : u.programs = [older, newer]) (exact : s.Exact) :
    ∃ x, d = .completed x ∧ Surviving older newer x := by
  rcases detected.surviving_or_refused clean positive disjoint programs exact with
    found | ⟨empty, -⟩
  · exact found
  · exact absurd (empty older (by simp)) rules

/-- What is reported of two programs, the older one of which has rules. -/
lemma detect_surviving {older newer : Program} (clean : Clean u.mark [older, newer])
    (positive : Positive [older, newer]) (disjoint : ∀ id ∈ older.ids, id ∉ newer.ids)
    (rules : older.rules ≠ []) (programs : u.programs = [older, newer]) (exact : s.Exact)
    (run : u.detect.run s g = (((.ok d, u'), t), g')) :
    ∃ x, d = .completed x ∧ Surviving older newer x := by
  obtain ⟨g₀, -, detected⟩ := detect_outcome run
  exact detected.surviving clean positive disjoint rules programs exact

/-- Two rules of clean programs contradict each other in the answer set that a list makes. -/
structure Contradiction (mark : Mark) (older newer : Program) (a b : Rule) (ls : List Literal) :
    Prop where
  clean : Clean mark [older, newer]
  named : Named [older, newer]
  lists : ListsAnswerSet (survivingClauses older newer ls) ls
  mem_older : a ∈ older.rules
  mem_newer : b ∈ newer.rules
  opposed : a.Opposed b.toClause
  older_holds : a.HoldsIn {l | l ∈ ls}
  newer_holds : b.HoldsIn {l | l ∈ ls}

lemma contradiction_def {mark : Mark} {older newer : Program} {a b : Rule} {ls : List Literal} :
    Contradiction mark older newer a b ls ↔ (Clean mark [older, newer] ∧ Named [older, newer] ∧
      ListsAnswerSet (survivingClauses older newer ls) ls) ∧
      (a ∈ older.rules ∧ b ∈ newer.rules ∧ a.Opposed b.toClause) ∧
      a.HoldsIn {l | l ∈ ls} ∧ b.HoldsIn {l | l ∈ ls} :=
  ⟨fun h => ⟨⟨h.1, h.2, h.3⟩, ⟨h.4, h.5, h.6⟩, h.7, h.8⟩,
    fun h => ⟨h.1.1, h.1.2.1, h.1.2.2, h.2.1.1, h.2.1.2.1, h.2.1.2.2, h.2.2.1, h.2.2.2⟩⟩

instance (mark : Mark) (older newer : Program) (a b : Rule) (ls : List Literal) :
    Decidable (Contradiction mark older newer a b ls) :=
  decidable_of_iff _ contradiction_def.symm

section

variable {older newer : Program} {a b v : Rule} {ls : List Literal} {high : Nat}
  {o : Except UpdateError Detection}

/-- **A contradiction is reported.** -/
theorem Detected.exists_conflict (detected : Detected u s g high (.ok d) u')
    (contradiction : Contradiction u.mark older newer a b ls)
    (disjoint : ∀ id ∈ older.ids, id ∉ newer.ids) (programs : u.programs = [older, newer])
    (exact : s.Exact) : ∃ f, d = .completed f ∧ ∃ c ∈ f.conflicts, c.older = a ∧ c.newer = b := by
  obtain ⟨clean, named, lists, ha, hb, opposed, holds, holds'⟩ := contradiction
  obtain ⟨f, rfl, surviving⟩ := detected.surviving clean named.positive disjoint
    (List.ne_nil_of_mem ha) programs exact
  exact ⟨f, rfl, (surviving.reported a b).2
    ⟨ha, hb, opposed, _, isAnswerSet_survivors lists, holds, holds'⟩⟩

/-- **A contradiction is reported, with what the strategies find for it**, where solutions are not
scored. -/
theorem Detected.offers (detected : Detected u s g high o u')
    (contradiction : Contradiction u.mark older newer a b ls)
    (programs : u.programs = [older, newer]) (unscored : u.settings.scoreSolutions = false)
    (exact : s.Exact) (orderly : Orderly g.nextId u.programs) :
    ∃ f, o = .ok (.completed f) ∧ ∃ c ∈ f.conflicts, c.older = a ∧ c.newer = b ∧
      ∀ strategy ∈ u.automatic, ∃ found g₁ g₂,
        (strategy.method.solutions u.programs c).run g₁ = (.ok found, g₂) ∧
          ∀ t ∈ found, ∃ sol ∈ c.solutions, sol.SameEdit t := by
  obtain ⟨d, rfl⟩ := detected.exists_ok_of_unscored programs unscored exact contradiction.clean
    contradiction.named orderly
  have disjoint : ∀ id ∈ older.ids, id ∉ newer.ids := by
    intro id hid hid'
    obtain ⟨q, hq, rfl⟩ := List.mem_map.1 hid
    obtain ⟨r, hr, e⟩ := List.mem_map.1 hid'
    rw [programs] at orderly
    have apart : Orderly g.nextId ([older] ++ [newer]) := orderly
    exact apart.disjoint (by simpa using hq) (by simpa using hr) e.symm
  obtain ⟨f, rfl, c, hc, older_eq, newer_eq⟩ :=
    detected.exists_conflict contradiction disjoint programs exact
  exact ⟨f, rfl, c, hc, older_eq, newer_eq, detected.found c hc⟩

lemma detect_offers (contradiction : Contradiction u.mark older newer a b ls)
    (programs : u.programs = [older, newer]) (unscored : u.settings.scoreSolutions = false)
    (exact : s.Exact) (orderly : Orderly g.nextId u.programs) :
    ∃ f u' t g', u.detect.run s g = (((.ok (.completed f), u'), t), g') ∧ u'.programs = u.programs ∧
      ∃ c ∈ f.conflicts, c.older = a ∧ c.newer = b ∧ ∀ strategy ∈ u.automatic, ∃ found g₁ g₂,
        (strategy.method.solutions u.programs c).run g₁ = (.ok found, g₂) ∧
          ∀ t ∈ found, ∃ sol ∈ c.solutions, sol.SameEdit t := by
  rcases run : u.detect.run s g with ⟨⟨⟨o, u'⟩, t⟩, g'⟩
  obtain ⟨g₀, began, detected⟩ := detect_outcome run
  rw [← began] at orderly
  obtain ⟨f, rfl, found⟩ := detected.offers contradiction programs unscored exact orderly
  exact ⟨f, u', t, g', rfl, detected.programs_eq, found⟩

/-- If a single version of the older rule is all there is to be done about a conflict, then it is
offered. -/
lemma exists_version_of_found {ps : List Program} {c : Conflict} {strategies : List Strategy}
    (found : ∀ strategy ∈ strategies, ∃ found g₁ g₂,
      (strategy.method.solutions ps c).run g₁ = (.ok found, g₂) ∧
        ∀ t ∈ found, ∃ sol ∈ c.solutions, sol.SameEdit t)
    (direct : ⟨.direct, false⟩ ∈ strategies) (one : modifications c.older c.newer.toClause = [v])
    (none : modifications c.newer c.older.toClause = []) :
    ∃ sol ∈ c.solutions, sol.SameEdit { modifications := [v] } := by
  obtain ⟨found, g₁, g₂, solved, offered⟩ := found _ direct
  obtain ⟨g₃, run⟩ := directSolutions_of_one one none g₁
  rw [show (Method.direct.solutions ps c).run g₁ = _ from run] at solved
  cases solved
  obtain ⟨sol, hs, same⟩ := offered _ (List.mem_singleton.2 rfl)
  exact ⟨sol, hs, same.trans ⟨rfl, rfl, rfl, rfl⟩⟩

end

/-- **What is reported agrees with what the merge means.**  Let the programs be clean, with
identifiers from the supply, and the solver exact.  A detection that finds nothing wrong reports the
answer sets of the merged programs, and there is one.  For two programs, the answer sets of the
merged program are those that are reported and are no witness of a reported conflict, whatever is
reported.  The one exception is a solver that refuses to be asked about programs without rules. -/
theorem detect_agrees_with_merge (exact : s.Exact) (clean : Clean u.mark u.programs)
    (numbered : ∀ p ∈ u.programs, Numbered g.nextId p)
    (run : u.detect.run s g = (((.ok d, u'), t), g')) :
    (2 ≤ u.programs.length → d.isClean = true →
      d.findings.answerSets ≠ [] ∧ MergesTo u.programs (· ∈ d.findings.answerSets)) ∧
    (u.programs.length = 2 →
      (d.ok = true ∧
        MergesTo u.programs (fun w => w ∈ d.findings.answerSets ∧
          ¬ Witnessed d.findings.conflicts w) ∧
        (d.findings.consistent = false → MergesTo u.programs fun _ => False)) ∨
      Refused s u.programs d) := by
  obtain ⟨g₀, began, detected⟩ := detect_outcome run
  rw [← began] at numbered
  constructor
  · intro several isClean
    cases detected with
    | failed _ => simp [Detection.isClean, Detection.ok] at isClean
    | completed detected _ there =>
        have isClean := isClean_of_offers there isClean
        have found := detectSequence_clean exact clean numbered several detected isClean
        exact found
  · intro two
    obtain ⟨older, newer, programs⟩ := List.length_eq_two.1 two
    rw [programs] at clean numbered ⊢
    cases detected with
    | failed detected =>
        rw [programs] at detected
        rcases detectSequence_pair exact clean numbered detected with
          ⟨f, e, -⟩ | refused
        · cases e
        · exact Or.inr refused
    | @completed f cs _ _ detected back there =>
        rw [programs] at detected
        rcases detectSequence_pair exact clean numbered detected with
          ⟨f', e, inconsistent, merges⟩ | ⟨-, -, e, -, he⟩
        · cases e
          refine Or.inl ⟨rfl, ?_, fun h => ?_⟩
          · simp only [Detection.findings, witnessed_iff_of_offers back there]
            exact merges
          · simp only [inconsistent h, List.not_mem_nil, false_and] at merges
            exact merges
        · cases he

/-- What is reported of a fact and a loop through negation that may contradict it. -/
theorem detect_agrees_with_merge_loop :
    let fly : Literal := ⟨⟨"fly", ["tweety"]⟩, false⟩
    let sick : Literal := ⟨⟨"sick", []⟩, false⟩
    let well : Literal := ⟨⟨"well", []⟩, false⟩
    let older : Program := { rules := [{ head := some fly, id := 1 }] }
    let newer : Program := { rules := [
      { head := some fly.complement, body := [sick], id := 2 },
      { head := some sick, negBody := [well], id := 3 },
      { head := some well, negBody := [sick], id := 4 }] }
    let u : UpdateSequence := { programs := [older, newer], strategies := [] }
    Solver.exact.Exact ∧ Clean u.mark u.programs ∧ (∀ p ∈ u.programs, Numbered 5 p) ∧
      ∃ d u' t g', u.detect.run Solver.exact { nextId := 5 } = (((.ok d, u'), t), g') ∧
        MergesTo u.programs (fun w => w ∈ d.findings.answerSets ∧
          ¬ Witnessed d.findings.conflicts w) := by
  intro fly sick well older newer u
  have clean : Clean u.mark u.programs := by decide
  have numbered : ∀ p ∈ u.programs, Numbered 5 p := by decide
  obtain ⟨d, u', t, g', run⟩ := detect_total (u := u) rfl rfl exact_exact clean (by decide)
    { nextId := 5 }
  refine ⟨exact_exact, clean, numbered, d, u', t, g', run, ?_⟩
  rcases (detect_agrees_with_merge exact_exact clean numbered run).2 rfl with
    ⟨-, merges, -⟩ | ⟨empty, -⟩
  · exact merges
  · exact absurd (empty older (by simp [u])) (by simp [older])

end UpdateSequence

end CausalUpdate
