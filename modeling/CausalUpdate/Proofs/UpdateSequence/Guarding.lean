import CausalUpdate.Proofs.UpdateProgram.Guarding
import CausalUpdate.Proofs.UpdateSequence.Agreement

/-!
# Accepting a guard

The direct solution of a conflict may do nothing but guard the older rule by one literal that the
newer rule asks for.  The conflict is then gone, and nothing else is: the detection that follows
reports the answer sets that were reported before.

* `edit_of_version` — what a version of an older rule makes of two programs.
* `direct_guard_keeps_answerSets` — accepting such a solution keeps the answer sets.
-/

namespace CausalUpdate

variable {mark : Mark} {older newer : Program} {a b v : Rule}

/-! ## Programs -/

section

variable (clean : Clean mark [older, newer]) (disjoint : ∀ id ∈ older.ids, id ∉ newer.ids)
  (ha : a ∈ older.rules)

include clean disjoint ha

/-- A version of an older rule can be put in, unless the older program says the same already. -/
lemma fitting_of_isVersion {reference : Clause} (version : IsVersion a reference v) :
    Fitting [older, newer] [v] := by
  have id := version.extension.id
  have held : a.id ∈ older.ids := List.mem_map_of_mem ha
  refine ⟨List.nodup_singleton _, fun w hw => ?_, fun w hw => ?_, List.pairwise_singleton _ _,
    fun w hw w' hw' r hr e => ?_⟩
  · rw [List.mem_singleton.1 hw, id]
    exact ⟨older, by simp, held⟩
  · rw [List.mem_singleton.1 hw]
    exact version.extension.not_isEmpty (clean.nonempty older (by simp) a ha)
  · rw [List.mem_singleton.1 hw', id] at e
    rw [List.mem_singleton.1 hw]
    rw [rulesOf_cons, rulesOf_cons, rulesOf_nil, List.append_nil, List.mem_append] at hr
    rcases hr with hr | hr
    · obtain rfl := List.inj_on_of_nodup_map (clean.ids older (by simp)) hr ha e
      exact version.like.not_equiv
    · exact absurd (e ▸ List.mem_map_of_mem hr) (disjoint a.id held)

/-- **What a version of an older rule makes of two programs**, if it can be put in. -/
theorem edit_of_version {reference : Clause} {sol : Solution} {ps : List Program} {g g' : Ledger}
    (edits : sol.Edits (IsVersion a reference)) (one : sol.modifications = [v])
    (run : (sol.applyTo [older, newer]).run g = (.ok ps, g')) :
    ps = [older.updated [v], newer] := by
  have version : IsVersion a reference v := edits.chosen v (one ▸ List.mem_singleton.2 rfl)
  have free : v.id ∉ newer.ids := by
    rw [version.extension.id]
    exact disjoint a.id (List.mem_map_of_mem ha)
  rw [edits.applyTo_run (by simp), one] at run
  rcases (fitting_of_isVersion clean disjoint ha version).editEach clean.ids with
    ⟨-, e, refused, -⟩ | ⟨-, edited⟩
  · rw [refused] at run
    cases run
  · rw [edited] at run
    cases run
    rw [List.map_cons, List.map_cons, List.map_nil, Program.updated_of_not_mem free]

omit disjoint in
/-- Clean programs stay clean when an older rule gets a version against a newer one. -/
lemma clean_updated (hb : b ∈ newer.rules) (version : IsVersion a b.toClause v) :
    Clean mark [older.updated [v], newer] := by
  have rules : ∀ r ∈ rulesOf [older.updated [v], newer], r ∈ rulesOf [older, newer] ∨ r = v := by
    intro r hr
    simp only [rulesOf_cons, rulesOf_nil, List.append_nil, List.mem_append] at hr ⊢
    rcases hr with hr | hr
    · obtain ⟨q, hq, rfl⟩ := List.mem_map.1 hr
      rcases Rule.updated_cases [v] q with ⟨e, -⟩ | ⟨new, -⟩
      · exact Or.inl (Or.inl (e.symm ▸ hq))
      · exact Or.inr (List.mem_singleton.1 new)
    · exact Or.inl (Or.inr hr)
  refine clean.of_mentioned (fun q hq => ?_) (fun r hr => ?_) fun l hl => ?_
  · rcases List.mem_pair.1 hq with rfl | rfl
    · rw [Program.ids_updated]
      exact clean.ids older (by simp)
    · exact clean.ids q (by simp)
  · rcases rules r hr with old | rfl
    · obtain ⟨p, hp, hr⟩ := mem_rulesOf.1 old
      exact clean.nonempty p hp r hr
    · exact version.extension.not_isEmpty (clean.nonempty older (by simp) a ha)
  · obtain ⟨r, hr, inside⟩ := mem_mentioned_iff_rulesOf.1 hl
    rcases rules r hr with old | rfl
    · exact mem_mentioned_iff_rulesOf.2 ⟨r, old, inside⟩
    · rcases version.mem_literals inside with inside | inside
      · exact mem_mentioned_iff_rulesOf.2 ⟨a, by simp [ha], inside⟩
      · exact mem_mentioned_iff_rulesOf.2 ⟨b, by simp [hb], inside⟩

end

/-! ## Sequences -/

namespace UpdateSequence

variable {u u₁ u₂ : UpdateSequence} {s t t₁ : Solver} {g g₁ g₂ g₃ g₄ g₅ : Ledger}
  {d d' : Detection} {c : Conflict} {y : Literal} {sol scored : Solution} {found : List Solution}

/-- Among two programs, what is found for a conflict is found with the rules that survive. -/
lemma detect_surviving_of_reported (clean : Clean u.mark [older, newer])
    (positive : Positive [older, newer]) (disjoint : ∀ id ∈ older.ids, id ∉ newer.ids)
    (programs : u.programs = [older, newer]) (exact : s.Exact)
    (run : u.detect.run s g = (((.ok d, u₁), t), g₁)) (reported : c ∈ d.findings.conflicts) :
    ∃ x, d = .completed x ∧ Surviving older newer x := by
  rcases detect_surviving_or_refused clean positive disjoint programs exact run with
    found | ⟨-, -, e, -, rfl⟩
  · exact found
  · exact absurd reported List.not_mem_nil

/-- **A guard for the older rule keeps the answer sets.**  Let two programs be clean, with distinct
and positive identifiers that they do not share, and let the solver be exact.  Let a conflict be
reported for which the older rule has a single version against the newer one, and let this be the
rule with one more literal under default negation, which the newer rule asks for.  If the direct
solution that modifies the older rule is accepted, the detection that follows succeeds and reports
the answer sets that were reported before, each of them once. -/
theorem direct_guard_keeps_answerSets (clean : Clean u.mark [older, newer])
    (positive : Positive [older, newer]) (disjoint : ∀ id ∈ older.ids, id ∉ newer.ids)
    (programs : u.programs = [older, newer]) (exact : s.Exact)
    (run : u.detect.run s g = (((.ok d, u₁), t), g₁)) (reported : c ∈ d.findings.conflicts)
    (one : modifications c.older c.newer.toClause = [c.older.extend [] [y]])
    (hy : y ∈ c.newer.body) (direct : (directSolutions c).run g₂ = (.ok found, g₃))
    (member : sol ∈ found) (modifies : ∃ v ∈ sol.modifications, v.id = c.older.id)
    (same : scored.SameEdit sol)
    (accepting : (u₁.accept (some scored)).run t g₄ = (((.ok d', u₂), t₁), g₅))
    (accepted : Accepted (.ok d')) :
    d'.ok = true ∧ (d'.findings.answerSets.map AnswerSet.held).Nodup ∧
      ∀ held, held ∈ d'.findings.answerSets.map AnswerSet.held ↔
        held ∈ d.findings.answerSets.map AnswerSet.held := by
  obtain ⟨x, rfl, before⟩ := detect_surviving_of_reported clean positive disjoint programs exact
    run reported
  obtain ⟨ha, hb, opposed, seen, -, together⟩ := (before.reported _ _).1 ⟨c, reported, rfl, rfl⟩
  have apart : c.newer.id ≠ c.older.id := fun e =>
    disjoint _ (List.mem_map_of_mem ha) (e ▸ List.mem_map_of_mem hb)
  -- the solution consists of a version of the older rule
  have rejects : sol.Rejects c.older c.newer := by
    refine (directSolutions_rejects direct sol member).resolve_right fun rejects => ?_
    obtain ⟨v, hv, e⟩ := modifies
    exact apart ((rejects.versions.chosen v hv).extension.id.symm.trans e)
  obtain ⟨v, only⟩ := List.length_eq_one_iff.1 rejects.one
  have version := rejects.versions.chosen v (only ▸ List.mem_singleton.2 rfl)
  have guarded : c.older.Guarded y v := .of_isVersion version (fun _ => eq_of_mem_candidates one) hy
  -- and so it leads to the older program with this version
  have ⟨programs₁, mark₁⟩ : u₁.programs = [older, newer] ∧ u₁.mark = u.mark := by
    obtain ⟨_, -, detected⟩ := detect_outcome run
    exact ⟨detected.programs_eq.trans programs, detected.mark_eq⟩
  have exact₁ : t.Exact := exact.of_reply ((detect_steady u).of_run run).1
  cases accept_outcome accepting with
  | empty _ => exact absurd rfl (accepted _ rfl)
  | refused _ => exact absurd rfl (accepted _ rfl)
  | @applied ps _ _ _ _ _ _ application _ detected =>
      rw [programs₁] at application
      obtain rfl := edit_of_version clean disjoint ha (rejects.versions.of_sameEdit same)
        (same.modifications.trans only) application
      have ids := Program.ids_updated [v] older
      have clean₁ := clean_updated clean ha hb version
      rw [← mark₁] at clean₁
      obtain ⟨x', rfl, after⟩ := detected.surviving clean₁
        (by simpa [Positive, ids] using positive) (by rwa [ids])
        (List.ne_nil_of_mem (List.mem_map_of_mem ha)) rfl exact₁
      refine ⟨rfl, after.answerSets.once, fun held => ?_⟩
      rw [show Detection.findings (.completed x') = x' from rfl, after.answerSets.mem_iff,
        show Detection.findings (.completed x) = x from rfl, before.answerSets.mem_iff]
      exact isAnswerSet_guarded_iff (clean.ids older (by simp)) ha hb opposed guarded
        fun holds guard => holdsIn_of_modifications_eq clean ha hb one hy together holds guard

/-- Birds fly, unless they are penguins. -/
theorem direct_guard_keeps_answerSets_penguin :
    let bird : Literal := ⟨⟨"bird", ["tweety"]⟩, false⟩
    let fly : Literal := ⟨⟨"fly", ["tweety"]⟩, false⟩
    let penguin : Literal := ⟨⟨"penguin", ["tweety"]⟩, false⟩
    let default : Rule := { head := some fly, body := [bird], id := 1 }
    let exception : Rule := { head := some fly.complement, body := [bird, penguin], id := 3 }
    let guarded : Rule := { head := some fly, body := [bird], negBody := [penguin], id := 1 }
    let sol : Solution := { modifications := [guarded], rootRule := some 1 }
    let older : Program := { rules := [default, { head := some bird, id := 2 }] }
    let newer : Program := { rules := [exception, { head := some penguin, id := 4 }] }
    let u : UpdateSequence := { programs := [older, newer], strategies := [] }
    Clean u.mark [older, newer] ∧ Positive [older, newer] ∧ (∀ id ∈ older.ids, id ∉ newer.ids) ∧
      Solver.exact.Exact ∧ ∃ d u₁ t g₁ c d' u₂ t₁ g₅,
        u.detect.run Solver.exact { nextId := 5 } = (((.ok d, u₁), t), g₁) ∧
        c ∈ d.findings.conflicts ∧
        modifications c.older c.newer.toClause = [c.older.extend [] [penguin]] ∧
        penguin ∈ c.newer.body ∧
        (∃ g₃, (directSolutions c).run g₁ = (.ok [sol], g₃)) ∧
        (u₁.accept (some sol)).run t g₁ = (((.ok d', u₂), t₁), g₅) ∧ Accepted (.ok d') ∧
        d'.ok = true ∧ (d'.findings.answerSets.map AnswerSet.held).Nodup ∧
        ∀ held, held ∈ d'.findings.answerSets.map AnswerSet.held ↔
          held ∈ d.findings.answerSets.map AnswerSet.held := by
  intro bird fly penguin default exception guarded sol older newer u
  have contradiction : Contradiction u.mark older newer default exception
      [bird, penguin, fly.complement] := by decide
  have clean := contradiction.clean
  have named := contradiction.named
  have disjoint : ∀ id ∈ older.ids, id ∉ newer.ids := by decide
  obtain ⟨d, u₁, t, g₁, run⟩ := detect_total (u := u) rfl rfl exact_exact clean named
    { nextId := 5 }
  obtain ⟨_, -, detected⟩ := detect_outcome run
  obtain ⟨x, rfl, c, reported, ho, hn⟩ :=
    detected.exists_conflict contradiction disjoint rfl exact_exact
  have one : modifications c.older c.newer.toClause = [c.older.extend [] [penguin]] := by
    rw [ho, hn]
    decide +kernel
  have hy : penguin ∈ c.newer.body := by
    rw [hn]
    decide
  obtain ⟨g₃, direct⟩ := directSolutions_of_one one (by rw [ho, hn]; decide +kernel) g₁
  rw [ho] at direct
  have changed : u₁.programs = [older, newer] ∧ u₁.strategies = [] ∧ u₁.mark = u.mark :=
    ⟨detected.programs_eq, detected.strategies_eq, detected.mark_eq⟩
  have exact₁ : t.Exact := exact_exact.of_reply ((detect_steady u).of_run run).1
  rcases accepting : (u₁.accept (some sol)).run t g₁ with ⟨⟨⟨o, u₂⟩, t₁⟩, g₅⟩
  have outcome := accept_outcome accepting
  have applies : ∀ g, (sol.applyTo u₁.programs).run g =
      (.ok [older.updated [guarded], newer], g) := by
    intro g
    rw [changed.1]
    rfl
  have accepted := outcome.accepted rfl fun g => ⟨_, g, applies g⟩
  obtain ⟨d', rfl⟩ : ∃ d', o = .ok d' := by
    cases outcome with
    | empty _ => exact ⟨_, rfl⟩
    | refused _ => exact ⟨_, rfl⟩
    | applied _ application _ detected =>
        rw [applies] at application
        cases application
        exact detected.exists_ok rfl exact₁ (by rw [changed.2.2]; decide) (by decide)
          fun f t g₁ _ found =>
            offerAll_total_of_none (by exact changed.2.1) (fun c hc => (found c hc).2.2) t g₁
  exact ⟨clean, named.positive, disjoint, exact_exact, _, u₁, t, g₁, c, d', u₂, t₁, g₅, run,
    reported, one, hy, ⟨g₃, direct⟩, accepting, accepted,
    direct_guard_keeps_answerSets clean named.positive disjoint rfl exact_exact run reported one hy
      direct (List.mem_singleton.2 rfl) ⟨guarded, List.mem_singleton.2 rfl, ho ▸ rfl⟩ (.refl sol)
      accepting accepted⟩

end UpdateSequence

end CausalUpdate
