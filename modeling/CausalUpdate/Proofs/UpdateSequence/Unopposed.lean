import CausalUpdate.Proofs.Program.Reading
import CausalUpdate.Proofs.Strategy.Finding
import CausalUpdate.Proofs.UpdateProgram.Swapping
import CausalUpdate.Proofs.UpdateSequence.Session

/-!
# New rules start no conflict

A conflict is reported between rules with complementary heads that both fire in a consistent answer
set, so their bodies cannot exclude each other.  This is what a rejection solution makes sure of: the
rule that it adds has the bodies of the reference rule, and whoever derives the complement of its
head has bodies that exclude these.

* `detectSequence_compatible` — the rules of a reported conflict do not exclude each other.
* `Unopposed` — rules of which the head is contradicted by exclusive rules only.
* `rejectionSolutions_unopposed` — the new rules of rejection solutions are such.
* `rejection_starts_no_conflict` — they are not reported.
-/

namespace CausalUpdate

section

variable {mark : Mark} {next low : Nat} {ps ps' : List Program} {merged : Program} {c : Conflict}
  {r : Rule} {l : Literal} {s t : Solver} {g g' : Ledger} {d : Detection} {sol : Solution}

/-! ## Reported rules -/

/-- Two rules with complementary heads, neither of which is kept from firing by the other. -/
structure Compatible (ps : List Program) (c : Conflict) : Prop where
  older : c.older ∈ rulesOf ps
  newer : c.newer ∈ rulesOf ps
  opposed : c.older.Opposed c.newer.toClause
  free : ¬ Exclusive c.older.toClause c.newer.toClause

/-- **The rules of a reported conflict do not exclude each other**, if equivalent atoms are written
in the same way.  For they fire together in a consistent set. -/
theorem detectSequence_compatible (live : Live mark next ps) (coherent : Coherent ps)
    (sound : s.Sound) (run : (detectSequence mark ps).run s g = ((.ok d, t), g'))
    (hc : c ∈ d.findings.conflicts) : Compatible ps c := by
  obtain ⟨ha, hb, -⟩ := detectSequence_found live.toOrderly run hc
  obtain ⟨m, p, s₁, g₁, t₁, g₂, compares, reply, run⟩ :=
    detectSequence_compares live.toOrderly run hc
  have wf := live.wellFormed compares.ids compares.rules
  have positive := live.positive compares.rules
  obtain ⟨held, answer, opposed, holds, holds'⟩ := detectPair_fires_in wf positive
    (sound.of_reply reply) (clauses_buildUpdateProgram mark m p g₁).1
    (fun _ _ model parsed => exists_isAnswerSet_of_parse wf positive model parsed) run hc
  exact ⟨ha, hb, opposed, fun exclusive =>
    exclusive.not_holdsIn coherent ha hb answer.consistent holds holds'⟩

lemma UpdateSequence.Detected.compatible {u u' : UpdateSequence} {high : Nat}
    {o : Except UpdateError Detection} (h : Detected u s g high o u')
    (live : Live u.mark next u.programs) (coherent : Coherent u.programs) (sound : s.Sound) :
    ∀ c ∈ reports o, Compatible u.programs c := by
  cases h with
  | undetected _ => exact fun c hc => absurd hc List.not_mem_nil
  | unoffered _ _ => exact fun c hc => absurd hc List.not_mem_nil
  | failed _ => exact fun c hc => absurd hc List.not_mem_nil
  | completed detected back there =>
      intro c' hc'
      obtain ⟨c, hc, offers⟩ := back c' hc'
      obtain ⟨ha, hb, opposed, free⟩ := detectSequence_compatible live coherent sound detected hc
      rw [← offers.older, ← offers.newer] at opposed free
      exact ⟨offers.older ▸ ha, offers.newer ▸ hb, opposed, free⟩

/-! ## Rules without opponents -/

/-- Every rule of the programs that contradicts the rule excludes it. -/
def Unopposed (ps : List Program) (r : Rule) : Prop :=
  ∀ q ∈ rulesOf ps, r.Opposed q.toClause → Exclusive r.toClause q.toClause

lemma Clause.not_opposed_self (c : Clause) : ¬ c.Opposed c := by
  intro opposed
  obtain ⟨l, m, hl, hm, complementary⟩ := opposed.heads
  rw [hl, Option.some_inj] at hm
  exact complementary.2 (congrArg Literal.negated hm)

/-- A rule without opponents is in no reported conflict. -/
lemma Unopposed.not_reported (unopposed : Unopposed ps r) (orderly : Orderly next ps)
    (hr : r ∈ rulesOf ps) (compatible : Compatible ps c) :
    c.older.id ≠ r.id ∧ c.newer.id ≠ r.id := by
  constructor
  · intro e
    obtain rfl := orderly.eq_of_id_eq compatible.older hr e
    exact compatible.free (unopposed c.newer compatible.newer compatible.opposed)
  · intro e
    obtain rfl := orderly.eq_of_id_eq compatible.newer hr e
    exact compatible.free (unopposed c.older compatible.older compatible.opposed.symm).symm

/-- A rule has no opponents if its head is not contested, in view of its bodies, where the programs
are seen as one. -/
lemma unopposed_of_not_contested {reference : Rule} (merge : Merged ps merged)
    (free : ¬ Contested merged reference.toClause l)
    (clause : r.toClause = ⟨some l, reference.body, reference.negBody⟩) : Unopposed ps r := by
  intro q hq opposed
  obtain ⟨q', hq', e⟩ := merge.covers q hq
  obtain ⟨k, m, hk, hm, complementary⟩ := opposed.heads
  obtain rfl : l = k := by
    rw [clause] at hk
    exact Option.some_inj.1 hk
  have derives : q'.Derives l.complement := by
    refine Clause.sameHead_equivalence.trans e.1 ?_
    rw [hm]
    exact Setoid.symm (Literal.complementary_iff.1 complementary)
  have exclusive : Exclusive reference.toClause q'.toClause :=
    Decidable.not_not.1 fun not => free ⟨q', hq', derives, not⟩
  rw [clause]
  exact exclusive.of_equiv e

/-- **What rejection solutions add has no opponents.** -/
theorem rejectionSolutions_unopposed (orderly : Orderly next ps) (ha : c.older ∈ rulesOf ps)
    (low : Nat) : (rejectionSolutions ps c).Yields low fun found _ =>
      ∀ s ∈ found, ∀ r ∈ s.additions, Unopposed ps r := by
  refine rejectionSolutions_yields_of orderly ha (fun _ _ _ _ h => h)
    fun merged merge d _ l _ n _ => ?_
  rw [rejectionSolution?]
  split
  · exact .pure fun _ _ s e => absurd e (by simp)
  · rename_i free
    intro g above
    refine ⟨_, _, rfl, fun s e r hr => ?_, Nat.le_succ g.nextId⟩
    obtain rfl := Option.some.inj e
    exact unopposed_of_not_contested merge free (by rw [List.mem_singleton.1 hr])

/-- A rule without opponents has none when it comes into the programs. -/
lemma Unopposed.push {front : List Program} {p : Program} (h : Unopposed (front ++ [p]) r) :
    Unopposed (front ++ [p.push r]) r := by
  intro q hq opposed
  rw [rulesOf_push, List.mem_append, List.mem_singleton] at hq
  rcases hq with hq | rfl
  · exact h q hq opposed
  · exact absurd opposed (Clause.not_opposed_self _)

/-- **A rule that a rejection solution adds starts no conflict.**  Let programs be read, with
identifiers of their own and without reserved predicates, and let them write equivalent atoms in the
same way.  If a rejection solution for two of their rules can be applied, then no detection on the
programs that result reports a conflict in which a rule takes part that the solution has added. -/
theorem rejection_starts_no_conflict {u u' : UpdateSequence} {o : Except UpdateError Detection}
    {found : List Solution} {g₁ g₂ g₃ g₄ : Ledger} (read : ∀ p ∈ ps, IsRead next p)
    (disjoint : ps.Pairwise fun p q => p.ids.Disjoint q.ids)
    (unreserved : ∀ l ∈ mentioned ps, l.atom.predicate ∉ u.mark.reservedPredicates)
    (coherent : Coherent ps) (ha : c.older ∈ rulesOf ps) (hb : c.newer ∈ rulesOf ps)
    (rejection : (rejectionSolutions ps c).run g = (.ok found, g₁)) (supply : next ≤ g.nextId)
    (member : sol ∈ found) (later : g₁.nextId ≤ g₂.nextId)
    (applied : (sol.applyTo ps).run g₂ = (.ok ps', g₃)) (programs : u.programs = ps')
    (sound : s.Sound) (run : u.detect.run s g₄ = (((o, u'), t), g')) (hr : r ∈ sol.additions) :
    ∀ k ∈ reports o, k.older.id ≠ r.id ∧ k.newer.id ≠ r.id := by
  intro k hk
  have live := live_of_isRead read disjoint unreserved
  have yields := rejectionSolutions_yields live.toOrderly ha hb supply
  obtain ⟨d, l, asserts⟩ := yields.of_run_ok (Nat.le_refl _) rejection sol member
  obtain ⟨r', addition, -⟩ := (asserts.mono later).adds
  obtain rfl : r = r' := by simpa [addition.additions] using hr
  have grows : g.nextId ≤ g₁.nextId := (Method.rejectionRule.solutions_grows ps c).of_run rejection
  have live₂ : Live u.mark g₂.nextId ps := live.mono (by omega)
  have outcome := Suits.applied (.adds addition) IsVersion.like live₂.toOrderly applied
  have unopposed := (rejectionSolutions_unopposed live.toOrderly ha _).of_run_ok
    (Nat.le_refl _) rejection sol member r hr
  have live' := outcome.live live₂
  have coherent' : Coherent ps' := fun l hl m hm => coherent l (outcome.mentioned_subset l hl)
    m (outcome.mentioned_subset m hm)
  have compatible : Compatible ps' k := by
    obtain ⟨g₀, -, detected⟩ := UpdateSequence.detect_outcome run
    rw [← programs] at live' coherent' ⊢
    exact detected.compatible live' coherent' sound k hk
  cases outcome with
  | modified versions _ => exact absurd (versions.versions.additions ▸ hr) List.not_mem_nil
  | @added front p r' split addition _ =>
      obtain rfl : r = r' := by simpa [addition.additions] using hr
      subst split
      refine unopposed.push.not_reported live'.toOrderly ?_ compatible
      rw [rulesOf_push]
      exact List.mem_append_right _ (List.mem_singleton.2 rfl)

/-- The new rule derives what an older rule denies, but the two never fire together. -/
theorem rejection_starts_no_conflict_denied :
    let a : Literal := ⟨⟨"a", []⟩, false⟩
    let l : Literal := ⟨⟨"l", []⟩, false⟩
    let x : Literal := ⟨⟨"x", []⟩, false⟩
    let default : Rule := { head := some a, negBody := [l], id := 1 }
    let denial : Rule := { head := some l.complement, negBody := [x], label := 1, id := 2 }
    let exception : Rule := { head := some a.complement, body := [x], id := 3 }
    let fact : Rule := { head := some x, label := 1, id := 4 }
    let reason : Rule := { head := some l, body := [x], label := 4, id := 5 }
    let rejection : Solution := { additions := [reason], rootRule := some 1, target := some l }
    let older : Program := { name := "older", rules := [default, denial] }
    let newer : Program := { name := "newer", rules := [exception, fact] }
    let updated : Program := { newer with rules := [exception, fact, reason] }
    let u : UpdateSequence := { programs := [older, updated] }
    (∀ p ∈ [older, newer], IsRead 5 p) ∧
    ([older, newer].Pairwise fun p q => p.ids.Disjoint q.ids) ∧
    (∀ l ∈ mentioned [older, newer], l.atom.predicate ∉ u.mark.reservedPredicates) ∧
    Coherent [older, newer] ∧ default ∈ rulesOf [older, newer] ∧
    exception ∈ rulesOf [older, newer] ∧ Solver.exact.Sound ∧
    ∃ g₁ g₃ o u' t g',
      (rejectionSolutions [older, newer] { older := default, newer := exception }).run
        { nextId := 5 } = (.ok [rejection], g₁) ∧
      (rejection.applyTo [older, newer]).run g₁ = (.ok [older, updated], g₃) ∧
      u.detect.run Solver.exact g₃ = (((o, u'), t), g') ∧
      ∀ k ∈ reports o, k.older.id ≠ 5 ∧ k.newer.id ≠ 5 := by
  intro a l x default denial exception fact reason rejection older newer updated u
  have read : ∀ p ∈ [older, newer], IsRead 5 p := by
    refine List.forall_mem_cons.2 ⟨?_, List.forall_mem_singleton.2 ?_⟩
    · exact ⟨some "a :- not l. -l :- not x.", "older", older, { nextId := 1 }, { nextId := 3 },
        rfl, by decide, by decide, rfl⟩
    · exact ⟨some "-a :- x. x.", "newer", newer, { nextId := 3 }, { nextId := 5 }, rfl, by decide,
        by decide, rfl⟩
  have disjoint : [older, newer].Pairwise fun p q => p.ids.Disjoint q.ids :=
    List.pairwise_pair.2 (List.disjoint_left.2 (by decide))
  have unreserved : ∀ l ∈ mentioned [older, newer],
      l.atom.predicate ∉ u.mark.reservedPredicates := by decide
  have coherent : Coherent [older, newer] := by decide
  have ha : default ∈ rulesOf [older, newer] := by decide
  have hb : exception ∈ rulesOf [older, newer] := by decide
  obtain ⟨g₁, found⟩ : ∃ g₁,
      (rejectionSolutions [older, newer] { older := default, newer := exception }).run
        { nextId := 5 } = (.ok [rejection], g₁) :=
    ⟨_, Prod.ext (by decide +kernel) rfl⟩
  obtain ⟨g₃, applied⟩ : ∃ g₃, (rejection.applyTo [older, newer]).run g₁ =
      (.ok [older, updated], g₃) := ⟨_, rfl⟩
  rcases run : u.detect.run Solver.exact g₃ with ⟨⟨⟨o, u'⟩, t⟩, g'⟩
  refine ⟨read, disjoint, unreserved, coherent, ha, hb, exact_exact.sound, g₁, g₃, o, u', t, g',
    found, applied, run, ?_⟩
  exact rejection_starts_no_conflict (r := reason) read disjoint unreserved coherent ha hb found
    (Nat.le_refl _) (List.mem_singleton.2 rfl) (Nat.le_refl _) applied rfl exact_exact.sound run
    (List.mem_singleton.2 rfl)

end

end CausalUpdate
