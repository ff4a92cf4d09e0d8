import CausalUpdate.Proofs.UpdateProgram.Swapping
import CausalUpdate.Proofs.UpdateSequence.Session

/-!
# What indirect and rejection solutions achieve

An indirect solution keeps a literal from being derived that one rule of the conflict asks for, and
a rejection solution derives a literal that one of them negates by default.  Either way the two
rules should not fire together any more, and so not be reported again.  This holds under one
condition each:

* no rule that the solution modifies is also in another program (`indirect_resolves`), for there it
  stays as it is;
* the newer rule of the conflict is one of the newest program (`rejection_resolves`), for this is
  where the new rule goes, while the conflict is found by comparing the program of the newer rule
  with those before it.
-/

namespace CausalUpdate

section

variable {mark : Mark} {next : Nat} {ps ps' : List Program} {c c' : Conflict} {m p : Program}
  {held : Set Literal} {q r : Rule} {l : Literal}

/-! ## Rules that fire together -/

lemma Rule.Extends.holdsIn (h : r.Extends q) (holds : r.HoldsIn held) : q.HoldsIn held :=
  ⟨fun l hl => holds.1 l (h.body l hl), fun l hl => holds.2 l (h.negBody l hl)⟩

namespace Fires

/-- Only what a rule of the programs derives is held of what they mention. -/
lemma exists_rule (fires : Fires mark ps c m p held) (clean : Clean mark ps)
    (hr : r ∈ m.rules ∨ r ∈ p.rules) (holds : r.HoldsIn held) (hl : l ∈ r.body) :
    ∃ q ∈ rulesOf ps, q.head = some l ∧ q.HoldsIn held := by
  have clean := clean.of_rules fires.compares.ids fires.compares.rules
  have there : r ∈ rulesOf [m, p] := by simpa using hr
  have mentioned : l ∈ mentioned [m, p] := mem_mentioned_iff_rulesOf.2
    ⟨r, there, by simp [Clause.literals, Clause.completeBody, hl]⟩
  obtain ⟨q, hq, head, holds⟩ := fires.answer.exists_rule clean mentioned (holds.1 l hl)
  exact ⟨q, fires.compares.rules q (by simpa using hq), head, holds⟩

/-- What rules were before they were extended fires as well. -/
lemma of_grown (fires : Fires mark ps' c' m p held) (grown : Grown ps ps')
    (orderly : Orderly next ps') (ha : c.older ∈ rulesOf ps) (hb : c.newer ∈ rulesOf ps)
    (pair : c'.pair = c.pair) :
    c'.older.Extends c.older ∧ c'.newer.Extends c.newer := by
  obtain ⟨ea, eb⟩ := Prod.mk.inj pair
  obtain ⟨a, ha', extension⟩ := grown c.older ha
  obtain ⟨b, hb', extension'⟩ := grown c.newer hb
  have older := fires.compares.rules c'.older (by simp [fires.older])
  have newer := fires.compares.rules c'.newer (by simp [fires.newer])
  constructor
  · exact orderly.eq_of_id_eq ha' older (extension.id.trans ea.symm) ▸ extension
  · exact orderly.eq_of_id_eq hb' newer (extension'.id.trans eb.symm) ▸ extension'

end Fires

/-- **Once all rules are excluded that could derive a literal**, no rule that fires derives it, if
these rules are not said elsewhere. -/
theorem not_derived_of_excludes {reference : Rule} {rs : List Rule} {sol : Solution}
    (excludes : sol.Excludes IsVersion ps reference rs)
    (applied : Applied IsVersion next ps sol (.ok ps')) (clean : Clean mark ps)
    (ha : c.older ∈ rulesOf ps) (hb : c.newer ∈ rulesOf ps)
    (covers : ∀ r ∈ rulesOf ps, r.Derives l → ¬ Exclusive c.older.toClause r.toClause →
      ¬ Exclusive c.newer.toClause r.toClause → ∃ q ∈ rs, q.toClause ≈ r.toClause)
    (unshared : ∀ q ∈ rs, ∀ r ∈ rulesOf ps, q.toClause ≈ r.toClause → q = r)
    (consistent : ∀ l ∈ held, l.complement ∉ held) (older_holds : c.older.HoldsIn held)
    (newer_holds : c.newer.HoldsIn held) (reference_holds : reference.HoldsIn held)
    (hr : r ∈ rulesOf ps') (head : r.head = some l) : ¬ r.HoldsIn held := by
  intro holds
  cases applied with
  | added _ addition _ => exact excludes.changes addition.modifications
  | modified _ _ =>
      obtain ⟨q, hq, -, ⟨rfl, unchanged⟩ | new⟩ := exists_of_mem_updated hr
      · have derives : r.Derives l := by
          rw [Clause.Derives, head]
          exact Setoid.refl l
        obtain ⟨q, hq', e⟩ := covers r hq derives
          (fun exclusive => exclusive.not_holdsIn clean.coherent ha hq consistent older_holds holds)
          fun exclusive => exclusive.not_holdsIn clean.coherent hb hq consistent newer_holds holds
        obtain rfl := unshared q hq' r hq e
        obtain ⟨v, hv, id⟩ : ∃ v ∈ sol.modifications, v.id = q.id := by
          have taken : q.id ∈ sol.modifications.map Rule.id :=
            excludes.ids ▸ List.mem_map_of_mem hq'
          exact List.mem_map.1 taken
        exact unchanged v hv id
      · obtain ⟨q, -, version⟩ := excludes.versions.chosen r new
        exact holds.not_blocks reference_holds version.blocks

/-- **A new rule is in the program of the newer rule** when a conflict is found again, if that is
the newest program. -/
theorem Solution.Adds.mem_newer {sol : Solution} (addition : sol.Adds next ps r)
    (applied : Applied IsVersion next ps sol (.ok ps')) (orderly : Orderly next ps')
    (newest : ∃ p, ps.getLast? = some p ∧ c.newer ∈ p.rules) (fires : Fires mark ps' c' m p held)
    (pair : c'.pair = c.pair) : r ∈ p.rules := by
  cases applied with
  | modified excludes _ => exact absurd addition.modifications excludes.changes
  | @added front p₀ r' split addition' _ =>
      obtain rfl : r' = r := by simpa [addition.additions] using addition'.additions.symm
      have inside : c.newer ∈ (p₀.push r').rules := by
        obtain ⟨p, last, inside⟩ := newest
        obtain rfl : p₀ = p := by simpa [split] using last
        exact List.mem_append_left _ inside
      have last : p₀.push r' ∈ front ++ [p₀.push r'] := by simp
      have same : c'.newer = c.newer :=
        orderly.eq_of_id_eq (fires.compares.rules _ (by simp [fires.newer]))
          (mem_rulesOf.2 ⟨_, last, inside⟩) (Prod.mk.inj pair).2
      rw [← fires.compares.newer_eq orderly last (same ▸ fires.newer) inside]
      exact List.mem_append_right _ (List.mem_singleton.2 rfl)

end

/-- What is reported fires. -/
lemma UpdateSequence.Detected.fires {u u' : UpdateSequence} {s : Solver} {g : Ledger} {high : Nat}
    {o : Except UpdateError Detection} (h : Detected u s g high o u')
    (live : Live u.mark g.nextId u.programs) (clean : Clean u.mark u.programs) (sound : s.Sound) :
    ∀ c ∈ reports o, ∃ m p held, Fires u.mark u.programs c m p held := by
  cases h with
  | undetected _ => exact fun c hc => absurd hc List.not_mem_nil
  | unoffered _ _ => exact fun c hc => absurd hc List.not_mem_nil
  | failed _ => exact fun c hc => absurd hc List.not_mem_nil
  | completed detected back there =>
      intro c' hc'
      obtain ⟨c, hc, offers⟩ := back c' hc'
      obtain ⟨m, p, held, fires⟩ := detectSequence_fires live clean sound detected hc
      refine ⟨m, p, held, ?_⟩
      exact { fires with
        older := offers.older ▸ fires.older
        newer := offers.newer ▸ fires.newer
        older_holds := offers.older ▸ fires.older_holds
        newer_holds := offers.newer ▸ fires.newer_holds }

namespace Session

variable {st st₁ : Session} {os : List (Except UpdateError Detection)} {c c' : Conflict}
  {sol sol' : Solution} {o : Except UpdateError Detection} {u : UpdateSequence} {s : Solver}
  {g g' : Ledger}

/-- **What is reported after a solution was accepted** fires in the programs that it has led to. -/
theorem Sound.accept_fires (h : st.Sound) (clean : Clean st.mark st.programs)
    (suits : Suits IsVersion g.nextId st.programs sol) (later : st.next ≤ g.nextId)
    (run : (st.sequence.accept (some sol)).run st.solver g = (((o, u), s), g'))
    (accepted : UpdateSequence.Accepted o) (hc : c ∈ reports o) :
    ∃ ps, Applied IsVersion g.nextId st.programs sol (.ok ps) ∧ Orderly g.nextId ps ∧
      Clean st.mark ps ∧ ∃ m p held, Fires st.mark ps c m p held := by
  cases UpdateSequence.accept_outcome run with
  | empty _ => exact absurd rfl (accepted _ rfl)
  | refused _ => exact absurd rfl (accepted _ rfl)
  | @applied ps g₀ g₁ g₂ _ _ began application noted detected =>
      have live := h.live.mono later
      have applied := suits.applied IsVersion.like live.toOrderly application
      have taken := (sol.applyTo_grows st.programs).of_run application
      have live := applied.live live
      have clean := clean.of_mentioned (fun q hq => live.ids_nodup hq) live.nonempty
        applied.mentioned_subset
      have fires := detected.fires (live.mono (by omega)) clean h.solver c hc
      exact ⟨ps, applied, live.toOrderly, clean, fires⟩

/-- Where solutions are not scored, a contradiction is reported at first. -/
lemma Sound.reports (h : st.Sound) {older newer : Program} {a b : Rule} {ls : List Literal}
    (contradiction : UpdateSequence.Contradiction st.mark older newer a b ls)
    (programs : st.programs = [older, newer])
    (unscored : st.sequence.settings.scoreSolutions = false) (exact : st.solver.Exact) :
    ∃ o st₁ c, Run st [o] st₁ ∧ st₁.programs = [older, newer] ∧ c ∈ st₁.offered ∧ c.older = a ∧
      c.newer = b := by
  obtain ⟨f, u, s, g, run, same, c, hc, older_eq, newer_eq, -⟩ := UpdateSequence.detect_offers
    (g := { nextId := st.next }) contradiction programs unscored exact h.live.toOrderly
  exact ⟨_, _, c, .cons (.detect (Nat.le_refl _) run) .nil, same.trans programs, hc, older_eq,
    newer_eq⟩

/-- **Indirect solutions resolve their pair**, if no rule that they modify is also in another
program.  Let a session begin with programs that were read and are clean, and let a conflict be
reported in it.  If an indirect solution of it is accepted, whichever of its versions have been
swapped in, then the detection that follows does not report the two rules again. -/
theorem indirect_resolves {found : List Solution} {scored : Solution} {g₀ g₁ : Ledger}
    (opened : st.Opened) (clean : Clean st.mark st.programs) (before : Run st os st₁)
    (reported : c ∈ st₁.offered)
    (indirect : (indirectSolutions st₁.programs c).run g₀ = (.ok found, g₁)) (member : sol ∈ found)
    (unshared : ∀ v ∈ sol.modifications, ∀ q ∈ rulesOf st₁.programs, v.id = q.id →
      ∀ r ∈ rulesOf st₁.programs, q.toClause ≈ r.toClause → q = r)
    (same : scored.SameEdit sol) (swapped : scored.Swapped sol') (later : st₁.next ≤ g.nextId)
    (run : (st₁.sequence.accept (some sol')).run st₁.solver g = (((o, u), s), g'))
    (accepted : UpdateSequence.Accepted o) : ∀ c' ∈ reports o, c'.pair ≠ c.pair := by
  intro c' hc' pair
  have sound := before.sound opened.sound
  have orderly := sound.live.toOrderly
  have clean := clean.of_mentioned (fun q hq => orderly.ids_nodup hq) orderly.nonempty
    (before.mentions opened.sound)
  rw [← before.mark_eq opened.sound] at clean
  obtain ⟨⟨ha, hb, -⟩, -⟩ := sound.offered c reported
  obtain ⟨d, l, deprives⟩ := (indirectSolutions_yields orderly ha hb 0).of_run_ok
    (Nat.zero_le _) indirect sol member
  obtain ⟨rs, excludes, covers⟩ := deprives.excludes
  have unshared : ∀ q ∈ rs, ∀ r ∈ rulesOf st₁.programs, q.toClause ≈ r.toClause → q = r := by
    intro q hq
    have taken : q.id ∈ sol.modifications.map Rule.id := excludes.ids ▸ List.mem_map_of_mem hq
    obtain ⟨v, hv, id⟩ := List.mem_map.1 taken
    exact unshared v hv q (excludes.there q hq) id
  have excludes := (excludes.of_sameEdit same).swapped swapped
  obtain ⟨ps, applied, orderly', clean', m, p, held, fires⟩ :=
    sound.accept_fires clean (.excludes excludes) later run accepted hc'
  have grown := applied.grown (orderly.mono later)
  obtain ⟨older, newer⟩ := fires.of_grown grown orderly' ha hb pair
  have older_holds := older.holdsIn fires.older_holds
  have newer_holds := newer.holdsIn fires.newer_holds
  obtain ⟨-, reference_holds⟩ :=
    Conflict.forall_directions (P := (·.HoldsIn held)) deprives.direction older_holds newer_holds
  -- the rejected rule fires, and so some rule derives the literal
  obtain ⟨⟨r, hr, holds, extension⟩, -⟩ := Conflict.forall_directions
    (P := fun q => ∃ r, (r ∈ m.rules ∨ r ∈ p.rules) ∧ r.HoldsIn held ∧ r.Extends q)
    deprives.direction ⟨_, Or.inl fires.older, fires.older_holds, older⟩
    ⟨_, Or.inr fires.newer, fires.newer_holds, newer⟩
  obtain ⟨q, hq, head, derived⟩ :=
    fires.exists_rule clean' hr holds (extension.body l deprives.body)
  exact not_derived_of_excludes excludes applied clean ha hb covers unshared
    fires.answer.consistent older_holds newer_holds reference_holds hq head derived

/-- A conclusion is given up together with the fact that it depends on. -/
theorem indirect_resolves_support :
    let a : Literal := ⟨⟨"a", []⟩, false⟩
    let q : Literal := ⟨⟨"q", []⟩, false⟩
    let s : Literal := ⟨⟨"s", []⟩, false⟩
    let support : Rule := { head := some q, id := 1 }
    let conclusion : Rule := { head := some a, body := [q], label := 1, id := 2 }
    let exception : Rule := { head := some a.complement, negBody := [s], id := 3 }
    let version : Rule := { head := some q, body := [s], id := 1 }
    let indirect : Solution :=
      { modifications := [version], rootRule := some 2, target := some q }
    let older : Program := { name := "older", rules := [support, conclusion] }
    let newer : Program := { name := "newer", rules := [exception] }
    let sequence : UpdateSequence :=
      { settings := { scoreSolutions := false }, programs := [older, newer] }
    let st : Session := { sequence, solver := Solver.exact, next := 4 }
    st.Opened ∧ Clean st.mark st.programs ∧ ∃ o₁ st₁ c found g₁ o u t g', Run st [o₁] st₁ ∧
      c ∈ st₁.offered ∧ (indirectSolutions st₁.programs c).run {} = (.ok found, g₁) ∧
      indirect ∈ found ∧ (st₁.sequence.accept (some indirect)).run st₁.solver
        { nextId := st₁.next } = (((o, u), t), g') ∧ UpdateSequence.Accepted o ∧
      ∀ c' ∈ reports o, c'.pair ≠ (2, 3) := by
  intro a q s support conclusion exception version indirect older newer sequence st
  have opened : st.Opened := .pair rfl
    ⟨some "q. a :- q.", "older", older, { nextId := 1 }, { nextId := 3 }, rfl, by decide,
      by decide, rfl⟩
    ⟨some "-a :- not s.", "newer", newer, { nextId := 3 }, { nextId := 4 }, rfl, by decide,
      by decide, rfl⟩ (by decide) (by decide) exact_exact.sound rfl
  have contradiction : UpdateSequence.Contradiction st.mark older newer conclusion exception
      [q, a.complement] := by decide
  have clean : Clean st.mark st.programs := contradiction.clean
  obtain ⟨o₁, st₁, c, before, same, reported, ho, hn⟩ :=
    opened.sound.reports contradiction rfl rfl exact_exact
  have solutions : indirectSolutions st₁.programs c =
      indirectSolutions [older, newer] { older := conclusion, newer := exception } := by
    rw [same]
    exact Method.indirect.solutions_congr ho hn
  obtain ⟨g₁, found⟩ : ∃ g₁, (indirectSolutions st₁.programs c).run {} = (.ok [indirect], g₁) := by
    rw [solutions]
    exact ⟨_, Prod.ext (by decide +kernel) rfl⟩
  have member : indirect ∈ [indirect] := List.mem_singleton.2 rfl
  rcases accepting : (st₁.sequence.accept (some indirect)).run st₁.solver
    { nextId := st₁.next } with ⟨⟨⟨o, u⟩, t⟩, g'⟩
  have accepted : UpdateSequence.Accepted o := by
    refine (UpdateSequence.accept_outcome accepting).accepted rfl fun g => ?_
    refine ⟨[{ older with rules := [version, conclusion] }, newer], g, ?_⟩
    rw [show st₁.sequence.programs = _ from same]
    rfl
  have unshared : ∀ v ∈ indirect.modifications, ∀ x ∈ rulesOf st₁.programs, v.id = x.id →
      ∀ r ∈ rulesOf st₁.programs, x.toClause ≈ r.toClause → x = r := by
    rw [same]
    decide
  have final := indirect_resolves (g := { nextId := st₁.next }) opened clean before reported found
    member unshared (.refl indirect) .refl (Nat.le_refl _) accepting accepted
  rw [show c.pair = (2, 3) by rw [Conflict.pair, ho, hn]] at final
  exact ⟨opened, clean, o₁, st₁, c, _, g₁, o, u, t, g', before, reported, found, member, accepting,
    accepted, final⟩

/-- **Rejection solutions resolve their pair**, if its newer rule is one of the newest program.  Let
a session begin with programs that were read and are clean, and let a conflict be reported in it.
If a rejection solution of it is accepted, then the detection that follows does not report the two
rules again. -/
theorem rejection_resolves {found : List Solution} {scored : Solution} {g₀ g₁ : Ledger}
    (opened : st.Opened) (clean : Clean st.mark st.programs) (before : Run st os st₁)
    (reported : c ∈ st₁.offered) (supply : ∀ r ∈ rulesOf st₁.programs, r.id < g₀.nextId)
    (rejection : (rejectionSolutions st₁.programs c).run g₀ = (.ok found, g₁))
    (member : sol ∈ found) (newest : ∃ p, st₁.programs.getLast? = some p ∧ c.newer ∈ p.rules)
    (same : scored.SameEdit sol) (swapped : scored.Swapped sol')
    (later : st₁.next ≤ g.nextId ∧ g₁.nextId ≤ g.nextId)
    (run : (st₁.sequence.accept (some sol')).run st₁.solver g = (((o, u), s), g'))
    (accepted : UpdateSequence.Accepted o) : ∀ c' ∈ reports o, c'.pair ≠ c.pair := by
  intro c' hc' pair
  have sound := before.sound opened.sound
  have orderly := sound.live.toOrderly
  have clean := clean.of_mentioned (fun q hq => orderly.ids_nodup hq) orderly.nonempty
    (before.mentions opened.sound)
  rw [← before.mark_eq opened.sound] at clean
  obtain ⟨⟨ha, hb, -⟩, -⟩ := sound.offered c reported
  have supplied : Orderly g₀.nextId st₁.programs :=
    { orderly with numbered := fun r hr => ⟨(orderly.numbered r hr).1, supply r hr⟩ }
  obtain ⟨d, l, asserts⟩ := (rejectionSolutions_yields supplied ha hb (Nat.le_refl _)).of_run_ok
    (Nat.le_refl _) rejection sol member
  obtain ⟨r, addition, clause⟩ := (asserts.mono later.2).adds
  have addition := (addition.of_sameEdit same).rechosen swapped.rechosen
  obtain ⟨ps, applied, orderly', clean', m, p, held, fires⟩ :=
    sound.accept_fires clean (.adds addition) later.1 run accepted hc'
  have grown := applied.grown (orderly.mono later.1)
  obtain ⟨older, newer⟩ := fires.of_grown grown orderly' ha hb pair
  obtain ⟨rejected_holds, reference_holds⟩ := Conflict.forall_directions (P := (·.HoldsIn held))
    asserts.direction (older.holdsIn fires.older_holds) (newer.holdsIn fires.newer_holds)
  -- the new rule is in the program that is compared, and it fires whenever the reference rule does
  have there : r ∈ p.rules := addition.mem_newer applied orderly' newest fires pair
  have clean' := clean'.of_rules fires.compares.ids fires.compares.rules
  refine rejected_holds.2 l asserts.negBody (fires.answer.mem_of_newer clean' there ?_ ?_)
  · rw [clause]
  · rw [clause]
    exact reference_holds

/-- A default is given up once what it assumes not to hold is a fact. -/
theorem rejection_resolves_default :
    let a : Literal := ⟨⟨"a", []⟩, false⟩
    let l : Literal := ⟨⟨"l", []⟩, false⟩
    let default : Rule := { head := some a, negBody := [l], id := 1 }
    let exception : Rule := { head := some a.complement, id := 2 }
    let reason : Rule := { head := some l, label := 2, id := 3 }
    let rejection : Solution := { additions := [reason], rootRule := some 1, target := some l }
    let older : Program := { name := "older", rules := [default] }
    let newer : Program := { name := "newer", rules := [exception] }
    let sequence : UpdateSequence :=
      { settings := { scoreSolutions := false }, programs := [older, newer] }
    let st : Session := { sequence, solver := Solver.exact, next := 3 }
    st.Opened ∧ Clean st.mark st.programs ∧ ∃ o₁ st₁ c found g₁ g o u t g', Run st [o₁] st₁ ∧
      c ∈ st₁.offered ∧
      (rejectionSolutions st₁.programs c).run { nextId := 3 } = (.ok found, g₁) ∧
      rejection ∈ found ∧ st₁.next ≤ g.nextId ∧
      (st₁.sequence.accept (some rejection)).run st₁.solver g = (((o, u), t), g') ∧
      UpdateSequence.Accepted o ∧ ∀ c' ∈ reports o, c'.pair ≠ (1, 2) := by
  intro a l default exception reason rejection older newer sequence st
  have opened : st.Opened := .pair rfl
    ⟨some "a :- not l.", "older", older, { nextId := 1 }, { nextId := 2 }, rfl, by decide,
      by decide, rfl⟩
    ⟨some "-a.", "newer", newer, { nextId := 2 }, { nextId := 3 }, rfl, by decide, by decide, rfl⟩
    (by decide) (by decide) exact_exact.sound rfl
  have contradiction : UpdateSequence.Contradiction st.mark older newer default exception
      [a.complement] := by decide
  have clean : Clean st.mark st.programs := contradiction.clean
  obtain ⟨o₁, st₁, c, before, same, reported, ho, hn⟩ :=
    opened.sound.reports contradiction rfl rfl exact_exact
  have solutions : rejectionSolutions st₁.programs c =
      rejectionSolutions [older, newer] { older := default, newer := exception } := by
    rw [same]
    exact Method.rejectionRule.solutions_congr ho hn
  obtain ⟨g₁, found⟩ : ∃ g₁, (rejectionSolutions st₁.programs c).run { nextId := 3 } =
      (.ok [rejection], g₁) := by
    rw [solutions]
    exact ⟨_, Prod.ext (by decide +kernel) rfl⟩
  have member : rejection ∈ [rejection] := List.mem_singleton.2 rfl
  have supply : ∀ r ∈ rulesOf st₁.programs, r.id < 3 := by
    rw [same]
    decide
  have newest : ∃ p, st₁.programs.getLast? = some p ∧ c.newer ∈ p.rules := by
    rw [same, hn]
    exact ⟨newer, rfl, List.mem_singleton.2 rfl⟩
  let g : Ledger := { nextId := max st₁.next g₁.nextId }
  have later : st₁.next ≤ g.nextId ∧ g₁.nextId ≤ g.nextId :=
    ⟨Nat.le_max_left _ _, Nat.le_max_right _ _⟩
  rcases accepting : (st₁.sequence.accept (some rejection)).run st₁.solver g with ⟨⟨⟨o, u⟩, t⟩, g'⟩
  have accepted : UpdateSequence.Accepted o := by
    refine (UpdateSequence.accept_outcome accepting).accepted rfl fun g => ?_
    refine ⟨[older, { newer with rules := [exception, reason] }], g, ?_⟩
    rw [show st₁.sequence.programs = _ from same]
    rfl
  have final := rejection_resolves opened clean before reported supply found member newest
    (.refl rejection) .refl later accepting accepted
  rw [show c.pair = (1, 2) by rw [Conflict.pair, ho, hn]] at final
  exact ⟨opened, clean, o₁, st₁, c, _, g₁, g, o, u, t, g', before, reported, found, member, later.1,
    accepting, accepted, final⟩

end Session

end CausalUpdate
