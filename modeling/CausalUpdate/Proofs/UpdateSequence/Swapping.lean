import CausalUpdate.Proofs.Program.Reading
import CausalUpdate.Proofs.UpdateProgram.Swapping
import CausalUpdate.Proofs.UpdateSequence.Agreement

/-!
# Detecting with the programs in the other order

If two programs change places, then a detection reports the same pairs of rules, the other way
round, as long as nothing turns on what depends on a literal in dispute (`detect_swapped`).  Where a
rule in dispute does, it may contradict a rule of the other program in one order only
(`detect_asymmetric`): the fact that it needs is rejected in the other one.
-/

namespace CausalUpdate

/-! ## The same rules under other labels -/

section

variable {mark : Mark} {older newer older' newer' : Program} {held : Set Literal} {c : Clause}

lemma mem_survivors_iff_clauses : c ∈ (survivors older newer held).clauses ↔
    (c ∈ older.clauses ∧ ¬ ∃ d ∈ newer.clauses, c.Opposed d ∧ c.HoldsIn held ∧ d.HoldsIn held) ∨
      c ∈ newer.clauses := by
  rw [mem_survivors]
  simp only [Program.clauses, List.mem_map, Overruled]
  constructor
  · rintro (⟨a, ha, survives, rfl⟩ | newer)
    · refine Or.inl ⟨⟨a, ha, rfl⟩, ?_⟩
      rintro ⟨_, ⟨b, hb, rfl⟩, both⟩
      exact survives ⟨b, hb, both⟩
    · exact Or.inr newer
  · rintro (⟨⟨a, ha, rfl⟩, survives⟩ | newer)
    · refine Or.inl ⟨a, ha, ?_, rfl⟩
      rintro ⟨b, hb, both⟩
      exact survives ⟨_, ⟨b, hb, rfl⟩, both⟩
    · exact Or.inr newer

section

variable (same : SameRules older' older) (same' : SameRules newer' newer)

include same same'

lemma isAnswerSet_survivors_congr :
    IsAnswerSet (survivors older' newer' held).clauses held ↔
      IsAnswerSet (survivors older newer held).clauses held := by
  refine isAnswerSet_congr fun c => ?_
  rw [mem_survivors_iff_clauses, mem_survivors_iff_clauses, same.clauses_eq, same'.clauses_eq]

lemma headClashes_subset_of_same : headClashes older' newer' ⊆ headClashes older newer := by
  rintro _ ⟨a', ha', b', hb', rfl, opposed, held, answer, older_holds, newer_holds⟩
  obtain ⟨a, ha, a_id, a_clause⟩ := same.exists_rule ha'
  obtain ⟨b, hb, b_id, b_clause⟩ := same'.exists_rule hb'
  rw [← a_clause, ← b_clause] at opposed
  rw [← a_clause] at older_holds
  rw [← b_clause] at newer_holds
  exact ⟨a, ha, b, hb, by rw [a_id, b_id], opposed, held,
    (isAnswerSet_survivors_congr same same').1 answer, older_holds, newer_holds⟩

/-- Labels do not matter to which rules clash. -/
lemma headClashes_congr : headClashes older' newer' = headClashes older newer :=
  Set.Subset.antisymm (headClashes_subset_of_same same same')
    (headClashes_subset_of_same same.symm same'.symm)

lemma exists_rule_of_same {r' : Rule} (hr' : r' ∈ rulesOf [older', newer']) :
    ∃ r ∈ rulesOf [older, newer], r.id = r'.id ∧ r.toClause = r'.toClause := by
  rcases mem_rulesOf_pair.1 hr' with ha' | hb'
  · obtain ⟨a, ha, alike⟩ := same.exists_rule ha'
    exact ⟨a, mem_rulesOf_pair.2 (Or.inl ha), alike⟩
  · obtain ⟨b, hb, alike⟩ := same'.exists_rule hb'
    exact ⟨b, mem_rulesOf_pair.2 (Or.inr hb), alike⟩

lemma Named.of_same (named : Named [older, newer]) : Named [older', newer'] := by
  intro p hp r' hr'
  obtain ⟨r, hr, id, -⟩ := exists_rule_of_same same same' (mem_rulesOf.2 ⟨p, hp, hr'⟩)
  obtain ⟨q, hq, hr⟩ := mem_rulesOf.1 hr
  rw [Rule.Named, ← id]
  exact named q hq r hr

/-- Labels do not matter to whether programs are clean. -/
lemma Clean.of_same (clean : Clean mark [older, newer]) : Clean mark [older', newer'] := by
  refine clean.of_mentioned (fun p hp => ?_) (fun r' hr' => ?_) fun l hl => ?_
  · rcases List.mem_pair.1 hp with rfl | rfl
    · rw [same.ids_eq]
      exact clean.ids older (by simp)
    · rw [same'.ids_eq]
      exact clean.ids newer (by simp)
  · obtain ⟨r, hr, -, clause⟩ := exists_rule_of_same same same' hr'
    obtain ⟨p, hp, hr⟩ := mem_rulesOf.1 hr
    rw [← clause]
    exact clean.nonempty p hp r hr
  · obtain ⟨r', hr', inside⟩ := mem_mentioned_iff_rulesOf.1 hl
    obtain ⟨r, hr, -, clause⟩ := exists_rule_of_same same same' hr'
    exact mem_mentioned_iff_rulesOf.2 ⟨r, hr, clause ▸ inside⟩

end

end

/-! ## Detections -/

/-- The pairs of rules that are reported, without regard to which rule is the newer one. -/
def Detection.clashes (d : Detection) : Set (Sym2 Int) :=
  {pair | ∃ c ∈ d.findings.conflicts, s(c.older.id, c.newer.id) = pair}

lemma Surviving.clashes_eq {older newer : Program} {x : Findings} (h : Surviving older newer x) :
    (Detection.completed x).clashes = headClashes older newer := by
  ext pair
  constructor
  · rintro ⟨c, hc, rfl⟩
    obtain ⟨ha, hb, clash⟩ := (h.reported _ _).1 ⟨c, hc, rfl, rfl⟩
    exact ⟨_, ha, _, hb, rfl, clash⟩
  · rintro ⟨a, ha, b, hb, rfl, clash⟩
    obtain ⟨c, hc, rfl, rfl⟩ := (h.reported a b).2 ⟨ha, hb, clash⟩
    exact ⟨c, hc, rfl⟩

namespace UpdateSequence

variable {u v : UpdateSequence} {s t : Solver} {older newer older' newer' : Program}

/-- A detection reports the rules that clash. -/
lemma detect_clashes {u' : UpdateSequence} {s' : Solver} {g g' : Ledger} {d : Detection}
    (clean : Clean u.mark [older, newer]) (positive : Positive [older, newer])
    (disjoint : ∀ id ∈ older.ids, id ∉ newer.ids) (programs : u.programs = [older, newer])
    (exact : s.Exact) (run : u.detect.run s g = (((.ok d, u'), s'), g')) :
    d.clashes = headClashes older newer := by
  rcases detect_surviving_or_refused clean positive disjoint programs exact run with
    ⟨x, rfl, surviving⟩ | ⟨empty, -, e, -, rfl⟩
  · exact surviving.clashes_eq
  · ext pair
    constructor
    · rintro ⟨c, hc, -⟩
      exact absurd hc List.not_mem_nil
    · rintro ⟨a, ha, -⟩
      rw [empty older (by simp)] at ha
      exact absurd ha List.not_mem_nil

lemma Contradiction.clash {mark : Mark} {a b : Rule} {ls : List Literal}
    (h : Contradiction mark older newer a b ls) : s(a.id, b.id) ∈ headClashes older newer :=
  ⟨a, h.mem_older, b, h.mem_newer, rfl, h.opposed, _, isAnswerSet_survivors h.lists,
    h.older_holds, h.newer_holds⟩

/-- **The order of two programs does not matter to what clashes**, as long as nothing turns on what
depends on a literal in dispute.  Let two programs be clean, with identifiers of their own, and let
the same rules be compared in the other order, possibly under other labels.  With exact solvers both
detections are not broken off, if identifiers can be read.  Either one reports nothing but rules of
the two programs that may contradict each other; and they report the same pairs of rules, if some
literals are inert among which there are all in dispute.  The two detectors may have different
marks. -/
theorem detect_swapped (clean : Clean u.mark [older, newer])
    (clean' : Clean v.mark [older, newer]) (positive : Positive [older, newer])
    (disjoint : ∀ id ∈ older.ids, id ∉ newer.ids) (programs : u.programs = [older, newer])
    (swapped : v.programs = [newer', older']) (same : SameRules older' older)
    (same' : SameRules newer' newer) (exact : s.Exact) (exact' : t.Exact) :
    (Named u.programs → ∀ g,
      (∃ d s' g', (detectSequence u.mark u.programs).run s g = ((.ok d, s'), g')) ∧
      ∃ d t' g', (detectSequence v.mark v.programs).run t g = ((.ok d, t'), g')) ∧
    ∀ d d' u' v' s' t' g g' k k', u.detect.run s g = (((.ok d, u'), s'), g') →
      v.detect.run t k = (((.ok d', v'), t'), k') →
        (∀ pair ∈ d.clashes ∪ d'.clashes, ∃ a ∈ older.rules, ∃ b ∈ newer.rules,
          s(a.id, b.id) = pair ∧ a.Opposed b.toClause ∧ ¬ Exclusive a.toClause b.toClause) ∧
        ∀ ts, Inert older newer ts → d.clashes = d'.clashes := by
  replace clean' : Clean v.mark [newer', older'] := clean'.swap.of_same same' same
  constructor
  · intro named g
    rw [programs] at named
    have named' : Named [newer', older'] :=
      Named.of_same same' same fun p hp => named p (by simpa [or_comm] using hp)
    rw [programs, swapped]
    exact ⟨detectPair_total clean named exact g, detectPair_total clean' named' exact' g⟩
  · intro d d' u' v' s' t' g g' k k' run run'
    have positive' : Positive [newer', older'] := by
      simpa [Positive, same.ids_eq, same'.ids_eq, and_comm] using positive
    have disjoint' : ∀ id ∈ newer'.ids, id ∉ older'.ids := by
      rw [same.ids_eq, same'.ids_eq]
      exact fun id hid hid' => disjoint id hid' hid
    rw [detect_clashes clean positive disjoint programs exact run,
      detect_clashes clean' positive' disjoint' swapped exact' run', headClashes_congr same' same]
    refine ⟨?_, fun ts inert => inert.headClashes_eq clean⟩
    rintro pair (clash | clash)
    · exact free_of_mem_headClashes clean clash
    · obtain ⟨b, hb, a, ha, rfl, opposed, free⟩ := free_of_mem_headClashes clean.swap clash
      exact ⟨a, ha, b, hb, Sym2.eq_swap, opposed.symm, fun exclusive => free exclusive.symm⟩

/-- A fact, what follows from it and is used nowhere else, and an exception to the fact. -/
theorem detect_swapped_exception :
    let fly : Literal := ⟨⟨"fly", ["tweety"]⟩, false⟩
    let happy : Literal := ⟨⟨"happy", ["tweety"]⟩, false⟩
    let well : Literal := ⟨⟨"well", []⟩, false⟩
    let older : Program := { name := "older", rules := [
      { head := some fly, id := 1 }, { head := some happy, body := [fly], label := 1, id := 2 }] }
    let newer : Program := { name := "newer", rules := [
      { head := some fly.complement, negBody := [well], label := 2, id := 3 }] }
    let newer' : Program := { newer with rules := newer.rules.map (Rule.withLabel · 0) }
    let u : UpdateSequence := { programs := [older, newer], strategies := [] }
    let v : UpdateSequence := { programs := [newer', older], strategies := [] }
    Clean u.mark [older, newer] ∧ Clean v.mark [older, newer] ∧ Positive [older, newer] ∧
      (∀ id ∈ older.ids, id ∉ newer.ids) ∧ SameRules older older ∧ SameRules newer' newer ∧
      Solver.exact.Exact ∧ Named u.programs ∧ Inert older newer [fly, fly.complement, happy] ∧
      ∃ d u' s g d' v' t k, u.detect.run Solver.exact {} = (((.ok d, u'), s), g) ∧
        v.detect.run Solver.exact {} = (((.ok d', v'), t), k) ∧ s(1, 3) ∈ d.clashes ∧
        d.clashes = d'.clashes := by
  intro fly happy well older newer newer' u v
  have contradiction : Contradiction u.mark older newer { head := some fly, id := 1 }
      { head := some fly.complement, negBody := [well], label := 2, id := 3 }
      [fly.complement] := by decide
  have clean := contradiction.clean
  have clean' : Clean v.mark [older, newer] := by decide
  have named := contradiction.named
  have disjoint : ∀ id ∈ older.ids, id ∉ newer.ids := by decide
  have same : SameRules newer' newer := rfl
  have inert : Inert older newer [fly, fly.complement, happy] := by decide
  obtain ⟨d, u', s, g, run⟩ := detect_total (u := u) rfl rfl exact_exact clean named {}
  obtain ⟨d', v', t, k, run'⟩ := detect_total (u := v) rfl rfl exact_exact
    (clean'.swap.of_same same rfl) (by decide) {}
  have clash : s(1, 3) ∈ d.clashes := by
    rw [detect_clashes clean named.positive disjoint rfl exact_exact run]
    exact contradiction.clash
  obtain ⟨-, equal⟩ := (detect_swapped clean clean' named.positive disjoint (u := u) (v := v) rfl
    rfl rfl same exact_exact exact_exact).2 _ _ _ _ _ _ _ _ _ _ run run'
  exact ⟨clean, clean', named.positive, disjoint, rfl, same, exact_exact, named, inert, d, u', s, g,
    d', v', t, k, run, run', clash, equal _ inert⟩

/-- **What depends on a fact in dispute clashes in one order only.**  Rejecting the fact keeps the
rule that needs it from contradicting the other program. -/
theorem detect_asymmetric :
    let a : Literal := ⟨⟨"a", []⟩, false⟩
    let c : Literal := ⟨⟨"c", []⟩, false⟩
    let older : Program := { name := "P", rules := [
      { head := some a, id := 101 }, { head := some c, body := [a], id := 102 }] }
    let newer : Program := { name := "Q", rules := [
      { head := some a.complement, id := 103 }, { head := some c.complement, id := 104 }] }
    let u : UpdateSequence := { programs := [older, newer], strategies := [] }
    let v : UpdateSequence := { programs := [newer, older], strategies := [] }
    Clean u.mark [older, newer] ∧ Clean v.mark [older, newer] ∧ Positive [older, newer] ∧
      (∀ id ∈ older.ids, id ∉ newer.ids) ∧ Solver.exact.Exact ∧
      ∃ d u' s g d' v' t k, u.detect.run Solver.exact {} = (((.ok d, u'), s), g) ∧
        v.detect.run Solver.exact {} = (((.ok d', v'), t), k) ∧
        s(102, 104) ∉ d.clashes ∧ s(102, 104) ∈ d'.clashes ∧ d.clashes ≠ d'.clashes := by
  intro a c older newer u v
  have clean : Clean u.mark [older, newer] := by decide
  have clean' : Clean v.mark [older, newer] := by decide
  have named : Named [older, newer] := by decide
  have disjoint : ∀ id ∈ older.ids, id ∉ newer.ids := by decide
  have contradiction : Contradiction v.mark newer older { head := some c.complement, id := 104 }
      { head := some c, body := [a], id := 102 } [a, c] := by decide
  obtain ⟨d, u', s, g, run⟩ := detect_total (u := u) rfl rfl exact_exact clean named {}
  obtain ⟨d', v', t, k, run'⟩ :=
    detect_total (u := v) rfl rfl exact_exact clean'.swap (by decide) {}
  have apart : s(102, 104) ∉ d.clashes := by
    rw [detect_clashes clean named.positive disjoint rfl exact_exact run]
    rintro ⟨x, hx, y, hy, pair, -, held, answer, holds, -⟩
    have body : x.body = [a] := by
      simp only [older, newer, List.mem_cons, List.not_mem_nil, or_false] at hx hy
      rcases hx with rfl | rfl <;> rcases hy with rfl | rfl <;> simp at pair ⊢
    have fact : ({ head := some a.complement, id := 103 } : Rule) ∈ newer.rules := by simp [newer]
    have rejected : a.complement ∈ held := answer.mem_iff.2
      ⟨_, mem_survivors.2 (Or.inr ⟨_, fact, rfl⟩), rfl, by simp, by simp⟩
    exact answer.consistent a (holds.1 a (by simp [body])) rejected
  have together : s(102, 104) ∈ d'.clashes := by
    rw [detect_clashes clean'.swap contradiction.named.positive (by decide) rfl exact_exact run']
    exact Sym2.eq_swap ▸ contradiction.clash
  exact ⟨clean, clean', named.positive, disjoint, exact_exact, d, u', s, g, d', v', t, k, run, run',
    apart, together, fun e => apart (e ▸ together)⟩

end UpdateSequence

end CausalUpdate
