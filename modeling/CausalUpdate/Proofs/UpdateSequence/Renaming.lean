import CausalUpdate.Proofs.Detection.Surviving
import CausalUpdate.Proofs.Program.Language
import CausalUpdate.Proofs.UpdateProgram.Renaming
import CausalUpdate.Proofs.UpdateSequence.Agreement

/-!
# Detecting under other names

A detection on two programs finds the same under other names for their predicates: conflicts between
the same rules, and the same answer sets and witnesses under the other names.  The update program
writes copies of the predicates next to them, so no name may look like a copy of another one, before
or after.

* `RenamedFindings` — what it means that the same is found.
* `UpdateSequence.detect_mapPredicate` — it is.
-/

namespace CausalUpdate

variable {mark : Mark} {f : String → String} {older newer : Program}

/-! ## Findings -/

/-- The second answer sets are the first ones under other names, in whatever order. -/
def RenamedSets (f : String → String) (ss ts : List AnswerSet) : Prop :=
  (ts.map AnswerSet.held).Perm (ss.map fun s => Literal.mapPredicate f '' s.held)

/-- The second findings are the first ones under other names. -/
structure RenamedFindings (f : String → String) (x y : Findings) : Prop where
  consistent : y.consistent = x.consistent
  answerSets : RenamedSets f x.answerSets y.answerSets
  pairs : ∀ pair, (∃ d ∈ y.conflicts, d.pair = pair) ↔ ∃ c ∈ x.conflicts, c.pair = pair
  conflicts : ∀ c ∈ x.conflicts, ∀ d ∈ y.conflicts, d.pair = c.pair →
    d.older = c.older.mapPredicate f ∧ d.newer = c.newer.mapPredicate f ∧
      RenamedSets f c.answerSets d.answerSets

/-- Lists are renamed if what they list is. -/
lemma ListsSets.renamed {names : List String} {ss ts : List AnswerSet}
    {described described' : Set Literal → Prop} (apart : TellsApart f names)
    (h : ListsSets ss described) (h' : ListsSets ts described')
    (over_names : ∀ held, described held → held ⊆ literalsOver names)
    (image : ∀ seen, described' seen ↔
      ∃ held, described held ∧ seen = Literal.mapPredicate f '' held) : RenamedSets f ss ts := by
  have inside : ∀ s ∈ ss, s.held ⊆ literalsOver names := fun s hs =>
    over_names _ ((h.mem_iff _).1 (List.mem_map_of_mem hs))
  have once : (ss.map fun s => Literal.mapPredicate f '' s.held).Nodup := by
    refine List.pairwise_map.2 ((List.pairwise_map.1 h.once).imp_of_mem ?_)
    intro s t hs ht different e
    exact different
      (((injOn_mapPredicate apart).image_eq_image_iff (inside s hs) (inside t ht)).1 e)
  refine (List.perm_ext_iff_of_nodup h'.once once).2 fun seen => ?_
  rw [h'.mem_iff, image, List.mem_map]
  constructor
  · rintro ⟨held, described, rfl⟩
    obtain ⟨s, hs, rfl⟩ := List.mem_map.1 ((h.mem_iff held).2 described)
    exact ⟨s, hs, rfl⟩
  · rintro ⟨s, hs, rfl⟩
    exact ⟨_, (h.mem_iff _).1 (List.mem_map_of_mem hs), rfl⟩

/-- An answer set of the renamed survivors in which renamed rules hold. -/
lemma exists_both_hold_iff {a b : Rule} (apart : TellsApart f (predicatesOf [older, newer]))
    (ha : a ∈ older.rules) (hb : b ∈ newer.rules) (seen : Set Literal) :
    (IsAnswerSet (survivors (older.mapPredicate f) (newer.mapPredicate f) seen).clauses seen ∧
      (a.mapPredicate f).HoldsIn seen ∧ (b.mapPredicate f).HoldsIn seen) ↔
    ∃ held, (IsAnswerSet (survivors older newer held).clauses held ∧
      a.HoldsIn held ∧ b.HoldsIn held) ∧ seen = Literal.mapPredicate f '' held := by
  have holds : ∀ {held}, IsAnswerSet (survivors older newer held).clauses held →
      ((a.mapPredicate f).HoldsIn (Literal.mapPredicate f '' held) ∧
        (b.mapPredicate f).HoldsIn (Literal.mapPredicate f '' held) ↔
          a.HoldsIn held ∧ b.HoldsIn held) := fun answer => and_congr
    (holdsIn_mapPredicate_iff apart answer.subset_literalsOver (rule_over (by simp) ha))
    (holdsIn_mapPredicate_iff apart answer.subset_literalsOver (rule_over (by simp) hb))
  rw [isAnswerSet_survivors_mapPredicate_iff apart]
  constructor
  · rintro ⟨⟨held, answer, rfl⟩, both⟩
    exact ⟨held, ⟨answer, (holds answer).1 both⟩, rfl⟩
  · rintro ⟨held, ⟨answer, both⟩, rfl⟩
    exact ⟨⟨held, answer, rfl⟩, (holds answer).2 both⟩

/-- The rules of a conflict in the renamed programs are renamed rules. -/
lemma Surviving.exists_rules {y : Findings}
    (h : Surviving (older.mapPredicate f) (newer.mapPredicate f) y) {d : Conflict}
    (hd : d ∈ y.conflicts) : ∃ a ∈ older.rules, ∃ b ∈ newer.rules,
      d.older = a.mapPredicate f ∧ d.newer = b.mapPredicate f := by
  obtain ⟨ha, hb, -⟩ := (h.reported _ _).1 ⟨d, hd, rfl, rfl⟩
  obtain ⟨a, ha, ea⟩ := Program.mem_mapPredicate.1 ha
  obtain ⟨b, hb, eb⟩ := Program.mem_mapPredicate.1 hb
  exact ⟨a, ha, b, hb, ea.symm, eb.symm⟩

/-- The same rules contradict each other under other names. -/
lemma Surviving.reported_mapPredicate_iff {x y : Findings} {a b : Rule}
    (apart : TellsApart f (predicatesOf [older, newer])) (h : Surviving older newer x)
    (h' : Surviving (older.mapPredicate f) (newer.mapPredicate f) y) (ha : a ∈ older.rules)
    (hb : b ∈ newer.rules) :
    (∃ d ∈ y.conflicts, d.older = a.mapPredicate f ∧ d.newer = b.mapPredicate f) ↔
      ∃ c ∈ x.conflicts, c.older = a ∧ c.newer = b := by
  rw [h.reported, h'.reported, opposed_mapPredicate_iff apart (rule_over (by simp) ha)
    (rule_over (by simp) hb)]
  simp only [exists_both_hold_iff apart ha hb, Program.mem_mapPredicate]
  constructor
  · rintro ⟨-, -, opposed, seen, held, both, -⟩
    exact ⟨ha, hb, opposed, held, both⟩
  · rintro ⟨-, -, opposed, held, both⟩
    exact ⟨⟨a, ha, rfl⟩, ⟨b, hb, rfl⟩, opposed, _, held, both, rfl⟩

lemma Conflict.pair_eq_of_mapPredicate {c d : Conflict}
    (older_eq : d.older = c.older.mapPredicate f) (newer_eq : d.newer = c.newer.mapPredicate f) :
    d.pair = c.pair := by
  rw [pair, pair, older_eq, newer_eq, Rule.id_mapPredicate, Rule.id_mapPredicate]

/-- **The same is found under other names.** -/
theorem Surviving.renamed {x y : Findings} (wf : WellFormed mark [older, newer])
    (apart : TellsApart f (predicatesOf [older, newer])) (h : Surviving older newer x)
    (h' : Surviving (older.mapPredicate f) (newer.mapPredicate f) y) : RenamedFindings f x y := by
  have sets : RenamedSets f x.answerSets y.answerSets :=
    h.answerSets.renamed apart h'.answerSets (fun _ answer => answer.subset_literalsOver)
      fun _ => isAnswerSet_survivors_mapPredicate_iff apart
  refine ⟨?_, sets, fun pair => ⟨?_, ?_⟩, fun c hc d hd e => ?_⟩
  · rw [Bool.eq_iff_iff, h.consistent, h'.consistent]
    have length := sets.length_eq
    rw [List.length_map, List.length_map] at length
    rw [← List.length_pos_iff, ← List.length_pos_iff, length]
  · rintro ⟨d, hd, rfl⟩
    obtain ⟨a, ha, b, hb, ea, eb⟩ := h'.exists_rules hd
    obtain ⟨c, hc, rfl, rfl⟩ := (h.reported_mapPredicate_iff apart h' ha hb).1 ⟨d, hd, ea, eb⟩
    exact ⟨c, hc, (Conflict.pair_eq_of_mapPredicate ea eb).symm⟩
  · rintro ⟨c, hc, rfl⟩
    obtain ⟨ha, hb, -⟩ := (h.reported _ _).1 ⟨c, hc, rfl, rfl⟩
    obtain ⟨d, hd, ea, eb⟩ := (h.reported_mapPredicate_iff apart h' ha hb).2 ⟨c, hc, rfl, rfl⟩
    exact ⟨d, hd, Conflict.pair_eq_of_mapPredicate ea eb⟩
  · obtain ⟨ha, hb, -⟩ := (h.reported _ _).1 ⟨c, hc, rfl, rfl⟩
    obtain ⟨a, ha', b, hb', ea, eb⟩ := h'.exists_rules hd
    rw [Conflict.pair, Conflict.pair, ea, eb, Prod.mk.injEq] at e
    obtain rfl := Program.eq_of_id_eq (wf.ids older (by simp)) ha' ha e.1
    obtain rfl := Program.eq_of_id_eq (wf.ids newer (by simp)) hb' hb e.2
    have witnesses := h'.witnesses d hd
    rw [ea, eb] at witnesses
    exact ⟨ea, eb, (h.witnesses c hc).renamed apart witnesses
      (fun _ both => both.1.subset_literalsOver) (exists_both_hold_iff apart ha hb)⟩

/-! ## Detections -/

/-- Two programs that were read, share no identifier and use no reserved predicate, and in which
equivalent atoms are written in the same way. -/
structure ReadPair (mark : Mark) (older newer : Program) : Prop where
  older_read : ∃ next, IsRead next older
  newer_read : ∃ next, IsRead next newer
  disjoint : ∀ id ∈ older.ids, id ∉ newer.ids
  unreserved : ∀ l ∈ mentioned [older, newer], l.atom.predicate ∉ mark.reservedPredicates
  coherent : ∀ l ∈ mentioned [older, newer], ∀ m ∈ mentioned [older, newer],
    l.atom ≈ m.atom → l.atom = m.atom

namespace ReadPair

lemma exists_read (h : ReadPair mark older newer) : ∀ p ∈ [older, newer], ∃ next, IsRead next p :=
  List.forall_mem_cons.2 ⟨h.older_read, by simpa using h.newer_read⟩

lemma rules (h : ReadPair mark older newer) {p : Program} (hp : p ∈ [older, newer]) : p.ids.Nodup ∧
    ∀ r ∈ p.rules, 0 < r.id ∧ r.isEmpty = false ∧ ∀ l ∈ r.literals, l.Readable := by
  obtain ⟨next, read⟩ := h.exists_read p hp
  obtain ⟨ids, -, rules⟩ := read.rules
  exact ⟨ids, fun r hr => ⟨(rules r hr).1, (rules r hr).2.2⟩⟩

lemma clean (h : ReadPair mark older newer) (uncopied : Uncopied (predicatesOf [older, newer])) :
    Clean mark [older, newer] where
  ids _ hp := (h.rules hp).1
  nonempty _ hp r hr := ((h.rules hp).2 r hr).2.1
  readable l hl := by
    obtain ⟨p, hp, r, hr, hl⟩ := mem_mentioned.1 hl
    exact ((h.rules hp).2 r hr).2.2 l hl
  unreserved := h.unreserved
  uncopied l hl m hm := uncopied _ (predicate_mem hl) _ (predicate_mem hm)
  coherent := h.coherent

lemma positive (h : ReadPair mark older newer) : Positive [older, newer] := by
  intro p hp id hid
  obtain ⟨r, hr, rfl⟩ := List.mem_map.1 hid
  exact ((h.rules hp).2 r hr).1

end ReadPair

namespace UpdateSequence

variable {u v : UpdateSequence} {s t : Solver}

/-- **The names of predicates do not matter to a detection.**  Let two programs be read that share
no identifier, use no reserved predicate and write equivalent atoms in the same way, and let their
predicates get other names that can be read and are not reserved, different ones for different
predicates.  With exact solvers a detection finds the same before and after, as long as no name
looks like a copy of another one; and it is not broken off, if identifiers can be read.  The two
detectors may have different marks. -/
theorem detect_mapPredicate (pair : ReadPair u.mark older newer)
    (renames : Renames v.mark f [older, newer])
    (uncopied : Uncopied (predicatesOf [older, newer]))
    (uncopied' : Uncopied ((predicatesOf [older, newer]).map f))
    (programs : u.programs = [older, newer])
    (renamed : v.programs = u.programs.map (Program.mapPredicate f))
    (exact : s.Exact) (exact' : t.Exact) :
    (Named u.programs → ∀ g,
      (∃ d s' g', (detectSequence u.mark u.programs).run s g = ((.ok d, s'), g')) ∧
      ∃ d t' g', (detectSequence v.mark v.programs).run t g = ((.ok d, t'), g')) ∧
    ∀ d d' u' v' s' t' g g' k k', u.detect.run s g = (((.ok d, u'), s'), g') →
      v.detect.run t k = (((.ok d', v'), t'), k') →
        ∃ x y, d = .completed x ∧ d' = .completed y ∧ RenamedFindings f x y := by
  have clean := pair.clean uncopied
  have clean' : Clean v.mark [older.mapPredicate f, newer.mapPredicate f] :=
    renames.clean clean uncopied'
  have positive' : Positive [older.mapPredicate f, newer.mapPredicate f] := by
    have positive := pair.positive
    simpa [Positive] using positive
  rw [programs] at renamed
  replace renamed : v.programs = [older.mapPredicate f, newer.mapPredicate f] := renamed
  constructor
  · intro named g
    rw [programs] at named
    have named' : Named [older.mapPredicate f, newer.mapPredicate f] := by
      simpa [Named, Program.mapPredicate, Rule.Named] using named
    rw [programs, renamed]
    exact ⟨detectPair_total clean named exact g, detectPair_total clean' named' exact' g⟩
  · intro d d' u' v' s' t' g g' k k' run run'
    obtain ⟨next, read⟩ := pair.older_read
    have rules := read.rules_ne_nil
    obtain ⟨x, rfl, surviving⟩ :=
      detect_surviving clean pair.positive pair.disjoint rules programs exact run
    obtain ⟨y, rfl, surviving'⟩ := detect_surviving clean' positive' (by simpa using pair.disjoint)
      (by simpa [Program.mapPredicate] using rules) renamed exact' run'
    exact ⟨x, y, rfl, rfl, surviving.renamed clean.toWellFormed renames.tellsApart surviving'⟩

/-- A fact and a loop through negation that may contradict it, before and after two predicates have
been exchanged and the third one has got a name that begins like `not`. -/
theorem detect_mapPredicate_loop :
    let fly : Literal := ⟨⟨"fly", ["tweety"]⟩, false⟩
    let sick : Literal := ⟨⟨"sick", []⟩, false⟩
    let well : Literal := ⟨⟨"well", []⟩, false⟩
    let older : Program := { name := "older", rules := [{ head := some fly, id := 1 }] }
    let newer : Program := { name := "newer", rules := [
      { head := some fly.complement, body := [sick], id := 2 },
      { head := some sick, negBody := [well], label := 1, id := 3 },
      { head := some well, negBody := [sick], label := 2, id := 4 }] }
    let f : String → String := fun q =>
      if q = "fly" then "sick" else if q = "sick" then "fly" else "notsick"
    let u : UpdateSequence := { programs := [older, newer], strategies := [] }
    let v : UpdateSequence :=
      { programs := u.programs.map (Program.mapPredicate f), strategies := [] }
    ReadPair u.mark older newer ∧ Renames v.mark f [older, newer] ∧
      Uncopied (predicatesOf [older, newer]) ∧ Uncopied ((predicatesOf [older, newer]).map f) ∧
      Solver.exact.Exact ∧ Named u.programs ∧
      ∃ d u' s g d' v' t k, u.detect.run Solver.exact {} = (((.ok d, u'), s), g) ∧
        v.detect.run Solver.exact {} = (((.ok d', v'), t), k) ∧
          ∃ x y, d = .completed x ∧ d' = .completed y ∧ RenamedFindings f x y := by
  intro fly sick well older newer f u v
  have pair : ReadPair u.mark older newer :=
    ⟨⟨2, some "fly(tweety).", "older", older, { nextId := 1 }, { nextId := 2 }, rfl, by decide,
        by decide, rfl⟩,
      ⟨5, some "-fly(tweety) :- sick. sick :- not well. well :- not sick.", "newer", newer,
        { nextId := 2 }, { nextId := 5 }, rfl, by decide, by decide, rfl⟩,
      by decide, by decide, by decide⟩
  have renames : Renames v.mark f [older, newer] := by decide
  have uncopied : Uncopied (predicatesOf [older, newer]) := by decide
  have uncopied' : Uncopied ((predicatesOf [older, newer]).map f) := by decide
  have named : Named u.programs := by decide
  obtain ⟨d, u', s, g, run⟩ := detect_total (u := u) rfl rfl exact_exact (pair.clean uncopied)
    named {}
  obtain ⟨d', v', t, k, run'⟩ := detect_total (u := v) rfl rfl exact_exact
    (renames.clean (pair.clean uncopied) uncopied') (by decide) {}
  exact ⟨pair, renames, uncopied, uncopied', exact_exact, named, d, u', s, g, d', v', t, k, run,
    run', (detect_mapPredicate (u := u) (v := v) pair renames uncopied uncopied' rfl rfl exact_exact
      exact_exact).2 _ _ _ _ _ _ _ _ _ _ run run'⟩

end UpdateSequence

end CausalUpdate
