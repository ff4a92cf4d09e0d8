import CausalUpdate.Proofs.Conflict.Naming
import CausalUpdate.Proofs.Solver.Exact
import Mathlib.Data.List.Pairwise

/-!
# The conflicts that are extracted

From the models of an update program, the conflicts between its programs are extracted exactly: the
pairs of rules with complementary heads whose bodies some answer set satisfies, each once, and each
with all such answer sets.  This needs identifiers that the programs do not share, since causes that
exchange their rules are equivalent, and that can be read as numbers.

* `ExactConflicts` — what is to be extracted.
* `extractConflicts_exact` — it is.
-/

namespace CausalUpdate

/-- The conflicts are those that the answer sets show, in the way described above. -/
structure ExactConflicts (older newer : Program) (answerSets : List AnswerSet)
    (conflicts : List Conflict) : Prop where
  once : (conflicts.map fun c => (c.older, c.newer)).Nodup
  reported : ∀ a b, (∃ c ∈ conflicts, c.older = a ∧ c.newer = b) ↔
    a ∈ older.rules ∧ b ∈ newer.rules ∧ a.Opposed b.toClause ∧
      ∃ s ∈ answerSets, s.Satisfies a.toClause ∧ s.Satisfies b.toClause
  witnesses : ∀ c ∈ conflicts, c.answerSets =
    (answerSets.filter fun s => s.Satisfies c.older.toClause ∧ s.Satisfies c.newer.toClause).map
      fun s => s.restrictedTo (Program.literalBase [older, newer])
  distinct : ∀ c ∈ conflicts, c.answerSets.Pairwise fun s t => ¬ s ≈ t

/-! ## Witnesses -/

section

variable {mark : Mark} {older newer : Program} {held : Set Literal} {s : AnswerSet} {a b : Rule}

/-- Every literal that names a pair counts once. -/
lemma map_filter_namedPairs {pair : Int × Int} {x : Literal} {w : AnswerSet} {ls : List Literal}
    (h : ∀ l ∈ ls, l.namedPair? mark = some pair ↔ l = x) :
    ((namedPairs mark (ls.map fun l => (l, w))).filter fun s => s.1 = pair).map Prod.snd =
      List.replicate (ls.count x) w := by
  induction ls with
  | nil => rfl
  | cons l ls ih =>
      have ih := ih fun m hm => h m (List.mem_cons_of_mem _ hm)
      have hl := h l List.mem_cons_self
      rw [namedPairs] at ih ⊢
      rw [List.map_cons, List.filterMap_cons]
      by_cases e : l = x
      · simp only [hl.2 e, Option.map_some]
        rw [List.filter_cons_of_pos (by simp), List.map_cons, ih, e, List.count_cons_self,
          List.replicate_succ]
      · rw [List.count_cons_of_ne e, ← ih]
        cases hp : l.namedPair? mark with
        | none => simp
        | some q =>
            have hq : q ≠ pair := fun hq => e (hl.1 (hp.trans (congrArg some hq)))
            simp [hq]

lemma namedPairs_append (xs ys : List (Literal × AnswerSet)) :
    namedPairs mark (xs ++ ys) = namedPairs mark xs ++ namedPairs mark ys :=
  List.filterMap_append

lemma nodup_sorted (s : AnswerSet) : s.sorted.Nodup := by
  have nodup : s.literals.Nodup := by
    refine s.distinct.imp ?_
    rintro l _ h rfl
    exact h (Setoid.refl l)
  exact (List.mergeSort_perm _ _).nodup_iff.2 nodup

/-- A set shows a pair of rules once, if it holds their cause, and not at all otherwise. -/
lemma map_filter_sightings (wf : WellFormed mark [older, newer])
    (positive : Positive [older, newer])
    (literals : ∀ l ∈ s.literals, UpdateLiteral mark older newer l)
    (read : ∀ l ∈ s.literals, ∃ o, l.causePair mark = .ok o) (ha : a ∈ older.rules)
    (hb : b ∈ newer.rules) (base : List Literal) :
    ((namedPairs mark (sightings base s)).filter fun x => x.1 = (a.id, b.id)).map Prod.snd =
      if a.rejectedBy mark b ∈ s.literals then [s.restrictedTo base] else [] := by
  rw [sightings, map_filter_namedPairs fun l hl =>
    (literals l (mem_sorted.1 hl)).namedPair?_eq_some_iff wf positive (read l (mem_sorted.1 hl))
      ha hb]
  split
  · rename_i hx
    rw [List.count_eq_one_of_mem (nodup_sorted s) (mem_sorted.2 hx)]
    rfl
  · rename_i hx
    rw [List.count_eq_zero_of_not_mem fun h => hx (mem_sorted.1 h)]
    rfl

/-- The witnesses of a pair are the sets that hold its cause. -/
lemma map_filter_all_sightings (wf : WellFormed mark [older, newer])
    (positive : Positive [older, newer]) {answerSets : List AnswerSet}
    (literals : ∀ s ∈ answerSets, ∀ l ∈ s.literals, UpdateLiteral mark older newer l)
    (read : ∀ s ∈ answerSets, ∀ l ∈ s.literals, ∃ o, l.causePair mark = .ok o)
    (ha : a ∈ older.rules) (hb : b ∈ newer.rules) (base : List Literal) :
    ((namedPairs mark (answerSets.flatMap (sightings base))).filter
      fun x => x.1 = (a.id, b.id)).map Prod.snd =
        (answerSets.filter fun s => a.rejectedBy mark b ∈ s.literals).map
          fun s => s.restrictedTo base := by
  induction answerSets with
  | nil => rfl
  | cons s answerSets ih =>
      have ih := ih (fun t ht => literals t (List.mem_cons_of_mem _ ht))
        fun t ht => read t (List.mem_cons_of_mem _ ht)
      rw [List.flatMap_cons, namedPairs_append, List.filter_append, List.map_append, ih,
        map_filter_sightings wf positive (literals s List.mem_cons_self)
          (read s List.mem_cons_self) ha hb]
      split
      · rename_i hx
        rw [List.filter_cons_of_pos (by simpa using hx), List.map_cons]
        rfl
      · rename_i hx
        rw [List.filter_cons_of_neg (by simpa using hx)]
        rfl

/-- If no identifier is shared, no cause is lost in reading. -/
lemma Represents.cause_mem_iff (clean : Clean mark [older, newer])
    (disjoint : ∀ id ∈ older.ids, id ∉ newer.ids)
    (answer : IsAnswerSet (updateClauses mark older newer) held) (h : Represents s held)
    (ha : a ∈ older.rules) (hb : b ∈ newer.rules) :
    a.rejectedBy mark b ∈ s.literals ↔ a.rejectedBy mark b ∈ held := by
  refine ⟨h.sound _, fun hm => ?_⟩
  obtain ⟨m, hm, e⟩ := h.complete _ hm
  have hx := answer.updateLiteral (h.sound m hm)
  rcases (UpdateLiteral.rejectedBy ha hb).eq_of_equiv clean hx e with rfl | ⟨-, cause⟩
  · exact hm
  · obtain ⟨a', -, b', hb', rfl⟩ :=
      answer.exists_rules_of_isCause clean.toWellFormed (h.sound _ hm) cause
    have there := e.1.2.1 a.constant (by simp [Rule.rejectedBy])
    simp only [Rule.rejectedBy, List.mem_cons, List.not_mem_nil, or_false] at there
    rcases there with there | there
    · rwa [Rule.rejectedBy_eq_of_equiv e (Or.inl there)]
    · refine absurd (List.mem_map_of_mem hb') (disjoint b'.id ?_)
      rw [← Rule.constant_inj.1 there]
      exact List.mem_map_of_mem ha

/-- A set shows a pair of opposed rules exactly if it satisfies the bodies of both. -/
lemma Represents.cause_mem_iff_satisfies (clean : Clean mark [older, newer])
    (disjoint : ∀ id ∈ older.ids, id ∉ newer.ids)
    (answer : IsAnswerSet (updateClauses mark older newer) held) (h : Represents s held)
    (ha : a ∈ older.rules) (hb : b ∈ newer.rules) : a.rejectedBy mark b ∈ s.literals ↔
      a.Opposed b.toClause ∧ s.Satisfies a.toClause ∧ s.Satisfies b.toClause := by
  rw [h.cause_mem_iff clean disjoint answer ha hb,
    answer.rejectedBy_mem_iff clean.toWellFormed ha hb, h.satisfies_iff clean answer (by simp) ha,
    h.satisfies_iff clean answer (by simp) hb]

/-! ## Extraction -/

variable {answerSets : List AnswerSet}

/-- What is recorded from the sets is exact, if the causes in them can be read. -/
lemma exactConflicts_of_read (clean : Clean mark [older, newer])
    (positive : Positive [older, newer]) (disjoint : ∀ id ∈ older.ids, id ∉ newer.ids)
    (h : ReadSets mark older newer answerSets)
    (read : ∀ s ∈ answerSets, ∀ l ∈ s.literals, ∃ o, l.causePair mark = .ok o)
    {conflicts : List Conflict}
    (recorded : Recorded older newer (namedPairs mark (answerSets.flatMap
      (sightings (Program.literalBase [older, newer])))) conflicts) :
    ExactConflicts older newer answerSets conflicts := by
  have wf := clean.toWellFormed
  have rules : ∀ c ∈ conflicts, c.older ∈ older.rules ∧ c.newer ∈ newer.rules := fun c hc =>
    ⟨Program.mem_of_find? (recorded.found c hc).1, Program.mem_of_find? (recorded.found c hc).2⟩
  have shows : ∀ {a b}, a ∈ older.rules → b ∈ newer.rules → ∀ s ∈ answerSets,
      (a.rejectedBy mark b ∈ s.literals ↔
        a.Opposed b.toClause ∧ s.Satisfies a.toClause ∧ s.Satisfies b.toClause) := by
    intro a b ha hb s hs
    obtain ⟨held, answer, represents⟩ := h.read s hs
    exact represents.cause_mem_iff_satisfies clean disjoint answer ha hb
  -- a pair is named exactly when some set holds its cause
  have pairs : ∀ {a b}, a ∈ older.rules → b ∈ newer.rules →
      ((∃ x ∈ namedPairs mark (answerSets.flatMap (sightings (Program.literalBase [older, newer]))),
        x.1 = (a.id, b.id)) ↔ ∃ s ∈ answerSets, a.rejectedBy mark b ∈ s.literals) := by
    intro a b ha hb
    constructor
    · rintro ⟨x, hx, e⟩
      obtain ⟨y, hy, hp⟩ := List.mem_filterMap.1 hx
      obtain ⟨s, hs, hl, -⟩ := mem_sightings.1 hy
      obtain ⟨q, hq, rfl⟩ := Option.map_eq_some_iff.1 hp
      have hq : y.1.namedPair? mark = some (a.id, b.id) := hq.trans (congrArg some e)
      rw [(h.updateLiteral hs hl).namedPair?_eq_some_iff wf positive (read s hs _ hl) ha hb] at hq
      exact ⟨s, hs, hq ▸ hl⟩
    · rintro ⟨s, hs, hl⟩
      refine ⟨((a.id, b.id), s.restrictedTo (Program.literalBase [older, newer])), ?_, rfl⟩
      refine List.mem_filterMap.2 ⟨(a.rejectedBy mark b, _), mem_sightings.2 ⟨s, hs, hl, rfl⟩, ?_⟩
      rw [((h.updateLiteral hs hl).namedPair?_eq_some_iff wf positive (read s hs _ hl) ha hb).2 rfl]
      rfl
  have witnesses : ∀ c ∈ conflicts, c.answerSets =
      (answerSets.filter fun s => s.Satisfies c.older.toClause ∧ s.Satisfies c.newer.toClause).map
        fun s => s.restrictedTo (Program.literalBase [older, newer]) := by
    intro c hc
    obtain ⟨ho, hn⟩ := rules c hc
    have opposed : c.older.Opposed c.newer.toClause := by
      obtain ⟨x, hx, e⟩ := recorded.named c hc
      obtain ⟨s, hs, hl⟩ := (pairs ho hn).1 ⟨x, hx, e⟩
      exact ((shows ho hn s hs).1 hl).1
    have same : (answerSets.filter fun s => c.older.rejectedBy mark c.newer ∈ s.literals) =
        answerSets.filter fun s => s.Satisfies c.older.toClause ∧ s.Satisfies c.newer.toClause := by
      refine List.filter_congr fun s hs => ?_
      rw [decide_eq_decide, shows ho hn s hs, and_iff_right opposed]
    rw [recorded.witnesses c hc, ← same]
    exact map_filter_all_sightings wf positive (fun s hs l hl => h.updateLiteral hs hl) read ho hn _
  refine ⟨?_, fun a b => ⟨?_, ?_⟩, witnesses, fun c hc => ?_⟩
  · have distinct := recorded.distinct
    have : conflicts.map Conflict.pair =
        (conflicts.map fun c => (c.older, c.newer)).map fun x => (x.1.id, x.2.id) := by
      rw [List.map_map]
      rfl
    rw [this] at distinct
    exact List.Nodup.of_map _ distinct
  · rintro ⟨c, hc, rfl, rfl⟩
    obtain ⟨ho, hn⟩ := rules c hc
    obtain ⟨x, hx, e⟩ := recorded.named c hc
    obtain ⟨s, hs, hl⟩ := (pairs ho hn).1 ⟨x, hx, e⟩
    obtain ⟨opposed, both⟩ := (shows ho hn s hs).1 hl
    exact ⟨ho, hn, opposed, s, hs, both⟩
  · rintro ⟨ha, hb, opposed, s, hs, both⟩
    obtain ⟨x, hx, e⟩ := (pairs ha hb).2 ⟨s, hs, (shows ha hb s hs).2 ⟨opposed, both⟩⟩
    obtain ⟨c, hc, hp⟩ := recorded.covered x hx
      (by rw [e]; exact Program.isSome_find? ha) (by rw [e]; exact Program.isSome_find? hb)
    obtain ⟨ho, hn⟩ := rules c hc
    rw [e, Conflict.pair, Prod.mk.injEq] at hp
    exact ⟨c, hc, Program.eq_of_id_eq (wf.ids older (by simp)) ho ha hp.1,
      Program.eq_of_id_eq (wf.ids newer (by simp)) hn hb hp.2⟩
  · rw [witnesses c hc, List.pairwise_map]
    exact h.different.filter _

/-- What is recorded from the sets is exact. -/
lemma exactConflicts_of_recorded (clean : Clean mark [older, newer]) (named : Named [older, newer])
    (disjoint : ∀ id ∈ older.ids, id ∉ newer.ids) (h : ReadSets mark older newer answerSets)
    {conflicts : List Conflict}
    (recorded : Recorded older newer (namedPairs mark (answerSets.flatMap
      (sightings (Program.literalBase [older, newer])))) conflicts) :
    ExactConflicts older newer answerSets conflicts :=
  exactConflicts_of_read clean named.positive disjoint h (h.causePair clean.toWellFormed named)
    recorded

/-- If no identifier is shared, nothing at all is lost in reading. -/
lemma Represents.mem_literals_iff_of_disjoint (clean : Clean mark [older, newer])
    (disjoint : ∀ id ∈ older.ids, id ∉ newer.ids)
    (answer : IsAnswerSet (updateClauses mark older newer) held) (h : Represents s held)
    {l : Literal} : l ∈ s.literals ↔ l ∈ held := by
  refine ⟨h.sound l, fun hl => ?_⟩
  obtain ⟨m, hm, e⟩ := h.complete l hl
  have hx := answer.updateLiteral hl
  rcases hx.eq_of_equiv clean (answer.updateLiteral (h.sound m hm)) e with rfl | ⟨cause, -⟩
  · exact hm
  · obtain ⟨a, ha, b, hb, rfl⟩ := answer.exists_rules_of_isCause clean.toWellFormed hl cause
    exact (h.cause_mem_iff clean disjoint answer ha hb).2 hl

end

/-! ## Exactness -/

/-- The answer sets are what is written in the models, in their order. -/
structure ReadsAs (p : Program) (models : List String) (answerSets : List AnswerSet) : Prop where
  texts : (answerSets.map fun s => modelText s.texts) = models
  stable : ∀ s ∈ answerSets, IsStable p.ground (· ∈ s.texts)

/-- **Extraction is exact.**  The models of the update program of two clean programs without a
shared identifier are read as its answer sets, and of these the conflicts are extracted: exactly
the pairs of rules with complementary heads of which the bodies are satisfied together, each once
and with exactly the answer sets that satisfy both. -/
theorem extractConflicts_exact {mark : Mark} {older newer : Program}
    (clean : Clean mark [older, newer]) (named : Named [older, newer])
    (disjoint : ∀ id ∈ older.ids, id ∉ newer.ids) (g : Ledger) {models : List String}
    (rendered : Renders (buildUpdateProgram older newer mark g).1 models) (g₁ g₂ : Ledger) :
    ReadsAs (buildUpdateProgram older newer mark g).1 models (AnswerSet.parseAll models g₁).1 ∧
      ∃ conflicts g₃, (extractConflicts older newer (AnswerSet.parseAll models g₁).1 mark).run g₂ =
        (.ok conflicts, g₃) ∧
          ExactConflicts older newer (AnswerSet.parseAll models g₁).1 conflicts := by
  have wf := clean.toWellFormed
  obtain ⟨sets, -⟩ := readSets_parseAll clean named.positive rendered g₁
  refine ⟨?_, ?_⟩
  · obtain ⟨read, all, each⟩ :=
      exists_read clean named.positive fun m hm => (rendered.mem_iff m).1 hm
    rw [all]
    have texts : ∀ m ∈ models, modelText (read m).texts = m ∧
        IsStable (buildUpdateProgram older newer mark g).1.ground (· ∈ (read m).texts) := by
      intro m hm
      obtain ⟨-, held, answer, represents, writes⟩ := each m hm
      have literals := fun {l} =>
        represents.mem_literals_iff_of_disjoint (l := l) clean disjoint answer
      have legible : ∀ l ∈ (read m).sorted, l.Legible := fun l hl =>
        (answer.updateLiteral (literals.1 (mem_sorted.1 hl))).legible wf
      have nodup : (read m).texts.Nodup :=
        (nodup_sorted (read m)).map_on fun l hl k hk e => (legible l hl).text_inj (legible k hk) e
      have members : ∀ t, t ∈ (read m).texts ↔ t ∈ Literal.text '' held := by
        intro t
        simp only [AnswerSet.texts, List.mem_map, mem_sorted, literals]
        rfl
      refine ⟨(writes _ nodup members).symm, ?_⟩
      have stable := (isStable_updateProgram_iff clean g).2
        ((isStable_ground_iff (allLegible_updateClauses wf)).2 ⟨held, answer, rfl⟩)
      rwa [show (· ∈ Literal.text '' held) = (· ∈ (read m).texts) from
        funext fun t => propext (members t).symm] at stable
    constructor
    · rw [List.map_map]
      exact (List.map_congr_left fun m hm => (texts m hm).1).trans (List.map_id _)
    · intro s hs
      obtain ⟨m, hm, rfl⟩ := List.mem_map.1 hs
      exact (texts m hm).2
  · obtain ⟨conflicts, g₃, run⟩ :=
      extractConflicts_total mark older newer (sets.causePair wf named) g₂
    exact ⟨conflicts, g₃, run,
      exactConflicts_of_recorded clean named disjoint sets (extractConflicts_recorded run).1⟩

/-- Extraction from the models that are enumerated for a fact and a loop through negation that may
contradict it. -/
theorem extractConflicts_exact_loop :
    let fly : Literal := ⟨⟨"fly", ["tweety"]⟩, false⟩
    let sick : Literal := ⟨⟨"sick", []⟩, false⟩
    let well : Literal := ⟨⟨"well", []⟩, false⟩
    let older : Program := { rules := [{ head := some fly, id := 1 }] }
    let newer : Program := { rules := [
      { head := some fly.complement, body := [sick], id := 2 },
      { head := some sick, negBody := [well], id := 3 },
      { head := some well, negBody := [sick], id := 4 }] }
    let p := (buildUpdateProgram older newer default {}).1
    let answerSets := (AnswerSet.parseAll (modelsOf p.ground) {}).1
    Clean default [older, newer] ∧ Named [older, newer] ∧ (∀ id ∈ older.ids, id ∉ newer.ids) ∧
      Renders p (modelsOf p.ground) ∧ ReadsAs p (modelsOf p.ground) answerSets ∧
        ∃ conflicts g, (extractConflicts older newer answerSets default).run {} =
          (.ok conflicts, g) ∧
          ExactConflicts older newer answerSets conflicts := by
  intro fly sick well older newer p answerSets
  have clean : Clean default [older, newer] := by decide
  have named : Named [older, newer] := by decide
  have disjoint : ∀ id ∈ older.ids, id ∉ newer.ids := by decide
  have rendered : Renders p (modelsOf p.ground) :=
    renders_modelsOf (readableProgram_buildUpdateProgram clean.toWellFormed named.positive {})
  exact ⟨clean, named, disjoint, rendered,
    extractConflicts_exact clean named disjoint {} rendered {} {}⟩

end CausalUpdate
