import CausalUpdate.Proofs.StableModel.Rendering
import CausalUpdate.Proofs.UpdateProgram.CausalRejection
import Mathlib.Data.List.Dedup

/-!
# Reading the models of an update program

If identifiers are positive, every literal of an update program can be read back from a model.  The
set that is read holds one of any two equivalent literals.  This loses nothing that the programs
mention, and at most one of two causes that exchange their rules.

* `Represents` — what is read of an answer set.
* `exists_represents` — every model is read as such a set.
* `Represents.mem_restrictedTo_iff`, `Represents.satisfies_iff` — what the programs see of it.
-/

namespace CausalUpdate

/-- Both bodies of the clause hold in the answer set. -/
def AnswerSet.Satisfies (s : AnswerSet) (c : Clause) : Prop :=
  (∀ l ∈ c.body, l ∈ s) ∧ ∀ l ∈ c.negBody, l ∉ s

instance (s : AnswerSet) (c : Clause) : Decidable (s.Satisfies c) :=
  inferInstanceAs (Decidable (_ ∧ _))

/-- The answer set holds literals of a set, and one of each class of equivalent ones. -/
structure Represents (s : AnswerSet) (held : Set Literal) : Prop where
  sound : ∀ l ∈ s.literals, l ∈ held
  complete : ∀ l ∈ held, l.Among s.literals

/-! ## Reading -/

section

variable {mark : Mark} {older newer : Program} {held : Set Literal} {s : AnswerSet} {l : Literal}

lemma readable_of_isReserved (hl : l.IsReserved mark)
    (terms : ∀ t ∈ l.atom.terms, ∃ r : Rule, 0 ≤ r.id ∧ t = r.constant) : l.Readable where
  predicate := mark.isIdentifier_of_mem hl
  keyword := mark.ne_notKeyword_of_mem hl
  terms t ht := by
    obtain ⟨r, hr, rfl⟩ := terms t ht
    exact Rule.isTerm_constant hr

/-- **What an update program speaks of can be read** if the programs can be written out. -/
lemma UpdateLiteral.readable (writable : older.Writable) (writable' : newer.Writable)
    (h : UpdateLiteral mark older newer l) : l.Readable := by
  have mentioned : ∀ l ∈ mentioned [older, newer], l.Readable := fun l hl => by
    obtain ⟨p, hp, r, hr, mentions⟩ := mem_mentioned.1 hl
    simp only [List.mem_cons, List.not_mem_nil, or_false] at hp
    rcases hp with rfl | rfl
    · exact (writable r hr).2 l mentions
    · exact (writable' r hr).2 l mentions
  cases h with
  | plain hl => exact mentioned l hl
  | olderCopy hl => exact (mentioned _ hl).withSuffix (by simp)
  | newerCopy hl => exact (mentioned _ hl).withSuffix (by simp)
  | @active b hb =>
      refine readable_of_isReserved b.isReserved_active fun t ht => ⟨b, (writable' b hb).1, ?_⟩
      simpa [Rule.active] using ht
  | @rejected a ha =>
      refine readable_of_isReserved a.isReserved_rejected fun t ht => ⟨a, (writable a ha).1, ?_⟩
      simpa [Rule.rejected] using ht
  | @rejectedBy a b ha hb =>
      refine readable_of_isReserved (a.isReserved_rejectedBy b) fun t ht => ?_
      simp only [Rule.rejectedBy, List.mem_cons, List.not_mem_nil, or_false] at ht
      rcases ht with rfl | rfl
      · exact ⟨a, (writable a ha).1, rfl⟩
      · exact ⟨b, (writable' b hb).1, rfl⟩

lemma readable_updateProgram (writable : older.Writable) (writable' : newer.Writable) (g : Ledger) :
    ReadableProgram (buildUpdateProgram older newer mark g).1 := by
  intro c hc l hl
  have clause := (clauses_buildUpdateProgram mark older newer g).1 c hc
  exact (clause.updateLiteral hl).readable writable writable'

lemma readableProgram_buildUpdateProgram (wf : WellFormed mark [older, newer])
    (positive : Positive [older, newer]) (g : Ledger) :
    ReadableProgram (buildUpdateProgram older newer mark g).1 :=
  readable_updateProgram (wf.writable positive (by simp)) (wf.writable positive (by simp)) g

/-- Atoms that are texts of readable literals are read as these literals. -/
lemma exists_parse_modelText {atoms : List String} (readable : ∀ l ∈ held, l.Readable)
    (h : ∀ t, t ∈ atoms ↔ t ∈ Literal.text '' held) :
    ∃ s, AnswerSet.parse (modelText atoms).toList = .ok s ∧ Represents s held := by
  have texts : ∀ t ∈ atoms, ∃ l ∈ held, l.text = t := fun t ht => (h t).1 ht
  choose! literal inside text_eq using texts
  have atoms_eq : atoms = (atoms.map literal).map Literal.text := by
    rw [List.map_map]
    exact ((List.map_congr_left fun t ht => text_eq t ht).trans (List.map_id _)).symm
  have members : ∀ l, l ∈ atoms.map literal ↔ l ∈ held := by
    intro l
    constructor
    · intro hl
      obtain ⟨t, ht, rfl⟩ := List.mem_map.1 hl
      exact inside t ht
    · intro hl
      have ht := (h l.text).2 ⟨l, hl, rfl⟩
      have e := (readable _ (inside _ ht)).legible.text_inj (readable l hl).legible (text_eq _ ht)
      exact List.mem_map.2 ⟨l.text, ht, e⟩
  have parsed := AnswerSet.parse_modelText
    (show ∀ l ∈ atoms.map literal, l.Readable from fun l hl => readable l ((members l).1 hl))
  rw [← atoms_eq] at parsed
  refine ⟨_, parsed, fun l hl => ?_, fun l hl => ?_⟩
  · exact (members l).1 (List.mem_mergeSort.1 (mem_of_mem_distinct hl))
  · refine AnswerSet.mem_ofList.2 (Literal.among_of_mem (List.mem_mergeSort.2 ?_))
    exact (members l).2 hl

/-- The text is that of the answer set. -/
def WritesSet (m : String) (held : Set Literal) : Prop :=
  ∀ ts : List String, ts.Nodup → (∀ t, t ∈ ts ↔ t ∈ Literal.text '' held) → m = modelText ts

/-- **Every model of the update program is read as a set that represents an answer set.** -/
theorem exists_represents (clean : Clean mark [older, newer]) (positive : Positive [older, newer])
    (g : Ledger) {m : String} (h : IsModelText (buildUpdateProgram older newer mark g).1 m) :
    ∃ s held, AnswerSet.parse m.toList = .ok s ∧ IsAnswerSet (updateClauses mark older newer) held ∧
      Represents s held ∧ WritesSet m held := by
  have wf := clean.toWellFormed
  obtain ⟨atoms, nodup, stable, rfl⟩ := h
  have stable : IsStable ((updateClauses mark older newer).map Clause.ground)
      (· ∈ {t | t ∈ atoms}) :=
    (isStable_updateProgram_iff clean g).1 stable
  obtain ⟨held, answer, e⟩ := (isStable_ground_iff (allLegible_updateClauses wf)).1 stable
  have members : ∀ t, t ∈ atoms ↔ t ∈ Literal.text '' held := fun t => by rw [← e]; rfl
  obtain ⟨s, parsed, represents⟩ := exists_parse_modelText
    (fun l hl => (answer.updateLiteral hl).readable (wf.writable positive (by simp))
      (wf.writable positive (by simp))) members
  refine ⟨s, held, parsed, answer, represents, fun ts hts h => ?_⟩
  exact modelText_congr nodup hts fun t => (members t).trans (h t).symm

/-! ## What the programs see -/

namespace Represents

/-- What the programs mention is not lost. -/
lemma mem_literals_iff (clean : Clean mark [older, newer])
    (answer : IsAnswerSet (updateClauses mark older newer) held) (h : Represents s held)
    (hl : l ∈ mentioned [older, newer]) : l ∈ s.literals ↔ l ∈ held := by
  refine ⟨h.sound l, fun hm => ?_⟩
  obtain ⟨m, hm, e⟩ := h.complete l hm
  have hx := answer.updateLiteral (h.sound m hm)
  rcases (UpdateLiteral.plain hl).eq_of_equiv clean hx e with rfl | ⟨⟨a, b, rfl⟩, -⟩
  · exact hm
  · exact absurd (a.isReserved_rejectedBy b) (clean.not_isReserved hl)

lemma mem_iff (clean : Clean mark [older, newer])
    (answer : IsAnswerSet (updateClauses mark older newer) held) (h : Represents s held)
    (hl : l ∈ mentioned [older, newer]) : l ∈ s ↔ l ∈ held := by
  constructor
  · rintro ⟨m, hm, e⟩
    have hx := answer.updateLiteral (h.sound m hm)
    rcases (UpdateLiteral.plain hl).eq_of_equiv clean hx e with rfl | ⟨⟨a, b, rfl⟩, -⟩
    · exact h.sound l hm
    · exact absurd (a.isReserved_rejectedBy b) (clean.not_isReserved hl)
  · exact fun hm => h.complete l hm

/-- A set that is read satisfies the bodies that hold. -/
lemma satisfies_iff (clean : Clean mark [older, newer])
    (answer : IsAnswerSet (updateClauses mark older newer) held) (h : Represents s held)
    {p : Program} (hp : p ∈ [older, newer]) {r : Rule} (hr : r ∈ p.rules) :
    s.Satisfies r.toClause ↔ r.HoldsIn held := by
  have pos : ∀ l ∈ r.body, l ∈ s ↔ l ∈ held :=
    fun l hl => h.mem_iff clean answer (mentioned_body hp hr hl)
  have neg : ∀ l ∈ r.negBody, l ∈ s ↔ l ∈ held :=
    fun l hl => h.mem_iff clean answer (mentioned_negBody hp hr hl)
  exact and_congr (forall₂_congr pos) (forall₂_congr fun l hl => not_congr (neg l hl))

/-- What the programs see of a set that is read. -/
lemma mem_restrictedTo_iff (clean : Clean mark [older, newer])
    (answer : IsAnswerSet (updateClauses mark older newer) held) (h : Represents s held) :
    l ∈ (s.restrictedTo (Program.literalBase [older, newer])).literals ↔
      l ∈ seenIn [older, newer] held := by
  rw [AnswerSet.restrictedTo, List.mem_filter, decide_eq_true_eq]
  constructor
  · rintro ⟨hl, among⟩
    have hm := h.sound l hl
    exact ⟨hm, ((answer.updateLiteral hm).among_literalBase_iff clean).1 among⟩
  · rintro ⟨hm, hl⟩
    refine ⟨(h.mem_literals_iff clean answer hl).2 hm, ?_⟩
    exact among_literalBase.2 (Literal.among_of_mem hl)

/-- Answer sets of which the programs see the same are the same. -/
lemma eq_of_restrictedTo_equiv (clean : Clean mark [older, newer]) {held' : Set Literal}
    {s' : AnswerSet} (answer : IsAnswerSet (updateClauses mark older newer) held)
    (h : Represents s held)
    (answer' : IsAnswerSet (updateClauses mark older newer) held') (h' : Represents s' held')
    (e : s.restrictedTo (Program.literalBase [older, newer]) ≈
      s'.restrictedTo (Program.literalBase [older, newer])) : held = held' := by
  have half : ∀ {s s' : AnswerSet} {held held' : Set Literal},
      IsAnswerSet (updateClauses mark older newer) held → Represents s held →
      IsAnswerSet (updateClauses mark older newer) held' → Represents s' held' →
      s.restrictedTo (Program.literalBase [older, newer]) ≈
        s'.restrictedTo (Program.literalBase [older, newer]) →
      seenIn [older, newer] held ⊆ seenIn [older, newer] held' := by
    intro s s' held held' answer h answer' h' e l hl
    obtain ⟨m, hm, e⟩ := e.1 l ((h.mem_restrictedTo_iff clean answer).2 hl)
    have hm := (h'.mem_restrictedTo_iff clean answer').1 hm
    rwa [clean.eq_of_equiv hl.2 hm.2 e]
  have seen : seenIn [older, newer] held = seenIn [older, newer] held' :=
    Set.Subset.antisymm (half answer h answer' h' e) (half answer' h' answer h (Setoid.symm e))
  ext x
  rw [answer.mem_iff_expansion clean, answer'.mem_iff_expansion clean, seen]

end Represents

/-! ## All models -/

/-- The sets are what is read of the answer sets of the update program: of each of them, and of no
two the same, as far as the programs see. -/
structure ReadSets (mark : Mark) (older newer : Program) (answerSets : List AnswerSet) : Prop where
  read : ∀ s ∈ answerSets, ∃ held,
    IsAnswerSet (updateClauses mark older newer) held ∧ Represents s held
  complete : ∀ held, IsAnswerSet (updateClauses mark older newer) held →
    ∃ s ∈ answerSets, Represents s held
  different : answerSets.Pairwise fun s t =>
    ¬ s.restrictedTo (Program.literalBase [older, newer]) ≈
      t.restrictedTo (Program.literalBase [older, newer])

/-- An answer set has a text. -/
lemma exists_modelText (answer : IsAnswerSet (updateClauses mark older newer) held) :
    ∃ atoms : List String, atoms.Nodup ∧ ∀ t, t ∈ atoms ↔ t ∈ Literal.text '' held := by
  classical
  let heads := (updateClauses mark older newer).filterMap fun c => c.head
  refine ⟨(((heads.filter (· ∈ held)).map Literal.text)).dedup, List.nodup_dedup _, fun t => ?_⟩
  rw [List.mem_dedup, List.mem_map]
  refine exists_congr fun l => and_congr_left' ?_
  rw [List.mem_filter, decide_eq_true_eq, and_iff_right_iff_imp]
  intro hl
  obtain ⟨c, hc, head, -⟩ := answer.mem_iff.1 hl
  exact List.mem_filterMap.2 ⟨c, hc, head⟩

/-- Each model is read by itself. -/
lemma exists_read (clean : Clean mark [older, newer]) (positive : Positive [older, newer])
    {g : Ledger} {models : List String}
    (h : ∀ m ∈ models, IsModelText (buildUpdateProgram older newer mark g).1 m) :
    ∃ read : String → AnswerSet, (∀ g', (AnswerSet.parseAll models g').1 = models.map read) ∧
      ∀ m ∈ models, AnswerSet.parse m.toList = .ok (read m) ∧
        ∃ held, IsAnswerSet (updateClauses mark older newer) held ∧ Represents (read m) held ∧
          WritesSet m held := by
  have each : ∀ m ∈ models, ∃ s, AnswerSet.parse m.toList = .ok s ∧
      ∃ held, IsAnswerSet (updateClauses mark older newer) held ∧ Represents s held ∧
        WritesSet m held := by
    intro m hm
    obtain ⟨s, held, parsed, rest⟩ := exists_represents clean positive g (h m hm)
    exact ⟨s, parsed, held, rest⟩
  choose! read parsed rest using each
  exact ⟨read, AnswerSet.parseAll_eq_map parsed, fun m hm => ⟨parsed m hm, rest m hm⟩⟩

/-- **From the models of the update program its answer sets are read.** -/
theorem readSets_parseAll (clean : Clean mark [older, newer]) (positive : Positive [older, newer])
    {g : Ledger} {models : List String}
    (rendered : Renders (buildUpdateProgram older newer mark g).1 models) (g' : Ledger) :
    ReadSets mark older newer (AnswerSet.parseAll models g').1 ∧
      (AnswerSet.parseAll models g').1.length = models.length := by
  have wf := clean.toWellFormed
  obtain ⟨read, all, each⟩ := exists_read clean positive fun m hm => (rendered.mem_iff m).1 hm
  rw [all]
  refine ⟨⟨?_, ?_, ?_⟩, by simp⟩
  · intro s hs
    obtain ⟨m, hm, rfl⟩ := List.mem_map.1 hs
    obtain ⟨-, held, answer, represents, -⟩ := each m hm
    exact ⟨held, answer, represents⟩
  · intro held answer
    obtain ⟨atoms, nodup, members⟩ := exists_modelText answer
    have stable : IsStable (buildUpdateProgram older newer mark g).1.ground (· ∈ {t | t ∈ atoms}) :=
      (isStable_updateProgram_iff clean g).2 ((isStable_ground_iff (allLegible_updateClauses wf)).2
        ⟨held, answer, Set.ext members⟩)
    have hm : modelText atoms ∈ models :=
      (rendered.mem_iff _).2 ⟨atoms, nodup, stable, rfl⟩
    obtain ⟨s, parsed, represents⟩ := exists_parse_modelText
      (fun l hl => (answer.updateLiteral hl).readable (wf.writable positive (by simp))
      (wf.writable positive (by simp))) members
    rw [(each _ hm).1, Except.ok.injEq] at parsed
    exact ⟨_, List.mem_map_of_mem hm, parsed ▸ represents⟩
  · rw [List.pairwise_map]
    refine rendered.nodup.imp_of_mem fun {m m'} hm hm' hne e => hne ?_
    obtain ⟨-, held, answer, represents, writes⟩ := each m hm
    obtain ⟨-, held', answer', represents', writes'⟩ := each m' hm'
    obtain rfl := Represents.eq_of_restrictedTo_equiv clean answer represents answer' represents' e
    obtain ⟨atoms, nodup, members⟩ := exists_modelText answer
    rw [writes atoms nodup members, writes' atoms nodup members]

end

end CausalUpdate
