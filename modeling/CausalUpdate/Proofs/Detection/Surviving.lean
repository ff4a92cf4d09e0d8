import CausalUpdate.Proofs.Conflict.Exactness
import CausalUpdate.Proofs.Detection.Pair

/-!
# What is found, by the rules that survive

What a comparison of two programs finds can be said without their update program.  The answer sets
are those of the rules that survive in them, each once; the conflicts are the pairs of opposed rules
of which the bodies hold together in one of these, and the witnesses of a conflict are all in which
they do.

* `Surviving` — findings that are as described.
* `Compared.surviving` — what an exact solver lets one find is.
-/

namespace CausalUpdate

/-- The literals of the answer set, as a set. -/
def AnswerSet.held (s : AnswerSet) : Set Literal :=
  {l | l ∈ s.literals}

/-- The answer sets hold the literals of the sets described, and each of these is listed once. -/
structure ListsSets (ss : List AnswerSet) (described : Set Literal → Prop) : Prop where
  once : (ss.map AnswerSet.held).Nodup
  mem_iff : ∀ held, held ∈ ss.map AnswerSet.held ↔ described held

lemma ListsSets.singleton {s : AnswerSet} {described : Set Literal → Prop}
    (only : ∀ held, described held ↔ held = s.held) : ListsSets [s] described :=
  ⟨List.nodup_singleton _, fun held => by rw [List.map_singleton, List.mem_singleton, only]⟩

/-- What is found in two programs, said of the rules that survive. -/
structure Surviving (older newer : Program) (f : Findings) : Prop where
  answerSets : ListsSets f.answerSets fun held =>
    IsAnswerSet (survivors older newer held).clauses held
  reported : ∀ a b, (∃ c ∈ f.conflicts, c.older = a ∧ c.newer = b) ↔
    a ∈ older.rules ∧ b ∈ newer.rules ∧ a.Opposed b.toClause ∧
      ∃ held, IsAnswerSet (survivors older newer held).clauses held ∧
        a.HoldsIn held ∧ b.HoldsIn held
  witnesses : ∀ c ∈ f.conflicts, ListsSets c.answerSets fun held =>
    IsAnswerSet (survivors older newer held).clauses held ∧
      c.older.HoldsIn held ∧ c.newer.HoldsIn held
  consistent : f.consistent = true ↔ f.answerSets ≠ []

section

variable {mark : Mark} {older newer : Program} {sets : List AnswerSet} {s : AnswerSet}
  {held : Set Literal}

/-! ## One set -/

/-- The programs see the answer set of their survivors in the set. -/
structure Shows (older newer : Program) (s : AnswerSet) (held : Set Literal) : Prop where
  answer : IsAnswerSet (survivors older newer held).clauses held
  seen : (s.restrictedTo (Program.literalBase [older, newer])).held = held
  satisfies : ∀ p ∈ [older, newer], ∀ r ∈ p.rules, (s.Satisfies r.toClause ↔ r.HoldsIn held)

lemma Represents.shows (clean : Clean mark [older, newer])
    (answer : IsAnswerSet (updateClauses mark older newer) held) (h : Represents s held) :
    Shows older newer s (seenIn [older, newer] held) where
  answer := answer.seen clean
  seen := Set.ext fun _ => h.mem_restrictedTo_iff clean answer
  satisfies p hp r hr := by
    rw [h.satisfies_iff clean answer hp hr]
    exact holdsIn_congr_of_mentioned hp hr fun l hl => mem_seenIn_iff hl

lemma ReadSets.exists_shown (clean : Clean mark [older, newer]) (h : ReadSets mark older newer sets)
    (hs : s ∈ sets) : ∃ held, Shows older newer s held := by
  obtain ⟨held, answer, represents⟩ := h.read s hs
  exact ⟨_, represents.shows clean answer⟩

lemma ReadSets.exists_showing (clean : Clean mark [older, newer])
    (h : ReadSets mark older newer sets)
    (answer : IsAnswerSet (survivors older newer held).clauses held) :
    ∃ s ∈ sets, Shows older newer s held := by
  have expanded := answer.expand clean
  obtain ⟨s, hs, represents⟩ := h.complete _ expanded
  refine ⟨s, hs, ?_⟩
  have shows := represents.shows clean expanded
  rwa [seenIn_expansion clean answer.fits] at shows

/-! ## All sets -/

/-- Of the sets that are read, some satisfy the bodies of rules; these show the answer sets in which
the bodies hold. -/
lemma ReadSets.listsSets (clean : Clean mark [older, newer]) (h : ReadSets mark older newer sets)
    {chosen : AnswerSet → Bool} {described : Set Literal → Prop}
    (same : ∀ s held, Shows older newer s held → (chosen s = true ↔ described held)) :
    ListsSets ((sets.filter chosen).map fun s =>
        s.restrictedTo (Program.literalBase [older, newer]))
      fun held => IsAnswerSet (survivors older newer held).clauses held ∧ described held := by
  constructor
  · rw [List.map_map]
    refine List.pairwise_map.2 ((h.different.filter _).imp fun {s t} different e => different ?_)
    have e : (s.restrictedTo _).held = (t.restrictedTo _).held := e
    constructor
    · exact fun l hl => Literal.among_of_mem ((Set.ext_iff.1 e l).1 hl)
    · exact fun l hl => Literal.among_of_mem ((Set.ext_iff.1 e l).2 hl)
  · intro held
    simp only [List.map_map, List.mem_map, List.mem_filter, Function.comp_apply]
    constructor
    · rintro ⟨s, ⟨hs, holds⟩, rfl⟩
      obtain ⟨held, shows⟩ := h.exists_shown clean hs
      rw [shows.seen]
      exact ⟨shows.answer, (same s held shows).1 holds⟩
    · rintro ⟨answer, holds⟩
      obtain ⟨s, hs, shows⟩ := h.exists_showing clean answer
      exact ⟨s, ⟨hs, (same s held shows).2 holds⟩, shows.seen⟩

/-- **What an exact solver lets one find**, said of the rules that survive. -/
theorem Compared.surviving {f : Findings} (clean : Clean mark [older, newer])
    (positive : Positive [older, newer]) (disjoint : ∀ id ∈ older.ids, id ∉ newer.ids)
    (h : Compared mark older newer sets f) : Surviving older newer f := by
  have conflicts := exactConflicts_of_read clean positive disjoint h.readSets h.read h.recorded
  have both : ∀ {a b s held}, a ∈ older.rules → b ∈ newer.rules → Shows older newer s held →
      (s.Satisfies a.toClause ∧ s.Satisfies b.toClause ↔ a.HoldsIn held ∧ b.HoldsIn held) :=
    fun ha hb shows => and_congr (shows.satisfies older (by simp) _ ha)
      (shows.satisfies newer (by simp) _ hb)
  refine ⟨?_, fun a b => ?_, fun c hc => ?_, ?_⟩
  · have all : ListsSets ((sets.filter fun _ => true).map fun s =>
        s.restrictedTo (Program.literalBase [older, newer]))
        fun held => IsAnswerSet (survivors older newer held).clauses held ∧ True :=
      h.readSets.listsSets clean fun _ _ _ => by simp
    rw [List.filter_true, ← h.visible] at all
    simpa only [and_true] using all
  · rw [conflicts.reported]
    refine and_congr_right fun ha => and_congr_right fun hb => and_congr_right fun _ => ?_
    constructor
    · rintro ⟨s, hs, satisfied⟩
      obtain ⟨held, shows⟩ := h.readSets.exists_shown clean hs
      exact ⟨held, shows.answer, (both ha hb shows).1 satisfied⟩
    · rintro ⟨held, answer, holds⟩
      obtain ⟨s, hs, shows⟩ := h.readSets.exists_showing clean answer
      exact ⟨s, hs, (both ha hb shows).2 holds⟩
  · obtain ⟨ha, hb, -⟩ := (conflicts.reported _ _).1 ⟨c, hc, rfl, rfl⟩
    rw [conflicts.witnesses c hc]
    exact h.readSets.listsSets clean fun s held shows => by
      rw [decide_eq_true_eq, both ha hb shows]
  · rw [h.consistent, h.visible, ne_eq, ne_eq, List.map_eq_nil_iff]

end

end CausalUpdate
