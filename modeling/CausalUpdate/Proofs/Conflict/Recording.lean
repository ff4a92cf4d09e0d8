import CausalUpdate.Conflict.Extract
import CausalUpdate.Proofs.Work

/-!
# Recording conflicts

The conflicts are recorded literal by literal: a pair of rules that is new becomes a conflict, and
any other one gets a further witness.  `Recorded` says what the conflicts are after any number of
literals, `recorded_step` that one more literal keeps it true, and `recordAll_recorded` that it is
true in the end.
-/

namespace CausalUpdate

/-! ## What is recorded -/

/-- The identifiers that a literal names, if it records a cause and they can be read. -/
def Literal.namedPair? (mark : Mark) (l : Literal) : Option (Int × Int) :=
  (l.causePair mark).toOption.join

/-- The pairs that are named by literals, each with its witness. -/
def namedPairs (mark : Mark) (xs : List (Literal × AnswerSet)) : List ((Int × Int) × AnswerSet) :=
  xs.filterMap fun x => (x.1.namedPair? mark).map fun pair => (pair, x.2)

/-- The conflicts are those that have been named so far, one for every pair of rules that there
are, each with all its witnesses in order. -/
structure Recorded (older newer : Program) (seen : List ((Int × Int) × AnswerSet))
    (cs : List Conflict) : Prop where
  distinct : (cs.map Conflict.pair).Nodup
  found : ∀ c ∈ cs, older.find? c.older.id = some c.older ∧ newer.find? c.newer.id = some c.newer
  unsolved : ∀ c ∈ cs, c.solutions = []
  named : ∀ c ∈ cs, ∃ s ∈ seen, s.1 = c.pair
  covered : ∀ s ∈ seen, (older.find? s.1.1).isSome → (newer.find? s.1.2).isSome →
    ∃ c ∈ cs, c.pair = s.1
  witnesses : ∀ c ∈ cs, c.answerSets = (seen.filter fun s => s.1 = c.pair).map Prod.snd

lemma mem_sorted {s : AnswerSet} {l : Literal} : l ∈ s.sorted ↔ l ∈ s.literals :=
  List.mem_mergeSort

/-- What is seen of answer sets: their literals, each with what the programs see of its set. -/
lemma mem_sightings {answerSets : List AnswerSet} {base : List Literal}
    {x : Literal × AnswerSet} : x ∈ answerSets.flatMap (sightings base) ↔
      ∃ s ∈ answerSets, x.1 ∈ s.literals ∧ x.2 = s.restrictedTo base := by
  simp only [List.mem_flatMap, sightings, List.mem_map, mem_sorted]
  constructor
  · rintro ⟨s, hs, l, hl, rfl⟩
    exact ⟨s, hs, hl, rfl⟩
  · rintro ⟨s, hs, hl, e⟩
    exact ⟨s, hs, x.1, hl, by rw [← e]⟩

lemma recorded_nil (older newer : Program) : Recorded older newer [] [] := by
  constructor <;> simp

section

variable {mark : Mark} {older newer : Program} {seen : List ((Int × Int) × AnswerSet)}
  {cs : List Conflict} {pair : Int × Int} {w : AnswerSet}

/-- The rule that is found has the identifier. -/
lemma Program.id_of_find? {p : Program} {id : Int} {r : Rule} (h : p.find? id = some r) :
    r.id = id := by
  simpa using List.find?_some h

lemma Program.mem_of_find? {p : Program} {id : Int} {r : Rule} (h : p.find? id = some r) :
    r ∈ p.rules :=
  List.mem_of_find?_eq_some h

/-! ## One literal -/

/-- A pair that is there already gets a further witness. -/
lemma Recorded.addWitness (h : Recorded older newer seen cs) (there : ∃ c ∈ cs, c.pair = pair) :
    Recorded older newer (seen ++ [(pair, w)])
      (cs.map fun c => if c.pair = pair then c.addWitness w else c) := by
  have same : ∀ c : Conflict,
      (if c.pair = pair then c.addWitness w else c).pair = c.pair ∧
      (if c.pair = pair then c.addWitness w else c).older = c.older ∧
      (if c.pair = pair then c.addWitness w else c).newer = c.newer ∧
      (if c.pair = pair then c.addWitness w else c).solutions = c.solutions := by
    intro c
    split <;> exact ⟨rfl, rfl, rfl, rfl⟩
  have inside : ∀ {c}, c ∈ (cs.map fun c => if c.pair = pair then c.addWitness w else c) →
      ∃ d ∈ cs, (if d.pair = pair then d.addWitness w else d) = c := List.mem_map.1
  refine ⟨?_, fun c hc => ?_, fun c hc => ?_, fun c hc => ?_, fun s hs => ?_, fun c hc => ?_⟩
  · rw [List.map_map]
    exact (List.map_congr_left fun c _ => (same c).1) ▸ h.distinct
  · obtain ⟨d, hd, rfl⟩ := inside hc
    rw [(same d).2.1, (same d).2.2.1]
    exact h.found d hd
  · obtain ⟨d, hd, rfl⟩ := inside hc
    rw [(same d).2.2.2]
    exact h.unsolved d hd
  · obtain ⟨d, hd, rfl⟩ := inside hc
    obtain ⟨s, hs, e⟩ := h.named d hd
    exact ⟨s, List.mem_append_left _ hs, e.trans (same d).1.symm⟩
  · intro ho hn
    have : ∃ d ∈ cs, d.pair = s.1 := by
      rcases List.mem_append.1 hs with hs | hs
      · exact h.covered s hs ho hn
      · rw [List.mem_singleton.1 hs]
        exact there
    obtain ⟨d, hd, e⟩ := this
    exact ⟨_, List.mem_map_of_mem hd, (same d).1.trans e⟩
  · obtain ⟨d, hd, rfl⟩ := inside hc
    rw [(same d).1, List.filter_append, List.map_append, ← h.witnesses d hd]
    by_cases e : d.pair = pair
    · simp [e, Conflict.addWitness]
    · simp [e, Ne.symm e]

/-- A pair that is new becomes a conflict, if it names rules. -/
lemma Recorded.addConflict (h : Recorded older newer seen cs) (fresh : ∀ c ∈ cs, c.pair ≠ pair)
    {a b : Rule} (ha : older.find? pair.1 = some a) (hb : newer.find? pair.2 = some b) :
    Recorded older newer (seen ++ [(pair, w)])
      (cs ++ [{ older := a, newer := b, answerSets := [w] }]) := by
  have ida := Program.id_of_find? ha
  have idb := Program.id_of_find? hb
  have pairEq : ∀ {ws ss}, (Conflict.mk a b ws ss).pair = pair := by
    intro ws ss
    rw [Conflict.pair, ida, idb]
  have unseen : seen.filter (fun s => decide (s.1 = pair)) = [] := by
    rw [List.filter_eq_nil_iff]
    intro s hs e
    have e := of_decide_eq_true e
    obtain ⟨c, hc, hp⟩ := h.covered s hs (by rw [e, ha]; rfl) (by rw [e, hb]; rfl)
    exact fresh c hc (hp.trans e)
  refine ⟨?_, fun c hc => ?_, fun c hc => ?_, fun c hc => ?_, fun s hs => ?_, fun c hc => ?_⟩
  · rw [List.map_append, List.nodup_append]
    refine ⟨h.distinct, by simp, ?_⟩
    intro p hp q hq e
    obtain ⟨c, hc, rfl⟩ := List.mem_map.1 hp
    rw [List.map_singleton, List.mem_singleton, pairEq] at hq
    exact fresh c hc (e.trans hq)
  · rcases List.mem_append.1 hc with hc | hc
    · exact h.found c hc
    · rw [List.mem_singleton.1 hc]
      exact ⟨ida.symm ▸ ha, idb.symm ▸ hb⟩
  · rcases List.mem_append.1 hc with hc | hc
    · exact h.unsolved c hc
    · rw [List.mem_singleton.1 hc]
  · rcases List.mem_append.1 hc with hc | hc
    · obtain ⟨s, hs, e⟩ := h.named c hc
      exact ⟨s, List.mem_append_left _ hs, e⟩
    · rw [List.mem_singleton.1 hc]
      exact ⟨(pair, w), by simp, pairEq.symm⟩
  · intro ho hn
    rcases List.mem_append.1 hs with hs | hs
    · obtain ⟨c, hc, e⟩ := h.covered s hs ho hn
      exact ⟨c, List.mem_append_left _ hc, e⟩
    · rw [List.mem_singleton.1 hs]
      exact ⟨_, List.mem_append_right _ (List.mem_singleton_self _), pairEq⟩
  · rw [List.filter_append, List.map_append]
    rcases List.mem_append.1 hc with hc | hc
    · rw [← h.witnesses c hc]
      simp [Ne.symm (fresh c hc)]
    · rw [List.mem_singleton.1 hc, pairEq, unseen]
      simp

/-- A pair that names no rules is passed over. -/
lemma Recorded.passOver (h : Recorded older newer seen cs) (fresh : ∀ c ∈ cs, c.pair ≠ pair)
    (missing : ¬ ((older.find? pair.1).isSome ∧ (newer.find? pair.2).isSome)) :
    Recorded older newer (seen ++ [(pair, w)]) cs := by
  refine ⟨h.distinct, h.found, h.unsolved, fun c hc => ?_, fun s hs => ?_, fun c hc => ?_⟩
  · obtain ⟨s, hs, e⟩ := h.named c hc
    exact ⟨s, List.mem_append_left _ hs, e⟩
  · intro ho hn
    rcases List.mem_append.1 hs with hs | hs
    · exact h.covered s hs ho hn
    · rw [List.mem_singleton.1 hs] at ho hn
      exact absurd ⟨ho, hn⟩ missing
  · rw [List.filter_append, List.map_append, ← h.witnesses c hc]
    simp [Ne.symm (fresh c hc)]

lemma recorded_step (h : Recorded older newer seen cs) (l : Literal) (pair : Int × Int)
    (w : AnswerSet) (g : Ledger) :
    Recorded older newer (seen ++ [(pair, w)]) (recordWitness older newer cs l pair w g).1 := by
  unfold recordWitness
  by_cases there : ∃ c ∈ cs, c.pair = pair
  · rw [if_pos (by simpa using there)]
    exact h.addWitness there
  · rw [if_neg (by simpa using there)]
    have fresh : ∀ c ∈ cs, c.pair ≠ pair := fun c hc e => there ⟨c, hc, e⟩
    cases ha : older.find? pair.1 with
    | none => exact h.passOver fresh (by simp [ha])
    | some a =>
        cases hb : newer.find? pair.2 with
        | none => exact h.passOver fresh (by simp [hb])
        | some b => exact h.addConflict fresh ha hb

/-! ## All literals -/

/-- **What is recorded in the end.** -/
theorem recordAll_recorded {xs : List (Literal × AnswerSet)} {cs' : List Conflict} {g g' : Ledger}
    (h : Recorded older newer seen cs)
    (run : (recordAll mark older newer cs xs).run g = (.ok cs', g')) :
    Recorded older newer (seen ++ namedPairs mark xs) cs' := by
  induction xs generalizing seen cs g with
  | nil =>
      have : (Except.ok cs, g) = (Except.ok cs', g') := run
      cases this
      simpa [namedPairs] using h
  | cons x xs ih =>
      obtain ⟨l, w⟩ := x
      rw [recordAll] at run
      obtain ⟨o, g₁, hl, rest⟩ := Attempt.bind_ok run
      rw [Attempt.run_of] at hl
      obtain ⟨read, rfl⟩ := Prod.mk.inj hl
      cases o with
      | none =>
          have skipped : namedPairs mark ((l, w) :: xs) = namedPairs mark xs := by
            simp [namedPairs, Literal.namedPair?, read, Except.toOption]
          rw [skipped]
          exact ih h rest
      | some pair =>
          have named : namedPairs mark ((l, w) :: xs) = (pair, w) :: namedPairs mark xs := by
            simp [namedPairs, Literal.namedPair?, read, Except.toOption]
          rw [named, List.append_cons]
          exact ih (recorded_step h l pair w g) rest

/-- Conflicts are recorded only from literals that can be read. -/
lemma recordAll_reads {xs : List (Literal × AnswerSet)} {cs' : List Conflict} {g g' : Ledger}
    (run : (recordAll mark older newer cs xs).run g = (.ok cs', g')) :
    ∀ x ∈ xs, ∃ o, x.1.causePair mark = .ok o := by
  induction xs generalizing cs g with
  | nil => exact fun x hx => absurd hx List.not_mem_nil
  | cons x xs ih =>
      obtain ⟨l, w⟩ := x
      rw [recordAll] at run
      obtain ⟨o, g₁, hl, rest⟩ := Attempt.bind_ok run
      rw [Attempt.run_of] at hl
      obtain ⟨read, rfl⟩ := Prod.mk.inj hl
      intro y hy
      rcases List.mem_cons.1 hy with rfl | hy
      · exact ⟨o, read⟩
      · cases o with
        | none => exact ih rest y hy
        | some pair => exact ih rest y hy

/-- **What is extracted.** -/
theorem extractConflicts_recorded {answerSets : List AnswerSet} {g g' : Ledger}
    (run : (extractConflicts older newer answerSets mark).run g = (.ok cs, g')) :
    Recorded older newer (namedPairs mark (answerSets.flatMap
      (sightings (Program.literalBase [older, newer])))) cs ∧
        ∀ s ∈ answerSets, ∀ l ∈ s.literals, ∃ o, l.causePair mark = .ok o := by
  rw [extractConflicts] at run
  obtain ⟨cs', g₁, recorded, rest⟩ := Attempt.bind_ok run
  have : cs' = cs := by
    cases rest
    rfl
  subst this
  refine ⟨by simpa using recordAll_recorded (recorded_nil older newer) recorded, ?_⟩
  intro s hs l hl
  exact recordAll_reads recorded (l, s.restrictedTo _) (mem_sightings.2 ⟨s, hs, hl, rfl⟩)

end

/-! ## Success -/

lemma recordAll_total (mark : Mark) (older newer : Program) {xs : List (Literal × AnswerSet)}
    (h : ∀ x ∈ xs, ∃ o, x.1.causePair mark = .ok o) (cs : List Conflict) (g : Ledger) :
    ∃ cs' g', (recordAll mark older newer cs xs).run g = (.ok cs', g') := by
  induction xs generalizing cs g with
  | nil => exact ⟨cs, g, rfl⟩
  | cons x xs ih =>
      obtain ⟨l, w⟩ := x
      have ih := ih fun y hy => h y (List.mem_cons_of_mem _ hy)
      obtain ⟨o, ho⟩ := h (l, w) List.mem_cons_self
      rw [recordAll, Attempt.run_bind, Attempt.run_of, ho]
      cases o with
      | none => exact ih cs g
      | some pair => exact ih _ _

/-- Nothing but an identifier that is too long keeps conflicts from being extracted. -/
lemma extractConflicts_total (mark : Mark) (older newer : Program) {answerSets : List AnswerSet}
    (h : ∀ s ∈ answerSets, ∀ l ∈ s.literals, ∃ o, l.causePair mark = .ok o) (g : Ledger) :
    ∃ cs g', (extractConflicts older newer answerSets mark).run g = (.ok cs, g') := by
  have read : ∀ x ∈ answerSets.flatMap (sightings (Program.literalBase [older, newer])),
      ∃ o, x.1.causePair mark = .ok o := by
    intro x hx
    obtain ⟨s, hs, hl, -⟩ := mem_sightings.1 hx
    exact h s hs x.1 hl
  obtain ⟨cs, g', run⟩ := recordAll_total mark older newer read [] g
  have run : (extractConflicts older newer answerSets mark).run g = (.ok cs,
      (Work.note .info "detection"
        s!"Extracted {cs.length} conflict(s) from {answerSets.length} answer set(s)" g').2) := by
    rw [extractConflicts, Attempt.run_bind, run]
    rfl
  exact ⟨cs, _, run⟩

end CausalUpdate
