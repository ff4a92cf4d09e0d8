import CausalUpdate.Program.Basic
import CausalUpdate.Proofs.Literal.Distinct

/-!
# The literal index

The index of a program is taken in one pass over its rules, mention by mention.  A mention changes
the entry of its literal and no other, and makes one at the end if there is none
(`LiteralIndex.keys_note`, `LiteralIndex.idsOf_note`); a rule changes the entries of the literals
that it mentions, and takes them all in (`LiteralIndex.idsOf_noteRule`).  After all rules, the index
has the literals of the program in order of first appearance, and the entry of a literal has the
rules that mention it in their order.

* `LiteralIndex.keys_ofRules`, `LiteralIndex.firstAppearances_idsOf` — what is in the index of rules.
* `Program.index_exact` — the index of a program, and the literals of two programs.
-/

namespace CausalUpdate

namespace LiteralIndex

variable {index : LiteralIndex} {id : Int} {l m : Literal}

/-- The literals that have an entry. -/
def keys (index : LiteralIndex) : List Literal :=
  index.map Prod.fst

/-! ## One mention -/

/-- A mention of a literal that is new makes it the last one. -/
lemma keys_note (id : Int) (l : Literal) (index : LiteralIndex) :
    (note id l index).keys = if l.Among (keys index) then keys index else keys index ++ [l] := by
  induction index with
  | nil => exact (if_neg fun ⟨_, hm, _⟩ => List.not_mem_nil hm).symm
  | cons entry index ih =>
      obtain ⟨k, ids⟩ := entry
      have among : l.Among (keys ((k, ids) :: index)) ↔ l ≈ k ∨ l.Among (keys index) :=
        List.exists_mem_cons_iff _ _ _
      rw [note]
      by_cases e : l ≈ k
      · rw [if_pos e, if_pos (among.2 (Or.inl e))]
        rfl
      · have tail : l.Among (keys ((k, ids) :: index)) ↔ l.Among (keys index) :=
          among.trans (or_iff_right e)
        rw [if_neg e]
        show k :: keys (note id l index) = _
        rw [ih]
        by_cases known : l.Among (keys index)
        · rw [if_pos known, if_pos (tail.2 known)]
          rfl
        · rw [if_neg known, if_neg fun h => known (tail.1 h)]
          rfl

lemma idsOf_cons (k : Literal) (ids : List Int) (index : LiteralIndex) (m : Literal) :
    idsOf ((k, ids) :: index) m = if m ≈ k then ids else index.idsOf m := by
  rw [idsOf, List.find?_cons]
  by_cases e : m ≈ k
  · simp [e]
  · simp [e, idsOf]

/-- A mention of a literal touches the entry of this literal only. -/
lemma idsOf_note (id : Int) (l m : Literal) (index : LiteralIndex) :
    (note id l index).idsOf m = if m ≈ l then withId (index.idsOf m) id else index.idsOf m := by
  induction index with
  | nil =>
      rw [note, idsOf_cons]
      rfl
  | cons entry index ih =>
      obtain ⟨k, ids⟩ := entry
      rw [note, idsOf_cons]
      by_cases e : l ≈ k
      · have same : m ≈ l ↔ m ≈ k :=
          ⟨fun h => Setoid.trans h e, fun h => Setoid.trans h (Setoid.symm e)⟩
        rw [if_pos e, idsOf_cons]
        by_cases own : m ≈ k
        · rw [if_pos own, if_pos own, if_pos (same.2 own)]
        · rw [if_neg own, if_neg own, if_neg fun h => own (same.1 h)]
      · rw [if_neg e, idsOf_cons, ih]
        by_cases own : m ≈ k
        · rw [if_pos own, if_pos own, if_neg fun h => e (Setoid.trans (Setoid.symm h) own)]
        · rw [if_neg own, if_neg own]

lemma withId_withId (ids : List Int) (id : Int) : withId (withId ids id) id = withId ids id := by
  have there : id ∈ withId ids id := by
    unfold withId
    split
    · assumption
    · exact List.mem_append_right _ List.mem_cons_self
  rw [withId, if_pos there]

/-! ## One rule -/

/-- The literals of a rule come behind those that are in the index. -/
lemma keys_foldl_note (id : Int) (ls ms : List Literal) (index : LiteralIndex)
    (known : index.keys = Literal.distinct ms) :
    (ls.foldl (fun index l => note id l index) index).keys = Literal.distinct (ms ++ ls) := by
  induction ls generalizing ms index with
  | nil => rw [List.foldl_nil, List.append_nil, known]
  | cons l ls ih =>
      rw [List.foldl_cons, List.append_cons]
      refine ih _ _ ?_
      rw [keys_note, known, Literal.distinct_concat]
      simp only [Literal.among_distinct]

/-- A rule is added to the entries of the literals that it mentions, and to no others. -/
lemma idsOf_noteRule (index : LiteralIndex) (r : Rule) (m : Literal) :
    (index.noteRule r).idsOf m =
      if m.Among r.literals then withId (index.idsOf m) r.id else index.idsOf m := by
  rw [noteRule]
  generalize r.literals = ls
  induction ls generalizing index with
  | nil => exact (if_neg fun ⟨_, hm, _⟩ => List.not_mem_nil hm).symm
  | cons l ls ih =>
      have among : m.Among (l :: ls) ↔ m ≈ l ∨ m.Among ls := List.exists_mem_cons_iff _ _ _
      rw [List.foldl_cons, ih, idsOf_note]
      by_cases e : m ≈ l
      · rw [if_pos e, if_pos (among.2 (Or.inl e)), withId_withId, ite_self]
      · rw [if_neg e]
        simp only [among, e, false_or]

/-! ## All rules -/

/-- **The index has the literals of the rules in order of first appearance.** -/
theorem keys_ofRules (rs : List Rule) :
    (ofRules rs).keys = Literal.distinct (rs.flatMap fun r => r.literals) := by
  have run : ∀ (index : LiteralIndex) (ms : List Literal), index.keys = Literal.distinct ms →
      (rs.foldl noteRule index).keys =
        Literal.distinct (ms ++ rs.flatMap fun r => r.literals) := by
    induction rs with
    | nil => exact fun index ms known => by rw [List.foldl_nil, List.flatMap_nil, List.append_nil, known]
    | cons r rs ih =>
        intro index ms known
        rw [List.foldl_cons, List.flatMap_cons, ← List.append_assoc]
        exact ih _ _ (keys_foldl_note r.id r.literals ms index known)
  exact run [] [] rfl

/-- The identifiers of the rules that mention a literal, in their order. -/
def mentioners (rs : List Rule) (m : Literal) : List Int :=
  (rs.filter fun r => m.Among r.literals).map Rule.id

/-- **The entry of a literal has the rules that mention it in their order.** -/
theorem firstAppearances_idsOf (rs : List Rule) (m : Literal) :
    FirstAppearances (fun i j : Int => i = j) ((ofRules rs).idsOf m) (mentioners rs m) := by
  induction rs using List.reverseRecOn with
  | nil => exact .nil
  | append_singleton rs r ih =>
      have step : ofRules (rs ++ [r]) = (ofRules rs).noteRule r := by
        rw [ofRules, List.foldl_append]
        rfl
      rw [step, idsOf_noteRule, mentioners, List.filter_append, List.map_append]
      by_cases mentions : m.Among r.literals
      · have last : (([r].filter fun r => m.Among r.literals).map Rule.id) = [r.id] := by
          simp [mentions]
        rw [if_pos mentions, last, withId]
        split
        · rename_i known
          exact ih.again eq_equivalence ⟨r.id, known, rfl⟩
        · rename_i unknown
          refine ih.new eq_equivalence ?_
          rintro ⟨j, hj, rfl⟩
          exact unknown hj
      · have last : (([r].filter fun r => m.Among r.literals).map Rule.id) = [] := by
          simp [mentions]
        rw [if_neg mentions, last, List.append_nil]
        exact ih

/-- No two entries are of the same literal, so an entry is found by its literal. -/
lemma idsOf_of_mem (once : index.keys.Pairwise fun k l => ¬ k ≈ l) {entry : Literal × List Int}
    (h : entry ∈ index) (e : l ≈ entry.1) : index.idsOf l = entry.2 := by
  induction index with
  | nil => exact absurd h List.not_mem_nil
  | cons first index ih =>
      obtain ⟨k, ids⟩ := first
      obtain ⟨apart, once⟩ := List.pairwise_cons.1 once
      rw [idsOf_cons]
      rcases List.mem_cons.1 h with rfl | h
      · rw [if_pos e]
      · have other : ¬ l ≈ k := fun e' =>
          apart _ (List.mem_map_of_mem h) (Setoid.trans (Setoid.symm e') e)
        rw [if_neg other, ih once h]

end LiteralIndex

/-- The literal base of programs has their literals in order of first appearance. -/
lemma Program.literalBase_eq (ps : List Program) : literalBase ps =
    Literal.distinct (ps.flatMap fun p => p.rules.flatMap fun r => r.literals) :=
  Literal.distinct_flatMap_distinct (fun p : Program => p.rules.flatMap fun r : Rule => r.literals) [] ps

/-- **The literal index is exact.**  Its literals are those that rules of the program mention, each
of them once, in the order in which they appear first: rule by rule, the head before the body and
the body before the negative body.  The entry of a literal has the identifiers of the rules that
mention an equivalent one, each of them once, in the order of the rules.  The literal base of two
programs has the literals of both, each of them once, in the same order. -/
theorem Program.index_exact (p q : Program) :
    p.literals = p.index.keys ∧
      FirstAppearances (fun k l : Literal => k ≈ l) p.index.keys
        (p.rules.flatMap fun r => r.head.toList ++ r.body ++ r.negBody) ∧
      (∀ entry ∈ p.index, ∀ l, l ≈ entry.1 → p.mentioning l = entry.2 ∧
        FirstAppearances (fun i j : Int => i = j) entry.2
          ((p.rules.filter fun r => l.Among (r.head.toList ++ r.body ++ r.negBody)).map Rule.id)) ∧
      FirstAppearances (fun k l : Literal => k ≈ l) (literalBase [p, q])
        ((p.rules ++ q.rules).flatMap fun r => r.head.toList ++ r.body ++ r.negBody) := by
  have parts : ∀ r : Rule, r.head.toList ++ r.body ++ r.negBody = r.literals := fun r => by
    rw [Clause.literals, Clause.completeBody, List.append_assoc]
  simp only [parts]
  have keys : p.index.keys = Literal.distinct (p.rules.flatMap fun r => r.literals) :=
    LiteralIndex.keys_ofRules p.rules
  refine ⟨keys.symm, ?_, ?_, ?_⟩
  · rw [keys]
    exact Literal.firstAppearances_distinct _
  · intro entry h l e
    have found : p.mentioning l = entry.2 := by
      refine LiteralIndex.idsOf_of_mem ?_ h e
      rw [keys]
      exact Literal.pairwise_distinct _
    exact ⟨found, found ▸ LiteralIndex.firstAppearances_idsOf p.rules l⟩
  · rw [literalBase_eq, List.flatMap_append]
    simpa using Literal.firstAppearances_distinct _

/-- Two ways to write one literal, one rule that mentions another literal twice, and an identifier
that two rules have. -/
theorem Program.index_exact_spellings :
    let written : Literal := ⟨⟨"p", ["a", "b"]⟩, false⟩
    let other : Literal := ⟨⟨"p", ["b", "a", "b"]⟩, false⟩
    let l : Literal := ⟨⟨"q", []⟩, false⟩
    let p : Program := { rules := [{ head := some written, id := 2 },
      { head := some l, body := [l], negBody := [other], id := 1 }, { head := some other, id := 2 }] }
    (written, [2, 1]) ∈ p.index ∧ other ≈ written ∧ p.mentioning other = [2, 1] := by
  intro written other l p
  have entry : (written, [2, 1]) ∈ p.index := by decide
  have same : other ≈ written := by decide
  exact ⟨entry, same, ((index_exact p {}).2.2.1 _ entry other same).1⟩

end CausalUpdate
