import CausalUpdate.Proofs.Distance.Metric
import CausalUpdate.Proofs.Program.Reading
import CausalUpdate.Proofs.Strategy.Finding
import CausalUpdate.Proofs.Strategy.PowerSet

/-!
# How far versions are from their rules

Two clauses are as far apart as the sets of literals in their three parts, so the distance of
clauses is a metric up to equivalence.  A version of a rule has nothing but new literals on top of
it, no two of them equivalent, and its distance from the rule is the number of literals it has more,
however often either of them repeats a literal.  The score of a solution that gives rules new
versions adds up these numbers, because in a sequence of orderly programs an identifier leads back
to the rule that the version was made from.

* `Clause.distance_comm`, `Clause.distance_triangle`, `Clause.distance_eq_zero_iff` — two clauses.
* `Offered.distance` — a rule and a version of it.
* `ruleDistance_of_offered` — solutions that choose among versions.
* `distance_counts_additions` — all of it, for what the strategies find.
-/

namespace CausalUpdate

/-! ## Sets of literals -/

namespace Literal

variable {ls ms ns : List Literal}

/-- The distance of two sets of literals is that of the answer sets with these literals. -/
lemma setDistance_eq (ls ms : List Literal) :
    setDistance ls ms = (AnswerSet.ofList ls).distance (.ofList ms) := by
  simp only [setDistance, AnswerSet.distance, AnswerSet.mem_ofList]
  rfl

lemma setDistance_comm (ls ms : List Literal) : setDistance ls ms = setDistance ms ls :=
  Nat.add_comm _ _

lemma setDistance_triangle (ls ms ns : List Literal) :
    setDistance ls ns ≤ setDistance ls ms + setDistance ms ns := by
  simp only [setDistance_eq]
  exact AnswerSet.distance_triangle _ _ _

lemma sameSet_distinct (ls : List Literal) : SameSet (distinct ls) ls :=
  ⟨fun _ hl => among_of_mem (mem_of_mem_distinct hl),
    fun _ hl => among_distinct.2 (among_of_mem hl)⟩

lemma setDistance_eq_zero_iff : setDistance ls ms = 0 ↔ SameSet ls ms := by
  have listed : AnswerSet.ofList ls ≈ .ofList ms ↔ SameSet (distinct ls) (distinct ms) := Iff.rfl
  have same := sameSet_equivalence
  rw [setDistance_eq, AnswerSet.distance_eq_zero_iff, listed]
  constructor
  · exact fun h => same.trans (same.symm (sameSet_distinct ls)) (same.trans h (sameSet_distinct ms))
  · exact fun h => same.trans (sameSet_distinct ls) (same.trans h (same.symm (sameSet_distinct ms)))

/-- New literals at the end of a list, none of them twice, are what the distance counts. -/
lemma setDistance_append (apart : ns.Pairwise fun a b => ¬ a ≈ b)
    (unseen : ∀ l ∈ ns, ¬ l.Among ls) : setDistance ls (ls ++ ns) = ns.length := by
  have kept : (distinct ls).filter (fun l => ¬ l.Among (ls ++ ns)) = [] := by
    refine List.filter_eq_nil_iff.2 fun l hl missing => of_decide_eq_true missing ?_
    exact among_of_mem (List.mem_append_left _ (mem_of_mem_distinct hl))
  have added : ((distinct (ls ++ ns)).filter fun l => ¬ l.Among ls).length = ns.length := by
    refine (length_le_of_allAmong ((pairwise_distinct _).filter _) fun l hl => ?_).antisymm
      (length_le_of_allAmong apart fun l hl => ?_)
    · obtain ⟨hl, new⟩ := List.mem_filter.1 hl
      refine among_of_mem ((List.mem_append.1 (mem_of_mem_distinct hl)).resolve_left fun old => ?_)
      exact of_decide_eq_true new (among_of_mem old)
    · obtain ⟨m, hm, e⟩ := among_distinct.2 (among_of_mem (List.mem_append_right ls hl))
      refine ⟨m, List.mem_filter.2 ⟨hm, decide_eq_true fun old => unseen l hl ?_⟩, e⟩
      exact (among_congr e).2 old
  rw [setDistance, kept, added, List.length_nil, Nat.zero_add]

end Literal

/-! ## Clauses -/

namespace Clause

variable {c d : Clause}

lemma sameSet_toList_iff {h k : Option Literal} :
    Literal.SameSet h.toList k.toList ↔ SameHead h k := by
  rcases h with _ | l <;> rcases k with _ | m
  · simp [Literal.SameSet, Literal.AllAmong, SameHead]
  · simp [Literal.SameSet, Literal.AllAmong, Literal.Among, SameHead]
  · simp [Literal.SameSet, Literal.AllAmong, Literal.Among, SameHead]
  · simp only [Literal.SameSet, Literal.AllAmong, Literal.Among, SameHead, Option.toList_some,
      List.mem_singleton, forall_eq, exists_eq_left]
    exact ⟨And.left, fun e => ⟨e, Setoid.symm e⟩⟩

theorem distance_comm (c d : Clause) : c.distance d = d.distance c := by
  rw [distance, distance, Literal.setDistance_comm c.head.toList, Literal.setDistance_comm c.body,
    Literal.setDistance_comm c.negBody]

theorem distance_triangle (c d e : Clause) : c.distance e ≤ c.distance d + d.distance e := by
  have heads := Literal.setDistance_triangle c.head.toList d.head.toList e.head.toList
  have bodies := Literal.setDistance_triangle c.body d.body e.body
  have negBodies := Literal.setDistance_triangle c.negBody d.negBody e.negBody
  simp only [distance]
  omega

theorem distance_eq_zero_iff : c.distance d = 0 ↔ c ≈ d := by
  rw [distance, Nat.add_eq_zero_iff, Nat.add_eq_zero_iff, Literal.setDistance_eq_zero_iff,
    Literal.setDistance_eq_zero_iff, Literal.setDistance_eq_zero_iff, sameSet_toList_iff, and_assoc]
  exact Iff.rfl

end Clause

/-! ## Versions -/

section Versions

variable {rejected r v : Rule} {reference : Clause} {chosen : List Literal}

/-- A rule is as far from a version as literals are taken in. -/
lemma distance_against (apart : chosen.Pairwise fun a b => ¬ a ≈ b)
    (unseen : ∀ l ∈ chosen, ¬ l.Among rejected.completeBody) :
    rejected.toClause.distance (rejected.against reference chosen).toClause = chosen.length := by
  have parts := List.length_eq_length_filter_add (l := chosen) fun l =>
    decide (l.Among reference.body)
  have part : ∀ (p : Literal → Bool) (ls : List Literal), (∀ l ∈ ls, l ∈ rejected.completeBody) →
      Literal.setDistance ls (ls ++ chosen.filter p) = (chosen.filter p).length := by
    refine fun p ls inside => Literal.setDistance_append (apart.filter p) fun l hl => ?_
    rintro ⟨m, hm, e⟩
    exact unseen l (List.mem_filter.1 hl).1 ⟨m, inside m hm, e⟩
  have head := Literal.setDistance_eq_zero_iff.2
    (Literal.sameSet_equivalence.refl rejected.head.toList)
  have body := part (fun l => !decide (l.Among reference.body)) rejected.body
    fun _ hl => List.mem_append_left _ hl
  have negBody := part (fun l => l.Among reference.body) rejected.negBody
    fun _ hl => List.mem_append_right _ hl
  simp only [Rule.against, Rule.extend, Rule.withClause, Clause.extended, Clause.distance, head,
    body, negBody, decide_not]
  omega

namespace Offered

/-- **A rule is as far from a version as the version has literals more**, at least one. -/
theorem distance (h : Offered rejected reference v) :
    0 < rejected.toClause.distance v.toClause ∧
      v.literalCount = rejected.literalCount + rejected.toClause.distance v.toClause := by
  obtain ⟨chosen, hchosen, rfl⟩ := List.mem_map.1 (List.mem_mergeSort.1 h)
  obtain ⟨hchosen, nonempty⟩ := List.mem_filter.1 hchosen
  have sub := mem_selections.1 hchosen
  have counted : rejected.toClause.distance (rejected.against reference chosen).toClause =
      chosen.length :=
    distance_against ((pairwise_candidates _ _).sublist sub) fun l hl =>
      of_decide_eq_true (List.mem_filter.1 (sub.subset hl)).2
  refine ⟨?_, by rw [counted, literalCount_against]⟩
  rw [counted]
  exact List.length_pos_iff.2 (by simpa using nonempty)

lemma bodyCount (h : Offered rejected reference v) :
    v.completeBody.length =
      rejected.completeBody.length + rejected.toClause.distance v.toClause := by
  have head := h.isVersion.extension.head
  have count := h.distance.2
  simp only [Clause.literalCount, Clause.literals, List.length_append, head] at count
  omega

end Offered

end Versions

/-! ## Solutions -/

section Solutions

variable {next : Nat} {ps : List Program} {r : Rule} {s t : Solution}

/-- In orderly programs an identifier leads to its rule. -/
lemma Orderly.findAmong? (orderly : Orderly next ps) (hr : r ∈ rulesOf ps) :
    Program.findAmong? ps r.id = some r := by
  cases found : Program.findAmong? ps r.id with
  | none =>
      obtain ⟨p, hp, hr⟩ := mem_rulesOf.1 hr
      have missing := List.find?_eq_none.1 (List.findSome?_eq_none_iff.1 found p hp) r hr
      exact absurd (decide_eq_true rfl) missing
  | some q =>
      obtain ⟨p, hp, found⟩ := List.exists_of_findSome?_eq_some found
      have hq := mem_rulesOf.2 ⟨p, hp, List.mem_of_find?_eq_some found⟩
      have id : q.id = r.id := by simpa using List.find?_some found
      rw [orderly.eq_of_id_eq hq hr id]

/-- The rule of orderly programs that each identifier belongs to. -/
lemma Orderly.exists_current (orderly : Orderly next ps) :
    ∃ current : Int → Rule, ∀ r ∈ rulesOf ps, current r.id = r :=
  ⟨fun id => (Program.findAmong? ps id).getD default, fun r hr => by
    simp only [orderly.findAmong? hr, Option.getD_some]⟩

/-- **The distance of a solution that chooses among versions** is the number of body literals that
these have more than the present versions. -/
theorem ruleDistance_of_offered (orderly : Orderly next ps) {current : Int → Rule}
    (present : ∀ r ∈ rulesOf ps, current r.id = r)
    (edits : s.Edits fun v => ∃ r ∈ rulesOf ps, ∃ reference, Offered r reference v) :
    (∀ v ∈ s.modifications, current v.id ∈ rulesOf ps ∧
      (current v.id).completeBody.length < v.completeBody.length) ∧
    s.ruleDistance ps = some ((s.modifications.map fun v =>
      v.completeBody.length - (current v.id).completeBody.length).sum) := by
  have each : ∀ v ∈ s.modifications, current v.id ∈ rulesOf ps ∧
      (current v.id).completeBody.length < v.completeBody.length ∧
      changeOf? ps v = some (v.completeBody.length - (current v.id).completeBody.length) := by
    intro v hv
    obtain ⟨r, hr, reference, version⟩ := edits.chosen v hv
    have id := version.isVersion.extension.id
    have positive := version.distance.1
    have count := version.bodyCount
    rw [id, present r hr]
    refine ⟨hr, by omega, ?_⟩
    rw [changeOf?, id, orderly.findAmong? hr, Option.map_some, count, Nat.add_sub_cancel_left]
  have changes : ∀ vs : List Rule, (∀ v ∈ vs, v ∈ s.modifications) → vs.mapM (changeOf? ps) =
      some (vs.map fun v => v.completeBody.length - (current v.id).completeBody.length) := by
    intro vs inside
    induction vs with
    | nil => rfl
    | cons v vs ih =>
        rw [List.mapM_cons, (each v (inside v List.mem_cons_self)).2.2,
          ih fun w hw => inside w (List.mem_cons_of_mem _ hw)]
        rfl
  refine ⟨fun v hv => ⟨(each v hv).1, (each v hv).2.1⟩, ?_⟩
  rw [Solution.ruleDistance, edits.additions, edits.deletions, changes _ fun _ hv => hv]
  simp [literalTotal, List.sum]

/-- **Distances of rules measure edits.**  The distance of clauses is a metric up to equivalence, and
a version of a rule is as far from it as it has literals more.  Let programs be read, with
identifiers of their own, and take two of their rules.  The search for direct and indirect solutions
never fails, and however versions are swapped in what it finds, each solution has a distance: the
number of body literals that its rules have more than their present versions. -/
theorem distance_counts_additions (c d e : Clause) (r : Rule) (reference : Clause)
    (read : ∀ p ∈ ps, IsRead next p) (disjoint : ps.Pairwise fun p q => p.ids.Disjoint q.ids) :
    (c.distance d = d.distance c ∧ c.distance e ≤ c.distance d + d.distance e ∧
      (c.distance d = 0 ↔ c ≈ d)) ∧
    (∀ v ∈ modifications r reference, r.literalCount < v.literalCount ∧
      r.toClause.distance v.toClause = v.literalCount - r.literalCount) ∧
    ∃ current : Int → Rule, (∀ q ∈ rulesOf ps, current q.id = q) ∧
      ∀ k : Conflict, k.older ∈ rulesOf ps → k.newer ∈ rulesOf ps →
        ∀ m : Method, m = .direct ∨ m = .indirect → ∀ g, ∃ found g',
          (m.solutions ps k).run g = (.ok found, g') ∧ ∀ s ∈ found, ∀ t, s.Swapped t →
            t.additions = [] ∧ t.deletions = [] ∧
            (∀ v ∈ t.modifications, current v.id ∈ rulesOf ps ∧
              (current v.id).completeBody.length < v.completeBody.length) ∧
            t.ruleDistance ps = some ((t.modifications.map fun v =>
              v.completeBody.length - (current v.id).completeBody.length).sum) := by
  refine ⟨⟨c.distance_comm d, c.distance_triangle d e, Clause.distance_eq_zero_iff⟩,
    fun v hv => ?_, ?_⟩
  · obtain ⟨positive, count⟩ := Offered.distance hv
    omega
  · have orderly := orderly_of_isRead read disjoint
    obtain ⟨current, present⟩ := orderly.exists_current
    refine ⟨current, present, fun k older newer m known g => ?_⟩
    have offering : m ≠ .rejectionRule := by
      rcases known with rfl | rfl <;> exact Method.noConfusion
    obtain ⟨found, g', run, choices, -⟩ :=
      m.solutions_offered orderly older newer offering 0 g (Nat.zero_le _)
    refine ⟨found, g', run, fun s hs t swapped => ?_⟩
    obtain ⟨edits, -⟩ := (choices s hs).swapped swapped
    obtain ⟨longer, distance⟩ := ruleDistance_of_offered orderly present edits
    exact ⟨edits.additions, edits.deletions, longer, distance⟩

/-- The older rule is deprived of the fact that it goes by. -/
theorem distance_counts_additions_fact :
    let p : Literal := ⟨⟨"p", []⟩, false⟩
    let q : Literal := ⟨⟨"q", []⟩, false⟩
    let a : Literal := ⟨⟨"a", []⟩, false⟩
    let rule : Rule := { head := some a, body := [p], id := 1 }
    let fact : Rule := { head := some p, label := 1, id := 2 }
    let denial : Rule := { head := some a.complement, negBody := [q], id := 3 }
    let guarded : Rule := { fact with body := [q] }
    let ps : List Program := [{ name := "older", rules := [rule, fact] },
      { name := "newer", rules := [denial] }]
    let s : Solution := { modifications := [guarded], rootRule := some 1, target := some p }
    (∀ p ∈ ps, IsRead 4 p) ∧ (ps.Pairwise fun p q => p.ids.Disjoint q.ids) ∧
      rule ∈ rulesOf ps ∧ denial ∈ rulesOf ps ∧
      (∃ g', (indirectSolutions ps { older := rule, newer := denial }).run { nextId := 4 } =
        (.ok [s], g')) ∧
      s.ruleDistance ps = some (guarded.completeBody.length - fact.completeBody.length) := by
  intro p q a rule fact denial guarded ps s
  have read : ∀ p ∈ ps, IsRead 4 p := by
    refine List.forall_mem_cons.2 ⟨?_, List.forall_mem_singleton.2 ?_⟩
    · exact ⟨some "a :- p. p.", "older", _, { nextId := 1 }, { nextId := 3 }, rfl, by decide,
        by decide, rfl⟩
    · exact ⟨some "-a :- not q.", "newer", _, { nextId := 3 }, { nextId := 4 }, rfl, by decide,
        by decide, rfl⟩
  have disjoint : ps.Pairwise fun p q => p.ids.Disjoint q.ids :=
    List.pairwise_pair.2 (List.disjoint_left.2 (by decide))
  have older : rule ∈ rulesOf ps := by decide
  have newer : denial ∈ rulesOf ps := by decide
  obtain ⟨-, -, current, present, measured⟩ := distance_counts_additions
    rule.toClause fact.toClause denial.toClause fact denial.toClause read disjoint
  obtain ⟨found, g', run, distances⟩ := measured { older := rule, newer := denial } older newer
    .indirect (Or.inr rfl) { nextId := 4 }
  obtain rfl : found = [s] := by
    have computed : ((indirectSolutions ps { older := rule, newer := denial }).run
        { nextId := 4 }).1 = .ok [s] := by decide +kernel
    exact Except.ok.inj ((congrArg Prod.fst run).symm.trans computed)
  obtain ⟨-, -, -, distance⟩ := distances s (List.mem_singleton.2 rfl) s .refl
  have now : current guarded.id = fact := present fact (by decide)
  refine ⟨read, disjoint, older, newer, ⟨g', run⟩, ?_⟩
  simpa [s, now] using distance

end Solutions

end CausalUpdate
