import CausalUpdate.Proofs.Strategy.Alike
import Mathlib.Data.List.Nodup
import Mathlib.Tactic.Common

/-!
# The versions as a power set

A rule has one version against a clause for each non-empty set of the body literals that it does not
mention.  The sets are counted as binary numbers: the digit at a place tells whether the literal at
that place is taken in.

* `picked` — the items that a number stands for.
* `bodyDifference` — the literals to choose from, without the making of a list of distinct ones.
* `sublists_eq_picked` — counting goes through all sublists.
* `modifications_powerSet` — what the versions are, how many, and in which order.
-/

namespace CausalUpdate

/-! ## Sublists as numbers -/

section Counting

variable {α : Type}

/-- The items of a list at the places where a number has the binary digit one. -/
def picked (as : List α) (mask : Nat) : List α :=
  (as.zipIdx.filter fun p => mask.testBit p.2).map Prod.fst

lemma picked_cons (a : α) (as : List α) (mask : Nat) :
    picked (a :: as) mask = (if mask.testBit 0 then [a] else []) ++ picked as (mask / 2) := by
  have tail : ((as.zipIdx 1).filter fun p => mask.testBit p.2).map Prod.fst =
      picked as (mask / 2) := by
    rw [List.zipIdx_succ, List.filter_map, List.map_map, picked]
    simp only [Function.comp_def, Nat.testBit_succ]
  rw [picked, List.zipIdx_cons, List.filter_cons, Nat.zero_add]
  split <;> simp [tail]

/-- **Counting goes through all sublists.** -/
theorem sublists_eq_picked (as : List α) :
    as.sublists = (List.range (2 ^ as.length)).map (picked as) := by
  have doubled : ∀ n, List.range (2 * n) = (List.range n).flatMap fun m => [2 * m, 2 * m + 1] := by
    intro n
    induction n with
    | zero => rfl
    | succ n ih =>
        rw [List.range_succ, List.flatMap_append, ← ih, Nat.mul_succ, List.range_succ,
          List.range_succ, List.append_assoc]
        rfl
  induction as with
  | nil => rfl
  | cons a as ih =>
      have even : ∀ m, picked (a :: as) (2 * m) = picked as m := fun m => by
        simp [picked_cons]
      have odd : ∀ m, picked (a :: as) (2 * m + 1) = a :: picked as m := fun m => by
        have half : (2 * m + 1) / 2 = m := by omega
        simp [picked_cons, half]
      rw [List.sublists_cons, ih, List.length_cons, Nat.pow_succ', doubled, List.map_flatMap]
      simp only [List.bind_eq_flatMap, List.flatMap_map, List.map_cons, List.map_nil, even, odd]

lemma picked_sublist (as : List α) (mask : Nat) : (picked as mask).Sublist as := by
  have sub := (List.filter_sublist (p := fun p => mask.testBit p.2) (l := as.zipIdx)).map Prod.fst
  rwa [List.zipIdx_map_fst] at sub

/-- Different numbers stand for different sublists, if no item is repeated. -/
lemma picked_injOn {as : List α} (nodup : as.Nodup) {m n : Nat} (hm : m < 2 ^ as.length)
    (hn : n < 2 ^ as.length) (e : picked as m = picked as n) : m = n := by
  have unique := nodup.sublists
  rw [sublists_eq_picked] at unique
  exact List.inj_on_of_nodup_map unique (List.mem_range.2 hm) (List.mem_range.2 hn) e

lemma exists_picked {as s : List α} (sub : s.Sublist as) :
    ∃ m < 2 ^ as.length, picked as m = s := by
  have mem := List.mem_sublists.2 sub
  rw [sublists_eq_picked, List.mem_map] at mem
  obtain ⟨m, hm, e⟩ := mem
  exact ⟨m, List.mem_range.1 hm, e⟩

/-- Zero stands for the empty sublist, and no other number does. -/
lemma picked_eq_nil {as : List α} (nodup : as.Nodup) {m : Nat} (hm : m < 2 ^ as.length) :
    picked as m = [] ↔ m = 0 := by
  have zero : picked as 0 = [] := by simp [picked]
  refine ⟨fun empty => ?_, fun e => e ▸ zero⟩
  exact picked_injOn nodup hm (Nat.two_pow_pos _) (empty.trans zero.symm)

/-- The numbers of the non-empty sublists. -/
lemma filter_picked {as : List α} (nodup : as.Nodup) :
    (List.range (2 ^ as.length)).filter (fun m => !(picked as m).isEmpty) =
      List.range' 1 (2 ^ as.length - 1) := by
  have split : List.range (2 ^ as.length) = 0 :: List.range' 1 (2 ^ as.length - 1) := by
    obtain ⟨n, hn⟩ := Nat.exists_eq_add_of_lt (Nat.two_pow_pos as.length)
    rw [hn, Nat.zero_add, Nat.add_sub_cancel, List.range_eq_range', List.range'_succ]
  rw [split, List.filter_cons_of_neg (by simp [picked]), List.filter_eq_self]
  intro m hm
  obtain ⟨low, high⟩ := List.mem_range'_1.1 hm
  rw [Bool.not_eq_true', List.isEmpty_eq_false_iff, Ne, picked_eq_nil nodup (by omega)]
  omega

/-- A sublist without repetition is determined by its items. -/
lemma eq_of_sublists {as s t : List α} (nodup : as.Nodup) (hs : s.Sublist as) (ht : t.Sublist as)
    (same : ∀ a, a ∈ s ↔ a ∈ t) : s = t := by
  induction as generalizing s t with
  | nil => rw [List.sublist_nil.1 hs, List.sublist_nil.1 ht]
  | cons a as ih =>
      obtain ⟨new, nodup⟩ := List.nodup_cons.1 nodup
      cases hs with
      | cons _ hs =>
          cases ht with
          | cons _ ht => exact ih nodup hs ht same
          | cons_cons _ ht => exact absurd (hs.subset ((same a).2 List.mem_cons_self)) new
      | cons_cons _ hs =>
          cases ht with
          | cons _ ht => exact absurd (ht.subset ((same a).1 List.mem_cons_self)) new
          | cons_cons _ ht =>
              refine congrArg (a :: ·) (ih nodup hs ht fun b => ?_)
              have apart : ∀ {u : List α}, u.Sublist as → a ∉ u := fun sub h => new (sub.subset h)
              grind

/-- A stable sort keeps the order of items that are level. -/
lemma pairwise_mergeSort_of_pairwise {le : α → α → Bool} {before : α → α → Prop} {as : List α}
    (trans : ∀ a b c, le a b = true → le b c = true → le a c = true)
    (total : ∀ a b, (le a b || le b a) = true) (ordered : as.Pairwise before) :
    (as.mergeSort le).Pairwise fun a b => le a b = true ∧ (le b a = true → before a b) := by
  refine List.pairwise_iff_forall_sublist.2 fun {a b} sub => ?_
  have sorted := List.pairwise_iff_forall_sublist.1 (List.pairwise_mergeSort trans total as) sub
  refine ⟨sorted, fun back => List.pairwise_iff_forall_sublist.1 ordered ?_⟩
  -- The items that are level with `a` are sorted as they stand, so sorting leaves them so.
  let level : α → Bool := fun x => le a x && le x a
  have kept : (as.filter level).Sublist ((as.mergeSort le).filter level) := by
    have inside : (as.filter level).Sublist (as.mergeSort le) := by
      refine List.sublist_mergeSort trans total ?_ List.filter_sublist
      refine List.pairwise_of_forall_mem_list fun x hx y hy => ?_
      have hx := (Bool.and_eq_true _ _ ▸ (List.mem_filter.1 hx).2).2
      have hy := (Bool.and_eq_true _ _ ▸ (List.mem_filter.1 hy).2).1
      exact trans x a y hx hy
    simpa only [List.filter_filter, Bool.and_self] using inside.filter level
  have same : as.filter level = (as.mergeSort le).filter level :=
    kept.eq_of_length ((List.mergeSort_perm as le).filter level).length_eq.symm
  have pair : [a, b].filter level = [a, b] := by
    have self : le a a = true := by simpa using total a a
    simp [level, self, sorted, back]
  rw [← pair]
  exact (same ▸ sub.filter level).trans List.filter_sublist

/-- The numbers of the non-empty sublists, those of the longest sublists first. -/
def numbering (as : List α) : List Nat :=
  (List.range' 1 (2 ^ as.length - 1)).mergeSort fun m n =>
    (picked as n).length ≤ (picked as m).length

lemma numbering_perm (as : List α) : (numbering as).Perm (List.range' 1 (2 ^ as.length - 1)) :=
  List.mergeSort_perm _ _

/-- Sublists of one length come in the order of counting. -/
lemma numbering_ordered (as : List α) : (numbering as).Pairwise fun m n =>
    (picked as n).length < (picked as m).length ∨
      (picked as n).length = (picked as m).length ∧ m < n := by
  refine (pairwise_mergeSort_of_pairwise ?_ ?_ List.pairwise_lt_range').imp fun {m n} h => ?_
  · simp only [decide_eq_true_eq]
    omega
  · simp only [Bool.or_eq_true, decide_eq_true_eq]
    omega
  · obtain ⟨sorted, level⟩ := h
    rw [decide_eq_true_eq] at sorted
    refine (Nat.lt_or_eq_of_le sorted).imp id fun e => ⟨e, level ?_⟩
    rw [decide_eq_true_eq, e]

lemma mem_numbering {as : List α} {m : Nat} : m ∈ numbering as ↔ m ≠ 0 ∧ m < 2 ^ as.length := by
  rw [(numbering_perm as).mem_iff, List.mem_range'_1]
  omega

/-- The numbers stand for the non-empty sublists. -/
lemma numbering_eq (as : List α) (nodup : as.Nodup) : numbering as =
    ((List.range (2 ^ as.length)).filter fun m => !(picked as m).isEmpty).mergeSort fun m n =>
      (picked as n).length ≤ (picked as m).length := by
  rw [filter_picked nodup, numbering]

/-- Every non-empty sublist has one number. -/
lemma existsUnique_numbering {as s : List α} (nodup : as.Nodup) (sub : s.Sublist as)
    (nonempty : s ≠ []) : ∃! m, m ∈ numbering as ∧ picked as m = s := by
  obtain ⟨m, hm, e⟩ := exists_picked sub
  have positive : m ≠ 0 := fun zero => nonempty (e ▸ (picked_eq_nil nodup hm).2 zero)
  refine ⟨m, ⟨mem_numbering.2 ⟨positive, hm⟩, e⟩, ?_⟩
  rintro n ⟨hn, en⟩
  exact picked_injOn nodup (mem_numbering.1 hn).2 hm (en.trans e.symm)

/-- The first number stands for the whole list. -/
lemma picked_head_numbering {as : List α} (nodup : as.Nodup) {m : Nat} {others : List Nat}
    (h : numbering as = m :: others) : picked as m = as := by
  have sub := picked_sublist as m
  refine sub.eq_of_length_le ?_
  by_cases nonempty : as = []
  · simp [nonempty]
  · obtain ⟨n, ⟨hn, e⟩, -⟩ := existsUnique_numbering nodup (List.Sublist.refl as) nonempty
    have ordered := numbering_ordered as
    rw [h] at hn ordered
    rcases List.mem_cons.1 hn with rfl | hn
    · rw [e]
    · have := List.rel_of_pairwise_cons ordered hn
      rw [e] at this
      omega

end Counting

/-! ## The literals to choose from -/

/-- The body literals of the reference clause that the rejected one mentions in neither of its
bodies, each where it occurs first. -/
def bodyDifference (rejected reference : Clause) : List Literal :=
  (reference.completeBody.zipIdx.filter fun p =>
    ¬ p.1.Among (reference.completeBody.take p.2) ∧
      ¬ p.1.Among rejected.body ∧ ¬ p.1.Among rejected.negBody).map Prod.fst

/-- The distinct literals are those that have no equivalent one before them. -/
lemma distinct_eq_filter (ls : List Literal) : Literal.distinct ls =
    (ls.zipIdx.filter fun p => ¬ p.1.Among (ls.take p.2)).map Prod.fst := by
  induction ls with
  | nil => rfl
  | cons l ls ih =>
      have first : ¬ l.Among [] := fun ⟨_, hm, _⟩ => List.not_mem_nil hm
      have later : ∀ (m : Literal) (ks : List Literal), m.Among (l :: ks) ↔ l ≈ m ∨ m.Among ks := by
        intro m ks
        simp only [Literal.Among, List.exists_mem_cons_iff]
        exact or_congr_left ⟨Setoid.symm, Setoid.symm⟩
      rw [Literal.distinct, ih, List.zipIdx_cons, List.filter_cons_of_pos (by simp [first]),
        List.map_cons, List.zipIdx_succ, List.filter_map, List.filter_map, List.filter_filter,
        List.map_map]
      simp only [Function.comp_def, List.take_succ_cons, later, not_or, Bool.decide_and]

lemma candidates_eq_bodyDifference (rejected reference : Clause) :
    candidates rejected reference = bodyDifference rejected reference := by
  rw [candidates, distinct_eq_filter, List.filter_map, List.filter_filter, bodyDifference]
  congr 1
  refine List.filter_congr fun p _ => ?_
  simp [Literal.Among, Clause.completeBody, or_imp, forall_and, and_comm]

/-- No two candidates are equivalent. -/
lemma pairwise_candidates (rejected reference : Clause) :
    (candidates rejected reference).Pairwise fun k l => ¬ k ≈ l :=
  (Literal.pairwise_distinct reference.completeBody).filter _

lemma nodup_candidates (rejected reference : Clause) : (candidates rejected reference).Nodup :=
  (pairwise_candidates rejected reference).imp <| by
    rintro k _ different rfl
    exact different (Setoid.refl k)

/-- Equivalent candidates are the same. -/
lemma eq_of_candidates {rejected reference : Clause} {k l : Literal}
    (hk : k ∈ candidates rejected reference) (hl : l ∈ candidates rejected reference)
    (e : k ≈ l) : k = l := by
  have : Std.Symm fun k l : Literal => ¬ k ≈ l := ⟨fun _ _ h e => h (Setoid.symm e)⟩
  by_contra different
  exact (pairwise_candidates rejected reference).forall hk hl different e

/-! ## The versions -/

section Versions

variable {rejected : Rule} {reference : Clause} {s t : List Literal}

lemma literalCount_against (rejected : Rule) (reference : Clause) (s : List Literal) :
    (rejected.against reference s).literalCount = rejected.literalCount + s.length := by
  have parts := List.length_eq_length_filter_add (l := s) fun l => decide (l.Among reference.body)
  simp only [Rule.against, Rule.extend, Rule.withClause, Clause.extended, Clause.literalCount,
    Clause.literals, Clause.completeBody, List.length_append, decide_not]
  omega

/-- Equivalent versions take in the same candidates. -/
lemma mem_of_against_equiv (hs : ∀ l ∈ s, l ∈ candidates rejected.toClause reference)
    (ht : ∀ l ∈ t, l ∈ candidates rejected.toClause reference)
    (e : (rejected.against reference s).toClause ≈ (rejected.against reference t).toClause)
    {l : Literal} (hl : l ∈ s) : l ∈ t := by
  have new := of_decide_eq_true (List.mem_filter.1 (hs l hl)).2
  have same : ∀ k ∈ t, l ≈ k → l ∈ t := fun k hk e =>
    eq_of_candidates (hs l hl) (ht k hk) e ▸ hk
  by_cases among : l.Among reference.body
  · obtain ⟨k, hk, e⟩ := e.2.2.1 l
      (List.mem_append_right _ (List.mem_filter.2 ⟨hl, decide_eq_true among⟩))
    rcases List.mem_append.1 hk with hk | hk
    · exact absurd ⟨k, List.mem_append_right _ hk, e⟩ new
    · exact same k (List.mem_filter.1 hk).1 e
  · obtain ⟨k, hk, e⟩ := e.2.1.1 l
      (List.mem_append_right _ (List.mem_filter.2 ⟨hl, decide_eq_true among⟩))
    rcases List.mem_append.1 hk with hk | hk
    · exact absurd ⟨k, List.mem_append_left _ hk, e⟩ new
    · exact same k (List.mem_filter.1 hk).1 e

/-- The versions in the order of their numbers. -/
lemma modifications_eq_map (rejected : Rule) (reference : Clause) :
    modifications rejected reference =
      (numbering (candidates rejected.toClause reference)).map fun m =>
        rejected.against reference (picked (candidates rejected.toClause reference) m) := by
  rw [modifications, selections_eq_sublists, sublists_eq_picked, List.filter_map, List.map_map,
    numbering_eq _ (nodup_candidates _ _)]
  refine (List.map_mergeSort fun m _ n _ => ?_).symm
  simp only [literalCount_against, Function.comp_apply, Nat.add_le_add_iff_left]

/-- The versions say different things. -/
lemma pairwise_modifications (rejected : Rule) (reference : Clause) :
    (modifications rejected reference).Pairwise fun v w => ¬ v.toClause ≈ w.toClause := by
  have nodup := nodup_candidates rejected.toClause reference
  have sub := picked_sublist (candidates rejected.toClause reference)
  rw [modifications_eq_map, List.pairwise_map]
  refine List.Pairwise.imp_of_mem (fun {m n} hm hn different e => different ?_)
    ((numbering_perm _).nodup_iff.2 List.nodup_range')
  have inside := fun m l (hl : l ∈ picked _ m) => (sub m).subset hl
  have both : ∀ l, l ∈ picked _ m ↔ l ∈ picked _ n := fun l =>
    ⟨mem_of_against_equiv (inside m) (inside n) e,
      mem_of_against_equiv (inside n) (inside m) (Setoid.symm e)⟩
  exact picked_injOn nodup (mem_numbering.1 hm).2 (mem_numbering.1 hn).2
    (eq_of_sublists nodup (sub m) (sub n) both)

lemma exclusive_of_mem_modifications {v : Rule} (h : v ∈ modifications rejected reference) :
    Exclusive v.toClause reference ∧ Exclusive reference v.toClause := by
  obtain ⟨l, ⟨pos, neg⟩ | ⟨neg, pos⟩⟩ := (isVersion_of_mem_modifications h).blocks
  · exact ⟨Or.inr (Or.inl ⟨l, pos, Literal.among_of_mem neg⟩),
      Or.inr (Or.inr ⟨l, neg, Literal.among_of_mem pos⟩)⟩
  · exact ⟨Or.inr (Or.inr ⟨l, neg, Literal.among_of_mem pos⟩),
      Or.inr (Or.inl ⟨l, pos, Literal.among_of_mem neg⟩)⟩

/-- **The versions are the ordered power set of the body difference.**  A number from one up to
`2 ^ n - 1` stands for each non-empty subset of the `n` literals to choose from.  The version with
that number keeps the head, the identifier and the label of the rule; the chosen literals are
appended to its bodies in their order, those of the positive reference body under default negation.
The versions are pairwise different and exclusive with the reference clause.  Those that take in
more literals come first, in particular the one that takes in all of them, and those that take in
equally many come in the order of their numbers. -/
theorem modifications_powerSet (rejected : Rule) (reference : Clause) :
    let difference := bodyDifference rejected.toClause reference
    let version := fun chosen : List Literal =>
      { rejected with
        body := rejected.body ++ chosen.filter fun l => ¬ l.Among reference.body
        negBody := rejected.negBody ++ chosen.filter fun l => l.Among reference.body }
    (∃ numbers : List Nat,
      numbers.Perm (List.range' 1 (2 ^ difference.length - 1)) ∧
      (∀ s, s ≠ [] → s.Sublist difference → ∃! m, m ∈ numbers ∧ picked difference m = s) ∧
      (∀ m ∈ numbers, picked difference m ≠ [] ∧ (picked difference m).Sublist difference) ∧
      (numbers.Pairwise fun m n =>
        (picked difference n).length < (picked difference m).length ∨
          (picked difference n).length = (picked difference m).length ∧ m < n) ∧
      modifications rejected reference = numbers.map fun m => version (picked difference m)) ∧
    (modifications rejected reference).length = 2 ^ difference.length - 1 ∧
    (∀ first ∈ (modifications rejected reference).head?, first = version difference) ∧
    ((modifications rejected reference).Pairwise fun v w => ¬ v.toClause ≈ w.toClause) ∧
    ∀ v ∈ modifications rejected reference,
      Exclusive v.toClause reference ∧ Exclusive reference v.toClause := by
  intro difference version
  have eq : candidates rejected.toClause reference = difference := candidates_eq_bodyDifference _ _
  have nodup : difference.Nodup := eq ▸ nodup_candidates _ _
  have versions : modifications rejected reference =
      (numbering difference).map fun m => version (picked difference m) := by
    rw [modifications_eq_map, eq]
    rfl
  refine ⟨⟨numbering difference, numbering_perm _, fun s nonempty sub =>
    existsUnique_numbering nodup sub nonempty, fun m hm => ⟨?_, picked_sublist _ m⟩,
    numbering_ordered _, versions⟩, ?_, ?_, pairwise_modifications _ _,
    fun v hv => exclusive_of_mem_modifications hv⟩
  · obtain ⟨positive, bound⟩ := mem_numbering.1 hm
    exact mt (picked_eq_nil nodup bound).1 positive
  · rw [versions, List.length_map, (numbering_perm _).length_eq, List.length_range']
  · intro first hfirst
    rw [versions, List.head?_map] at hfirst
    obtain ⟨m, hm, rfl⟩ := Option.mem_map.1 hfirst
    obtain ⟨others, h⟩ := List.head?_eq_some_iff.1 hm
    rw [picked_head_numbering nodup h]

end Versions

end CausalUpdate
