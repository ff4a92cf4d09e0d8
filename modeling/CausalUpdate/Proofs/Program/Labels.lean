import CausalUpdate.Proofs.Program.Reading
import Mathlib.Data.Int.Interval
import Mathlib.Data.Set.Card
import Mathlib.Order.Bounds.Defs

/-!
# Labels

The next free label is the first one that is not taken, and rules that are given new labels come
under the first ones that are free.  Which number a label has among the free ones is told by how
many of them lie below it (`IsFreeLabel`).  Every label that is given is taken from then on, and the
search goes on from it; a label that is free then was free before, and one more free label lies
below it (`IsFreeLabel.succ`).

* `nextFreeLabel_isLeast`, `nextFreeLabel_eq` — what the next free label is, and how it is found.
* `isFreeLabel_of_relabel` — which labels rules are given.
* `relabel_fresh`, `pairwise_relabel` — new labels are distinct, and none was taken before.
* `Program.relabelled_smallest_free` — what becomes of a program.
-/

namespace CausalUpdate

lemma mem_releaseLabel {taken : List Int} {label l : Int} :
    l ∈ releaseLabel taken label ↔ l ∈ taken ∧ l ≠ label := by
  simp [releaseLabel]

/-- **The next free label is the first one that is not taken.** -/
theorem nextFreeLabel_isLeast (taken : List Int) (start : Int) :
    IsLeast {l | start ≤ l ∧ l ∉ taken} (nextFreeLabel taken start) := by
  induction taken, start using nextFreeLabel.induct with
  | case1 taken start passed ih =>
      rw [nextFreeLabel, dif_pos passed]
      obtain ⟨⟨above, free⟩, least⟩ := ih
      -- the labels that have been passed are below, so it does not matter that they are released
      refine ⟨⟨by omega, fun inside => free (mem_releaseLabel.2 ⟨inside, by omega⟩)⟩, ?_⟩
      rintro l ⟨from_start, free⟩
      have other : l ≠ start := fun e => free (e ▸ passed)
      exact least ⟨by omega, fun inside => free (mem_releaseLabel.1 inside).1⟩
  | case2 taken start free =>
      rw [nextFreeLabel, dif_neg free]
      exact ⟨⟨Int.le_refl _, free⟩, fun l h => h.1⟩

/-- **Labels are looked at one after the other**, and it does not matter that those that have been
passed are no longer among the taken ones. -/
theorem nextFreeLabel_eq (taken : List Int) (start : Int) : nextFreeLabel taken start =
    if start ∈ taken then nextFreeLabel taken (start + 1) else start := by
  refine (nextFreeLabel_isLeast taken start).unique ?_
  split
  · rename_i passed
    obtain ⟨⟨above, free⟩, least⟩ := nextFreeLabel_isLeast taken (start + 1)
    refine ⟨⟨by omega, free⟩, fun l ⟨from_start, unused⟩ => least ⟨?_, unused⟩⟩
    have other : l ≠ start := fun e => unused (e ▸ passed)
    omega
  · rename_i free
    exact ⟨⟨Int.le_refl _, free⟩, fun l h => h.1⟩

lemma nextFreeLabel_not_mem (taken : List Int) (start : Int) : nextFreeLabel taken start ∉ taken :=
  (nextFreeLabel_isLeast taken start).1.2

/-! ## The labels that are given -/

/-- The labels from `start` up to a label that are not taken. -/
def freeBelow (taken : List Int) (start label : Int) : Set Int :=
  {l | start ≤ l ∧ l < label ∧ l ∉ taken}

lemma finite_freeBelow (taken : List Int) (start label : Int) :
    (freeBelow taken start label).Finite :=
  (Set.finite_Ico start label).subset fun _ h => ⟨h.1, h.2.1⟩

lemma ncard_between (start label : Int) :
    {l | start ≤ l ∧ l < label}.ncard = (label - start).toNat := by
  rw [← Int.card_Ico, ← Set.ncard_coe_finset, Finset.coe_Ico]
  rfl

/-- The label is the one with number `i`, from 0 on, of those from `start` upwards that are not
taken. -/
structure IsFreeLabel (taken : List Int) (start : Int) (i : Nat) (label : Int) : Prop where
  above : start ≤ label
  free : label ∉ taken
  before : (freeBelow taken start label).ncard = i

namespace IsFreeLabel

variable {taken : List Int} {start label other : Int} {i j : Nat}

lemma of_isLeast (h : IsLeast {l | start ≤ l ∧ l ∉ taken} label) :
    IsFreeLabel taken start 0 label := by
  obtain ⟨⟨above, free⟩, least⟩ := h
  refine ⟨above, free, (Set.ncard_eq_zero (finite_freeBelow _ _ _)).2 ?_⟩
  refine Set.eq_empty_iff_forall_notMem.2 ?_
  rintro l ⟨from_start, before, unused⟩
  exact absurd (least ⟨from_start, unused⟩) (Int.not_le.2 before)

/-- No label below the first free one is free. -/
lemma mem_of_lt (first : IsFreeLabel taken start 0 label) {l : Int} (from_start : start ≤ l)
    (before : l < label) : l ∈ taken := by
  by_contra unused
  have none_free := (Set.ncard_eq_zero (finite_freeBelow _ _ _)).1 first.before
  exact Set.eq_empty_iff_forall_notMem.1 none_free l ⟨from_start, before, unused⟩

/-- When the first free label has been taken, the free labels from there on are the later ones. -/
lemma succ (first : IsFreeLabel taken start 0 other)
    (h : IsFreeLabel (other :: taken) other i label) : IsFreeLabel taken start (i + 1) label := by
  obtain ⟨different, free⟩ := not_or.1 (mt List.mem_cons.2 h.free)
  have below : other < label := lt_of_le_of_ne h.above (Ne.symm different)
  have parts : freeBelow taken start label =
      insert other (freeBelow (other :: taken) other label) := by
    ext l
    simp only [freeBelow, Set.mem_ofPred_eq, Set.mem_insert_iff, List.mem_cons, not_or]
    constructor
    · rintro ⟨from_start, before, unused⟩
      by_cases same : l = other
      · exact Or.inl same
      · have behind : other ≤ l := Int.not_lt.1 fun lt => unused (first.mem_of_lt from_start lt)
        exact Or.inr ⟨behind, before, same, unused⟩
    · rintro (rfl | ⟨behind, before, -, unused⟩)
      · exact ⟨first.above, below, first.free⟩
      · exact ⟨first.above.trans behind, before, unused⟩
  refine ⟨first.above.trans h.above, free, ?_⟩
  have new : other ∉ freeBelow (other :: taken) other label := fun h => h.2.2 List.mem_cons_self
  rw [parts, Set.ncard_insert_of_notMem new (finite_freeBelow _ _ _), h.before]

/-- Labels come in the order of their numbers. -/
lemma lt_of_lt (h : IsFreeLabel taken start i label) (k : IsFreeLabel taken start j other)
    (lt : i < j) : label < other := by
  by_contra le
  have fewer : freeBelow taken start other ⊆ freeBelow taken start label :=
    fun l hl => ⟨hl.1, hl.2.1.trans_le (Int.not_lt.1 le), hl.2.2⟩
  have := Set.ncard_le_ncard fewer (finite_freeBelow _ _ _)
  rw [h.before, k.before] at this
  omega

/-- Only labels that are taken are passed over. -/
lemma le_add (h : IsFreeLabel taken start i label) : label ≤ start + i + taken.length := by
  have all : {l | start ≤ l ∧ l < label} ⊆ freeBelow taken start label ∪ taken.toFinset := by
    intro l hl
    by_cases used : l ∈ taken
    · exact Or.inr (by simpa using used)
    · exact Or.inl ⟨hl.1, hl.2, used⟩
  have count : {l | start ≤ l ∧ l < label}.ncard ≤ i + taken.length := by
    refine (Set.ncard_le_ncard all ((finite_freeBelow _ _ _).union (Finset.finite_toSet _))).trans ?_
    refine (Set.ncard_union_le _ _).trans ?_
    rw [h.before, Set.ncard_coe_finset]
    exact Nat.add_le_add_left taken.toFinset_card_le i
  rw [ncard_between] at count
  omega

lemma eq_add (h : IsFreeLabel [] start i label) : label = start + i := by
  have all : freeBelow [] start label = {l | start ≤ l ∧ l < label} := by
    ext l
    simp [freeBelow]
  have before := h.before
  have above := h.above
  rw [all, ncard_between] at before
  omega

end IsFreeLabel

/-- **New labels are the free ones in their order.** -/
lemma isFreeLabel_of_relabel {taken : List Int} {start label : Int} {rs : List Rule} {i : Nat}
    (h : ((relabel taken start rs).map Rule.label)[i]? = some label) :
    IsFreeLabel taken start i label := by
  induction rs generalizing taken start i with
  | nil => cases h
  | cons r rs ih =>
      have first := IsFreeLabel.of_isLeast (nextFreeLabel_isLeast taken start)
      rw [relabel, List.map_cons] at h
      cases i with
      | zero =>
          obtain rfl := Option.some.inj h
          exact first
      | succ i => exact first.succ (ih h)

lemma exists_isFreeLabel_of_mem {taken : List Int} {start : Int} {rs : List Rule} {r : Rule}
    (h : r ∈ relabel taken start rs) : ∃ i, IsFreeLabel taken start i r.label := by
  obtain ⟨i, hi⟩ := List.mem_iff_getElem?.1 (List.mem_map_of_mem h)
  exact ⟨i, isFreeLabel_of_relabel hi⟩

/-- New labels were not taken before. -/
lemma relabel_fresh (taken : List Int) (start : Int) (rs : List Rule) :
    ∀ r ∈ relabel taken start rs, r.label ∉ taken := by
  intro r hr
  obtain ⟨i, given⟩ := exists_isFreeLabel_of_mem hr
  exact given.free

/-- **New labels grow from rule to rule.** -/
theorem pairwise_relabel (taken : List Int) (start : Int) (rs : List Rule) :
    ((relabel taken start rs).map Rule.label).Pairwise (· < ·) := by
  refine List.pairwise_iff_getElem.2 fun i j hi hj lt => ?_
  exact (isFreeLabel_of_relabel (List.getElem?_eq_getElem hi)).lt_of_lt
    (isFreeLabel_of_relabel (List.getElem?_eq_getElem hj)) lt

/-- A program under new labels has none in common with the rules that were to be respected. -/
lemma Program.nodup_labels_relabelled {p : Program} {start : Int} {reserved : List Rule}
    (distinct : (reserved.map Rule.label).Nodup) :
    ((reserved ++ (p.relabelled start reserved).rules).map Rule.label).Nodup := by
  rw [List.map_append]
  have own := (pairwise_relabel (reserved.map Rule.label) start p.rules).imp ne_of_lt
  refine List.nodup_append.2 ⟨distinct, own, fun i hi j hj e => ?_⟩
  obtain ⟨r, hr, rfl⟩ := List.mem_map.1 hj
  exact relabel_fresh _ _ _ r hr (e ▸ hi)

/-- **Programs are given the smallest free labels.**  The rules of the program stay as they are and
where they are, and the rule with number `i` gets the free label with that number, which the search
reaches without passing over more labels than there are rules before it and rules to be respected.
So the new labels grow from rule to rule and are none of those to be respected; and if there are
none, they are the numbers from `start` upwards. -/
theorem Program.relabelled_smallest_free (p : Program) (start : Int) (reserved : List Rule) :
    (p.relabelled start reserved).name = p.name ∧ SameRules (p.relabelled start reserved) p ∧
      (∀ i r, (p.relabelled start reserved).rules[i]? = some r →
        IsFreeLabel (reserved.map Rule.label) start i r.label ∧
          r.label ≤ start + i + reserved.length) ∧
      ((p.relabelled start reserved).rules.map Rule.label).Pairwise (· < ·) ∧
      (∀ r ∈ (p.relabelled start reserved).rules, ∀ s ∈ reserved, r.label ≠ s.label) ∧
      (p.relabelled start []).rules.map Rule.label =
        (List.range p.size).map fun i : Nat => start + i := by
  have given : ∀ {reserved i r}, (p.relabelled start reserved).rules[i]? = some r →
      IsFreeLabel (reserved.map Rule.label) start i r.label := by
    intro reserved i r h
    apply isFreeLabel_of_relabel
    rw [List.getElem?_map]
    exact congrArg (Option.map Rule.label) h
  have same := sameRules_relabelled p start
  refine ⟨rfl, same reserved, fun i r h => ⟨given h, ?_⟩, pairwise_relabel _ _ _, ?_, ?_⟩
  · simpa using (given h).le_add
  · exact fun r hr s hs e => relabel_fresh _ _ _ r hr (e ▸ List.mem_map_of_mem hs)
  · have length : (p.relabelled start []).rules.length = p.size := by
      simpa [size] using congrArg List.length (same [])
    refine List.ext_getElem? fun i => ?_
    rw [List.getElem?_map, List.getElem?_map]
    cases h : (p.relabelled start []).rules[i]? with
    | none =>
        rw [List.getElem?_eq_none_iff, length] at h
        rw [List.getElem?_eq_none (by simpa using h)]
        rfl
    | some r =>
        have inside := (List.getElem?_eq_some_iff.1 h).1
        rw [length] at inside
        rw [List.getElem?_range inside]
        exact congrArg some (given h).eq_add

/-- Labels below the start, and the same label twice, are to be respected. -/
theorem Program.relabelled_smallest_free_gaps :
    let fact : Rule := { head := some ⟨⟨"a", []⟩, false⟩, id := 7 }
    let p : Program := { rules := [fact, fact, fact] }
    let reserved := [1, -3, 1, 2].map fact.withLabel
    (p.relabelled 0 reserved).rules[1]? = some (fact.withLabel 3) ∧
      IsFreeLabel [1, -3, 1, 2] 0 1 3 := by
  intro fact p reserved
  have second : (p.relabelled 0 reserved).rules[1]? = some (fact.withLabel 3) := by
    simp [p, reserved, relabelled, relabel, nextFreeLabel, releaseLabel, Rule.withLabel]
  exact ⟨second, ((relabelled_smallest_free p 0 reserved).2.2.1 1 _ second).1⟩

end CausalUpdate
