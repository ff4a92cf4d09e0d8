import CausalUpdate.Proofs.StableModel.Chaining
import CausalUpdate.Proofs.Text.Order

/-!
# The enumeration of stable models

The search decides the default-negated atoms one after the other.  `Undecided` is its invariant: no
atom is decided both ways, and every default-negated atom is decided or still to be decided.  Under
it the bounds of a decision enclose every stable model that agrees with the decision, and once
nothing is left to be decided they leave room for one candidate only.

* `lower_subset`, `subset_upper`, `not_refute` — what the bounds say about stable models.
* `search_found` — a search finds the stable models that agree with its decision, each once.
* `stableSets_found` — all stable models are found, each once.
-/

namespace CausalUpdate

/-- The state of a search: `atoms` are still to be decided, `yes` are held and `no` are not. -/
structure Undecided (rules : List GroundRule) (atoms yes no : List String) : Prop where
  nodup : atoms.Nodup
  apart : ∀ a ∈ yes, a ∉ no
  left : ∀ a ∈ atoms, a ∉ yes ∧ a ∉ no
  covers : ∀ r ∈ rules, r.head.isSome → ∀ a ∈ r.neg, a ∈ atoms ∨ a ∈ yes ∨ a ∈ no

/-- The set of atoms agrees with a decision. -/
structure Agrees (held : String → Prop) (yes no : List String) : Prop where
  yes : ∀ a ∈ yes, held a
  no : ∀ a ∈ no, ¬ held a

section

variable {rules : List GroundRule} {atoms yes no : List String} {held : String → Prop}
  {a : String}

/-! ## Bounds -/

lemma mem_lower_iff : a ∈ (Bounds.of rules yes no).lower ↔
    Closure (rules.filter fun r => r.neg.all no.contains) (· ∈ ([] : List String)) a :=
  mem_saturate_iff

lemma mem_upper_iff : a ∈ (Bounds.of rules yes no).upper ↔
    Closure (rules.filter fun r => !r.neg.any yes.contains) (· ∈ ([] : List String)) a :=
  mem_saturate_iff

/-- What the lower bound holds, every stable model does that agrees with the decision. -/
lemma lower_subset (stable : IsStable rules held) (agrees : Agrees held yes no)
    (h : a ∈ (Bounds.of rules yes no).lower) : held a := by
  rw [mem_lower_iff] at h
  rw [stable.founded]
  induction h with
  | base h => exact absurd h List.not_mem_nil
  | rule mem head _ ih =>
      have mem := List.mem_filter.1 mem
      refine .rule mem.1 head ih fun b hb => agrees.no b ?_
      simpa using List.all_eq_true.1 mem.2 b hb

/-- What a stable model holds that agrees with the decision, the upper bound does. -/
lemma subset_upper (stable : IsStable rules held) (agrees : Agrees held yes no) (h : held a) :
    a ∈ (Bounds.of rules yes no).upper := by
  rw [mem_upper_iff]
  rw [stable.founded] at h
  induction h with
  | @rule r a mem head _ neg ih =>
      have kept : ∀ b ∈ r.neg, b ∉ yes := fun b hb hy => neg b hb (agrees.yes b hy)
      exact .rule (List.mem_filter.2 ⟨mem, by simpa using kept⟩) head ih

/-- A decision that a stable model agrees with is not refuted. -/
lemma not_refute (stable : IsStable rules held) (agrees : Agrees held yes no) :
    (Bounds.of rules yes no).refute rules yes no = false := by
  rw [Bool.eq_false_iff, ne_eq, Bounds.refute]
  simp only [Bool.or_eq_true, List.any_eq_true, List.contains_iff_mem, Bool.not_eq_true',
    Bool.and_eq_true, Option.isNone_iff_eq_none, firesIn_iff, hasClash_iff]
  rintro (((⟨a, hno, hl⟩ | ⟨a, hyes, hu⟩) | ⟨a, hl, hl'⟩) | ⟨r, hr, ⟨head, fires⟩, neg⟩)
  · exact agrees.no a hno (lower_subset stable agrees hl)
  · have := subset_upper stable agrees (agrees.yes a hyes)
    simp [this] at hu
  · exact stable.consistent a ⟨lower_subset stable agrees hl, lower_subset stable agrees hl'⟩
  · refine stable.constraints r hr head ⟨fun b hb => lower_subset stable agrees (fires b hb), ?_⟩
    intro b hb hheld
    have := subset_upper stable agrees hheld
    rw [List.any_eq_false] at neg
    exact neg b hb (by simpa using this)

/-- The lower bound is below the upper one. -/
lemma lower_subset_upper (apart : ∀ a ∈ yes, a ∉ no) (h : a ∈ (Bounds.of rules yes no).lower) :
    a ∈ (Bounds.of rules yes no).upper := by
  rw [mem_lower_iff] at h
  rw [mem_upper_iff]
  refine h.mono (fun r hr _ => ?_) fun b hb => hb
  have hr := List.mem_filter.1 hr
  refine List.mem_filter.2 ⟨hr.1, ?_⟩
  have decided : ∀ b ∈ r.neg, b ∉ yes := by
    intro b hb hy
    exact apart b hy (by simpa using List.all_eq_true.1 hr.2 b hb)
  simpa using decided

/-- Once everything is decided, the bounds meet. -/
lemma upper_subset_lower (state : Undecided rules [] yes no)
    (h : a ∈ (Bounds.of rules yes no).upper) : a ∈ (Bounds.of rules yes no).lower := by
  rw [mem_upper_iff] at h
  rw [mem_lower_iff]
  refine h.mono (fun r hr head => ?_) fun b hb => hb
  have hr := List.mem_filter.1 hr
  have free : ∀ b ∈ r.neg, b ∉ yes := by simpa using hr.2
  refine List.mem_filter.2 ⟨hr.1, ?_⟩
  have decided : ∀ b ∈ r.neg, b ∈ no := by
    intro b hb
    rcases state.covers r hr.1 head b hb with h | h | h
    · exact absurd h List.not_mem_nil
    · exact absurd h (free b hb)
    · exact h
  simpa using decided

/-! ## Steps of the search -/

namespace Undecided

/-- The atoms that the bounds settle can be decided at once. -/
lemma settle (state : Undecided rules atoms yes no) :
    Undecided rules ((Bounds.of rules yes no).undecided atoms)
      (atoms.filter (Bounds.of rules yes no).lower.contains ++ yes)
      (atoms.filter (fun a => !(Bounds.of rules yes no).upper.contains a) ++ no) where
  nodup := state.nodup.filter _
  apart a ha hno := by
    simp only [List.mem_append, List.mem_filter, List.contains_iff_mem, Bool.not_eq_true',
      ← Bool.not_eq_true] at ha hno
    rcases ha with ⟨ha, hl⟩ | ha
    · rcases hno with ⟨-, hu⟩ | hno
      · exact hu (lower_subset_upper state.apart hl)
      · exact (state.left a ha).2 hno
    · rcases hno with ⟨hno, -⟩ | hno
      · exact (state.left a hno).1 ha
      · exact state.apart a ha hno
  left a ha := by
    simp only [Bounds.undecided, List.mem_filter, Bool.and_eq_true, List.contains_iff_mem,
      Bool.not_eq_true', ← Bool.not_eq_true] at ha
    simp only [List.mem_append, List.mem_filter, List.contains_iff_mem, Bool.not_eq_true',
      ← Bool.not_eq_true]
    have open_ := state.left a ha.1
    exact ⟨fun h => h.elim (fun h => ha.2.1 h.2) open_.1,
      fun h => h.elim (fun h => h.2 ha.2.2) open_.2⟩
  covers r hr head a ha := by
    simp only [Bounds.undecided, List.mem_append, List.mem_filter, Bool.and_eq_true,
      List.contains_iff_mem, Bool.not_eq_true', ← Bool.not_eq_true]
    have := state.covers r hr head a ha
    grind

lemma decideYes {rest : List String} (state : Undecided rules (a :: rest) yes no) :
    Undecided rules rest (a :: yes) no where
  nodup := (List.nodup_cons.1 state.nodup).2
  apart b hb hno := by
    rcases List.mem_cons.1 hb with rfl | hb
    · exact (state.left b List.mem_cons_self).2 hno
    · exact state.apart b hb hno
  left b hb := by
    have open_ := state.left b (List.mem_cons_of_mem _ hb)
    refine ⟨fun h => ?_, open_.2⟩
    rcases List.mem_cons.1 h with rfl | h
    · exact (List.nodup_cons.1 state.nodup).1 hb
    · exact open_.1 h
  covers r hr head b hb := by
    have := state.covers r hr head b hb
    simp only [List.mem_cons] at this ⊢
    grind

lemma decideNo {rest : List String} (state : Undecided rules (a :: rest) yes no) :
    Undecided rules rest yes (a :: no) where
  nodup := (List.nodup_cons.1 state.nodup).2
  apart b hb hno := by
    rcases List.mem_cons.1 hno with rfl | hno
    · exact (state.left b List.mem_cons_self).1 hb
    · exact state.apart b hb hno
  left b hb := by
    have open_ := state.left b (List.mem_cons_of_mem _ hb)
    refine ⟨open_.1, fun h => ?_⟩
    rcases List.mem_cons.1 h with rfl | h
    · exact (List.nodup_cons.1 state.nodup).1 hb
    · exact open_.2 h
  covers r hr head b hb := by
    have := state.covers r hr head b hb
    simp only [List.mem_cons] at this ⊢
    grind

end Undecided

/-! ## The search -/

/-- The sets are the stable models that agree with a decision, each once. -/
structure Enumerates (rules : List GroundRule) (yes no : List String) (sets : List (List String)) :
    Prop where
  nodup : ∀ s ∈ sets, s.Nodup
  stable : ∀ s ∈ sets, IsStable rules (· ∈ s)
  agrees : ∀ s ∈ sets, Agrees (· ∈ s) yes no
  complete : ∀ held, IsStable rules held → Agrees held yes no → ∃ s ∈ sets, ∀ a, held a ↔ a ∈ s
  different : sets.Pairwise fun s t => ¬ ∀ a, a ∈ s ↔ a ∈ t

namespace Enumerates

/-- What the bounds settle, every stable model agrees with. -/
lemma of_settled {sets : List (List String)}
    (h : Enumerates rules (atoms.filter (Bounds.of rules yes no).lower.contains ++ yes)
      (atoms.filter (fun a => !(Bounds.of rules yes no).upper.contains a) ++ no) sets) :
    Enumerates rules yes no sets where
  nodup := h.nodup
  stable := h.stable
  agrees s hs :=
    ⟨fun a ha => (h.agrees s hs).yes a (List.mem_append_right _ ha),
      fun a ha => (h.agrees s hs).no a (List.mem_append_right _ ha)⟩
  complete held stable agrees := by
    refine h.complete held stable ⟨fun a ha => ?_, fun a ha => ?_⟩
    · rcases List.mem_append.1 ha with ha | ha
      · have hl := (List.mem_filter.1 ha).2
        rw [List.contains_iff_mem] at hl
        exact lower_subset stable agrees hl
      · exact agrees.yes a ha
    · rcases List.mem_append.1 ha with ha | ha
      · have hu := (List.mem_filter.1 ha).2
        rw [Bool.not_eq_true', ← Bool.not_eq_true, List.contains_iff_mem] at hu
        exact fun hheld => hu (subset_upper stable agrees hheld)
      · exact agrees.no a ha
  different := h.different

/-- The two ways to decide an atom have different models, and together all of them. -/
lemma append {sets sets' : List (List String)} (h : Enumerates rules (a :: yes) no sets)
    (h' : Enumerates rules yes (a :: no) sets') : Enumerates rules yes no (sets ++ sets') where
  nodup s hs := (List.mem_append.1 hs).elim (h.nodup s) (h'.nodup s)
  stable s hs := (List.mem_append.1 hs).elim (h.stable s) (h'.stable s)
  agrees s hs := by
    rcases List.mem_append.1 hs with hs | hs
    · exact ⟨fun b hb => (h.agrees s hs).yes b (List.mem_cons_of_mem _ hb), (h.agrees s hs).no⟩
    · exact ⟨(h'.agrees s hs).yes, fun b hb => (h'.agrees s hs).no b (List.mem_cons_of_mem _ hb)⟩
  complete held stable agrees := by
    by_cases ha : held a
    · obtain ⟨s, hs, e⟩ := h.complete held stable
        ⟨List.forall_mem_cons.2 ⟨ha, agrees.yes⟩, agrees.no⟩
      exact ⟨s, List.mem_append_left _ hs, e⟩
    · obtain ⟨s, hs, e⟩ := h'.complete held stable
        ⟨agrees.yes, List.forall_mem_cons.2 ⟨ha, agrees.no⟩⟩
      exact ⟨s, List.mem_append_right _ hs, e⟩
  different := by
    refine List.pairwise_append.2 ⟨h.different, h'.different, fun s hs t ht same => ?_⟩
    have inside := (h.agrees s hs).yes a List.mem_cons_self
    exact (h'.agrees t ht).no a List.mem_cons_self ((same a).1 inside)

/-- Once everything is decided, the lower bound is the only candidate. -/
lemma of_decided (state : Undecided rules [] yes no)
    (open_ : ¬ (Bounds.of rules yes no).refute rules yes no = true) :
    Enumerates rules yes no (if checkStable rules (Bounds.of rules yes no).lower then
      [(Bounds.of rules yes no).lower] else []) := by
  have only : ∀ held, IsStable rules held → Agrees held yes no →
      ∀ a, held a ↔ a ∈ (Bounds.of rules yes no).lower := fun held stable agrees a =>
    ⟨fun h => upper_subset_lower state (subset_upper stable agrees h), lower_subset stable agrees⟩
  split
  · rename_i check
    have stable := checkStable_iff.1 check
    refine ⟨?_, ?_, ?_, fun held stable' agrees => ⟨_, List.mem_singleton_self _,
      only held stable' agrees⟩, List.pairwise_singleton _ _⟩
    · rintro s hs
      rw [List.mem_singleton.1 hs]
      exact nodup_saturate List.nodup_nil
    · rintro s hs
      rwa [List.mem_singleton.1 hs]
    · rintro s hs
      rw [List.mem_singleton.1 hs]
      rw [Bounds.refute] at open_
      simp only [Bool.or_eq_true, not_or, List.any_eq_true, List.contains_iff_mem,
        Bool.not_eq_true', not_exists, not_and] at open_
      refine ⟨fun a ha => upper_subset_lower state ?_, fun a ha => open_.1.1.1 a ha⟩
      simpa using open_.1.1.2 a ha
  · rename_i check
    refine ⟨by simp, by simp, by simp, fun held stable agrees => ?_, .nil⟩
    refine absurd (checkStable_iff.2 ?_) check
    rwa [← show held = (· ∈ (Bounds.of rules yes no).lower) from
      funext fun a => propext (only held stable agrees a)]

end Enumerates

/-- **A search finds the stable models that agree with its decision, each once.** -/
theorem search_found (state : Undecided rules atoms yes no) :
    Enumerates rules yes no (search rules atoms yes no) := by
  fun_induction search rules atoms yes no with
  | case1 atoms yes no b refuted =>
      refine ⟨by simp, by simp, by simp, fun held stable agrees => ?_, .nil⟩
      exact absurd refuted (by simp [b, not_refute stable agrees])
  | case2 atoms yes no b _ left _ ih =>
      have plain : ∀ p : String → Bool,
          (atoms.attach.filter fun x => p x.val).unattach = atoms.filter p := by
        intro p
        rw [List.unattach_filter, List.unattach_attach]
        exact fun _ _ => rfl
      have upper := plain fun a => !b.upper.contains a
      simp only [plain b.lower.contains, upper] at ih
      exact (ih state.settle).of_settled
  | case3 yes no b open_ check =>
      have found := Enumerates.of_decided state open_
      rwa [if_pos check] at found
  | case4 yes no b open_ check =>
      have found := Enumerates.of_decided state open_
      rwa [if_neg check] at found
  | case5 yes no b _ a rest left _ ih₁ ih₂ =>
      exact (ih₁ state.decideYes).append (ih₂ state.decideNo)

/-- The search begins with nothing decided. -/
lemma undecided_start (rules : List GroundRule) : Undecided rules (negatedAtoms rules) [] [] where
  nodup := Text.nodup_eraseDups _
  apart := by simp
  left := by simp
  covers r hr head a ha := by
    refine Or.inl (List.mem_eraseDups.2 (List.mem_flatMap.2 ⟨r, ?_, ha⟩))
    exact List.mem_filter.2 ⟨hr, head⟩

/-- **All stable models are found, each once.** -/
theorem stableSets_found (rules : List GroundRule) : Enumerates rules [] [] (stableSets rules) :=
  search_found (undecided_start rules)

end

end CausalUpdate
