import CausalUpdate.Proofs.Program.Renaming
import CausalUpdate.Proofs.UpdateProgram.CausalRejection
import Mathlib.Data.Set.Function

/-!
# Answer sets under other names

Other names for predicates change the answer sets of clauses by name and in no other way: the answer
sets of the renamed clauses are the images of those of the clauses (`isAnswerSet_image_iff`).  The
same is true of causal rejection, where the rules that survive depend on the answer set in question
(`isAnswerSet_survivors_mapPredicate_iff`).
-/

namespace CausalUpdate

open Set

variable {f : String → String} {names : List String} {held : Set Literal} {cs ds : List Clause}

/-! ## Literals over some predicates -/

/-- The literals with these predicates. -/
def literalsOver (names : List String) : Set Literal :=
  {l | l.atom.predicate ∈ names}

lemma injOn_mapPredicate (apart : TellsApart f names) :
    InjOn (Literal.mapPredicate f) (literalsOver names) := by
  rintro ⟨⟨p, ts⟩, n⟩ hl ⟨⟨q, us⟩, k⟩ hm e
  simp only [Literal.mapPredicate, Literal.mk.injEq, Atom.mk.injEq] at e
  have same : p = q := apart p hl q hm e.1.1
  rw [same, e.1.2, e.2]

section

variable (apart : TellsApart f names) (inside : held ⊆ literalsOver names)

include apart inside

lemma mem_image_mapPredicate_iff {l : Literal} (hl : l ∈ literalsOver names) :
    l.mapPredicate f ∈ Literal.mapPredicate f '' held ↔ l ∈ held :=
  (injOn_mapPredicate apart).mem_image_iff inside hl

lemma holdsIn_mapPredicate_iff {c : Clause} (hc : ∀ l ∈ c.literals, l ∈ literalsOver names) :
    (c.mapPredicate f).HoldsIn (Literal.mapPredicate f '' held) ↔ c.HoldsIn held := by
  have mem : ∀ l ∈ c.completeBody,
      l.mapPredicate f ∈ Literal.mapPredicate f '' held ↔ l ∈ held := fun l hl =>
    mem_image_mapPredicate_iff apart inside (hc l (List.mem_append_right _ hl))
  simp only [Clause.HoldsIn, Clause.mapPredicate, List.forall_mem_map]
  refine and_congr (forall₂_congr fun l hl => mem l ?_) (forall₂_congr fun l hl => not_congr ?_)
  · exact List.mem_append_left _ hl
  · exact mem l (List.mem_append_right _ hl)

end

/-! ## Clauses -/

/-- The clauses of the second list are those of the first one under other names. -/
def Renamed (f : String → String) (cs ds : List Clause) : Prop :=
  ∀ d, d ∈ ds ↔ ∃ c ∈ cs, c.mapPredicate f = d

section

variable (apart : TellsApart f names) (renamed : Renamed f cs ds)
  (clauses : ∀ c ∈ cs, ∀ l ∈ c.literals, l ∈ literalsOver names)
  (inside : held ⊆ literalsOver names)

include apart renamed clauses inside

lemma follows_mapPredicate {l : Literal} (h : Follows cs held l) :
    Follows ds (Literal.mapPredicate f '' held) (l.mapPredicate f) := by
  induction h with
  | @clause c l mem head pos neg ih =>
      refine .clause ((renamed _).2 ⟨c, mem, rfl⟩) (by simp [Clause.mapPredicate, head]) ?_ ?_
      · simp only [Clause.mapPredicate, List.forall_mem_map]
        exact ih
      · simp only [Clause.mapPredicate, List.forall_mem_map]
        intro m hm
        rw [mem_image_mapPredicate_iff apart inside]
        · exact neg m hm
        · exact clauses c mem m (by simp [Clause.literals, Clause.completeBody, hm])

lemma exists_of_follows_mapPredicate {x : Literal}
    (h : Follows ds (Literal.mapPredicate f '' held) x) :
    ∃ l ∈ literalsOver names, l.mapPredicate f = x ∧ Follows cs held l := by
  induction h with
  | @clause d x mem head pos neg ih =>
      obtain ⟨c, hc, rfl⟩ := (renamed _).1 mem
      obtain ⟨l, hl, rfl⟩ := Option.map_eq_some_iff.1 head
      refine ⟨l, clauses c hc l (by simp [Clause.literals, hl]), rfl, .clause hc hl ?_ ?_⟩
      · intro m hm
        obtain ⟨k, hk, e, follows⟩ := ih _ (List.mem_map_of_mem hm)
        have inside_m := clauses c hc m (by simp [Clause.literals, Clause.completeBody, hm])
        rwa [← injOn_mapPredicate apart hk inside_m e]
      · intro m hm
        have inside_m := clauses c hc m (by simp [Clause.literals, Clause.completeBody, hm])
        rw [← mem_image_mapPredicate_iff apart inside inside_m]
        exact neg _ (List.mem_map_of_mem hm)

lemma follows_mapPredicate_iff {l : Literal} (hl : l ∈ literalsOver names) :
    Follows ds (Literal.mapPredicate f '' held) (l.mapPredicate f) ↔ Follows cs held l := by
  refine ⟨fun h => ?_, follows_mapPredicate apart renamed clauses inside⟩
  obtain ⟨m, hm, e, h⟩ := exists_of_follows_mapPredicate apart renamed clauses inside h
  rwa [← injOn_mapPredicate apart hm hl e]

/-- **Answer sets under other names.** -/
theorem isAnswerSet_image_iff :
    IsAnswerSet ds (Literal.mapPredicate f '' held) ↔ IsAnswerSet cs held := by
  have follows := fun {l} => follows_mapPredicate_iff (l := l) apart renamed clauses inside
  constructor
  · intro h
    refine ⟨fun l => ⟨fun hl => ?_, fun hf => ?_⟩, fun c hc headless holds => ?_,
      fun l hl hl' => ?_⟩
    · exact (follows (inside hl)).1 ((h.founded _).1 (mem_image_of_mem _ hl))
    · obtain ⟨c, hc, head, -⟩ := follows_iff.1 hf
      have hl := clauses c hc l (by simp [Clause.literals, head])
      have there := (h.founded _).2 ((follows hl).2 hf)
      exact (mem_image_mapPredicate_iff apart inside hl).1 there
    · refine h.constraints (c.mapPredicate f) ((renamed _).2 ⟨c, hc, rfl⟩) ?_ ?_
      · simp [Clause.mapPredicate, headless]
      · exact (holdsIn_mapPredicate_iff apart inside (clauses c hc)).2 holds
    · exact h.consistent _ (mem_image_of_mem _ hl) (mem_image_of_mem _ hl')
  · intro h
    refine ⟨fun x => ⟨?_, fun hf => ?_⟩, fun d hd headless holds => ?_, ?_⟩
    · rintro ⟨l, hl, rfl⟩
      exact (follows (inside hl)).2 ((h.founded l).1 hl)
    · obtain ⟨l, hl, rfl, follows⟩ :=
        exists_of_follows_mapPredicate apart renamed clauses inside hf
      exact mem_image_of_mem _ ((h.founded l).2 follows)
    · obtain ⟨c, hc, rfl⟩ := (renamed _).1 hd
      have head : c.head = none := by simpa [Clause.mapPredicate] using headless
      exact h.constraints c hc head ((holdsIn_mapPredicate_iff apart inside (clauses c hc)).1 holds)
    · rintro _ ⟨l, hl, rfl⟩ ⟨m, hm, e⟩
      rw [Literal.complement_mapPredicate] at e
      have inside_l : l.complement ∈ literalsOver names :=
        show l.atom.predicate ∈ names from inside hl
      rw [injOn_mapPredicate apart (inside hm) inside_l e] at hm
      exact h.consistent l hl hm

end

/-! ## Survivors -/

section

variable {older newer : Program} {a b : Rule}

lemma mem_literalsOver {ps : List Program} {l : Literal} (hl : l ∈ mentioned ps) :
    l ∈ literalsOver (predicatesOf ps) :=
  predicate_mem hl

lemma rule_over {ps : List Program} {p : Program} (hp : p ∈ ps) {r : Rule} (hr : r ∈ p.rules) :
    ∀ l ∈ r.literals, l ∈ literalsOver (predicatesOf ps) :=
  fun _ hl => mem_literalsOver (mem_mentioned.2 ⟨p, hp, r, hr, hl⟩)

lemma opposed_mapPredicate_iff (apart : TellsApart f names)
    (ha : ∀ l ∈ a.literals, l ∈ literalsOver names)
    (hb : ∀ l ∈ b.literals, l ∈ literalsOver names) :
    (a.mapPredicate f).Opposed (b.mapPredicate f).toClause ↔ a.Opposed b.toClause := by
  have heads : ∀ {r : Rule}, (r.mapPredicate f).head = r.head.map (Literal.mapPredicate f) := rfl
  unfold Clause.Opposed
  rw [heads, heads]
  cases hx : a.head with
  | none => rfl
  | some l =>
      cases hy : b.head with
      | none => rfl
      | some m =>
          have inside_a := ha l (by simp [Clause.literals, hx])
          have inside_b := hb m (by simp [Clause.literals, hy])
          refine and_congr_left fun _ => and_congr_left fun _ => ?_
          exact ⟨apart _ inside_a _ inside_b, congrArg f⟩

section

variable (apart : TellsApart f (predicatesOf [older, newer]))
  (inside : held ⊆ literalsOver (predicatesOf [older, newer]))

include apart inside

lemma overruled_mapPredicate_iff (ha : a ∈ older.rules) :
    Overruled (newer.mapPredicate f) (Literal.mapPredicate f '' held) (a.mapPredicate f) ↔
      Overruled newer held a := by
  have inside_a := rule_over (show older ∈ [older, newer] by simp) ha
  have each : ∀ b ∈ newer.rules, ((a.mapPredicate f).Opposed (b.mapPredicate f).toClause ∧
      (a.mapPredicate f).HoldsIn (Literal.mapPredicate f '' held) ∧
        (b.mapPredicate f).HoldsIn (Literal.mapPredicate f '' held)) ↔
      a.Opposed b.toClause ∧ a.HoldsIn held ∧ b.HoldsIn held := by
    intro b hb
    have inside_b := rule_over (show newer ∈ [older, newer] by simp) hb
    exact and_congr (opposed_mapPredicate_iff apart inside_a inside_b)
      (and_congr (holdsIn_mapPredicate_iff apart inside inside_a)
        (holdsIn_mapPredicate_iff apart inside inside_b))
  constructor
  · rintro ⟨_, there, both⟩
    obtain ⟨b, hb, rfl⟩ := Program.mem_mapPredicate.1 there
    exact ⟨b, hb, (each b hb).1 both⟩
  · rintro ⟨b, hb, both⟩
    exact ⟨_, Program.mem_mapPredicate.2 ⟨b, hb, rfl⟩, (each b hb).2 both⟩

/-- The same rules survive under other names. -/
lemma renamed_survivors : Renamed f (survivors older newer held).clauses
    (survivors (older.mapPredicate f) (newer.mapPredicate f)
      (Literal.mapPredicate f '' held)).clauses := by
  intro d
  simp only [mem_survivors]
  constructor
  · rintro (⟨_, there, stays, rfl⟩ | ⟨_, there, rfl⟩)
    · obtain ⟨a, ha, rfl⟩ := Program.mem_mapPredicate.1 there
      rw [overruled_mapPredicate_iff apart inside ha] at stays
      exact ⟨_, .inl ⟨a, ha, stays, rfl⟩, rfl⟩
    · obtain ⟨b, hb, rfl⟩ := Program.mem_mapPredicate.1 there
      exact ⟨_, .inr ⟨b, hb, rfl⟩, rfl⟩
  · rintro ⟨_, ⟨a, ha, stays, rfl⟩ | ⟨b, hb, rfl⟩, rfl⟩
    · rw [← overruled_mapPredicate_iff apart inside ha] at stays
      exact .inl ⟨_, Program.mem_mapPredicate.2 ⟨a, ha, rfl⟩, stays, rfl⟩
    · exact .inr ⟨_, Program.mem_mapPredicate.2 ⟨b, hb, rfl⟩, rfl⟩

lemma isAnswerSet_survivors_image_iff :
    IsAnswerSet (survivors (older.mapPredicate f) (newer.mapPredicate f)
      (Literal.mapPredicate f '' held)).clauses (Literal.mapPredicate f '' held) ↔
        IsAnswerSet (survivors older newer held).clauses held :=
  isAnswerSet_image_iff apart (renamed_survivors apart inside)
    (fun _ hc _ hl => mem_literalsOver (mentioned_of_mem_survivors hc hl)) inside

end

/-- An answer set of the survivors holds literals of the programs only. -/
lemma IsAnswerSet.subset_literalsOver (h : IsAnswerSet (survivors older newer held).clauses held) :
    held ⊆ literalsOver (predicatesOf [older, newer]) :=
  fun l hl => mem_literalsOver (h.fits.mentioned l hl)

/-- **Causal rejection under other names.** -/
theorem isAnswerSet_survivors_mapPredicate_iff (apart : TellsApart f (predicatesOf [older, newer]))
    {seen : Set Literal} :
    IsAnswerSet (survivors (older.mapPredicate f) (newer.mapPredicate f) seen).clauses seen ↔
      ∃ held, IsAnswerSet (survivors older newer held).clauses held ∧
        seen = Literal.mapPredicate f '' held := by
  constructor
  · intro h
    let held : Set Literal := {l | l ∈ mentioned [older, newer] ∧ l.mapPredicate f ∈ seen}
    have image : seen = Literal.mapPredicate f '' held := by
      ext x
      constructor
      · intro hx
        have there := h.fits.mentioned x hx
        rw [show [older.mapPredicate f, newer.mapPredicate f] =
          [older, newer].map (Program.mapPredicate f) from rfl, mentioned_mapPredicate] at there
        obtain ⟨l, hl, rfl⟩ := List.mem_map.1 there
        exact ⟨l, ⟨hl, hx⟩, rfl⟩
      · rintro ⟨l, hl, rfl⟩
        exact hl.2
    have inside : held ⊆ literalsOver (predicatesOf [older, newer]) :=
      fun l hl => mem_literalsOver hl.1
    rw [image, isAnswerSet_survivors_image_iff apart inside] at h
    exact ⟨held, h, image⟩
  · rintro ⟨held, h, rfl⟩
    exact (isAnswerSet_survivors_image_iff apart h.subset_literalsOver).2 h

end

end CausalUpdate
