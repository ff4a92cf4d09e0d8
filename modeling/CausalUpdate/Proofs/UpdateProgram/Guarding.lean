import CausalUpdate.Proofs.Program.Replacing
import CausalUpdate.Proofs.Strategy.Versions
import CausalUpdate.Proofs.UpdateProgram.CausalRejection

/-!
# Guarding an older rule

A rule that a newer one overrules may instead be *guarded*: it gets one more literal under default
negation and so stays silent of its own accord.  If the newer rule fires whenever the older one
does and that literal holds, then the guard does nothing that the rejection has not done before,
and the answer sets stay the same.

What survives depends on the set of literals in question, and so the two programs need not survive
alike in a set.  It is enough that the same clauses survive *and fire*.

* `Rule.Guarded` — a rule with a guard.
* `isAnswerSet_guarded_iff` — guarding keeps the answer sets.
* `holdsIn_of_modifications_eq` — where there is no other version, nothing but the guard decides.
-/

namespace CausalUpdate

variable {held : Set Literal}

/-! ## Guards -/

/-- The rule is another one with one more literal under default negation. -/
structure Rule.Guarded (a : Rule) (y : Literal) (v : Rule) : Prop where
  id : v.id = a.id
  head : v.head = a.head
  body : v.body = a.body
  negBody : ∀ l, l ∈ v.negBody ↔ l ∈ a.negBody ∨ l = y

section

variable {older newer : Program} {a b v : Rule} {y : Literal}

namespace Rule.Guarded

/-- A guarded rule fires where the rule does and the guard lets it. -/
lemma holdsIn_iff (h : a.Guarded y v) : v.HoldsIn held ↔ a.HoldsIn held ∧ y ∉ held := by
  rw [Clause.HoldsIn, Clause.HoldsIn, h.body, and_assoc]
  refine and_congr_right fun _ => ?_
  constructor
  · intro neg
    exact ⟨fun l hl => neg l ((h.negBody l).2 (Or.inl hl)), neg y ((h.negBody y).2 (Or.inr rfl))⟩
  · rintro ⟨neg, guard⟩ l hl
    rcases (h.negBody l).1 hl with hl | rfl
    · exact neg l hl
    · exact guard

lemma opposed_iff (h : a.Guarded y v) (c : Clause) : v.Opposed c ↔ a.Opposed c := by
  unfold Clause.Opposed
  rw [h.head]

/-- A guarded rule that fires is overruled where the rule is. -/
lemma overruled_iff (h : a.Guarded y v) (guard : y ∉ held) :
    Overruled newer held v ↔ Overruled newer held a := by
  simp only [Overruled, h.opposed_iff, h.holdsIn_iff, guard, not_false_eq_true, and_true]

/-- A version with nothing but the one literal is a guarded rule. -/
lemma of_isVersion (version : IsVersion a b.toClause v)
    (only : ∀ l ∈ candidates a.toClause b.toClause, l = y) (hy : y ∈ b.body) :
    a.Guarded y v := by
  obtain ⟨s, nonempty, inside, rfl⟩ := version
  have all : ∀ l ∈ s, l = y := fun l hl => only l (inside l hl)
  have guard : y ∈ s := by
    obtain ⟨l, hl⟩ := List.exists_mem_of_ne_nil s nonempty
    exact all l hl ▸ hl
  have among : y.Among b.body := Literal.among_of_mem hy
  have none : s.filter (fun l => ¬ l.Among b.body) = [] :=
    List.filter_eq_nil_iff.2 fun l hl => by simp [all l hl, among]
  have whole : s.filter (fun l => l.Among b.body) = s :=
    List.filter_eq_self.2 fun l hl => by simp [all l hl, among]
  refine ⟨rfl, rfl, ?_, fun l => ?_⟩
  · show a.body ++ s.filter _ = a.body
    rw [none, List.append_nil]
  · show l ∈ a.negBody ++ s.filter _ ↔ _
    rw [whole, List.mem_append]
    exact or_congr_right ⟨all l, fun e => e ▸ guard⟩

end Rule.Guarded

/-- **Guarding an overruled rule keeps the answer sets**, if the rule that overrules it fires
whenever the rule does and the guard holds. -/
theorem isAnswerSet_guarded_iff (ids : older.ids.Nodup) (ha : a ∈ older.rules)
    (hb : b ∈ newer.rules) (opposed : a.Opposed b.toClause) (guarded : a.Guarded y v)
    (decides : a.HoldsIn held → y ∈ held → b.HoldsIn held) :
    IsAnswerSet (survivors (older.updated [v]) newer held).clauses held ↔
      IsAnswerSet (survivors older newer held).clauses held := by
  have here : a.updated [v] = v := by rw [Rule.updated_cons, if_pos guarded.id]
  have elsewhere : ∀ r ∈ older.rules, r ≠ a → r.updated [v] = r := by
    intro r hr other
    refine Rule.updated_of_forall_ne fun w hw e => other ?_
    rw [List.mem_singleton.1 hw, guarded.id] at e
    exact List.inj_on_of_nodup_map ids hr ha e.symm
  refine isAnswerSet_congr_of_firing (fun c hc holds => ?_) fun c hc holds => ?_
  · rcases mem_survivors.1 hc with ⟨r', hr', survives, rfl⟩ | newest
    · obtain ⟨r, hr, rfl⟩ := List.mem_map.1 hr'
      by_cases same : r = a
      · subst same
        rw [here] at survives holds ⊢
        obtain ⟨holds, guard⟩ := guarded.holdsIn_iff.1 holds
        rw [guarded.overruled_iff guard] at survives
        exact ⟨r.toClause, mem_survivors.2 (Or.inl ⟨r, hr, survives, rfl⟩), guarded.head.symm,
          fun _ hl => guarded.body ▸ hl, holds⟩
      · rw [elsewhere r hr same] at survives holds ⊢
        exact ⟨_, mem_survivors.2 (Or.inl ⟨r, hr, survives, rfl⟩), rfl, .refl _, holds⟩
    · exact ⟨c, mem_survivors.2 (Or.inr newest), rfl, .refl _, holds⟩
  · rcases mem_survivors.1 hc with ⟨r, hr, survives, rfl⟩ | newest
    · have inside : r.updated [v] ∈ (older.updated [v]).rules := List.mem_map_of_mem hr
      by_cases same : r = a
      · subst same
        -- the newer rule would overrule it if the guard held
        have guard : y ∉ held := fun hy => survives ⟨b, hb, opposed, holds, decides holds hy⟩
        rw [here] at inside
        rw [← guarded.overruled_iff guard] at survives
        exact ⟨v.toClause, mem_survivors.2 (Or.inl ⟨v, inside, survives, rfl⟩), guarded.head,
          fun _ hl => guarded.body ▸ hl, guarded.holdsIn_iff.2 ⟨holds, guard⟩⟩
      · rw [elsewhere r hr same] at inside
        exact ⟨_, mem_survivors.2 (Or.inl ⟨r, inside, survives, rfl⟩), rfl, .refl _, holds⟩
    · exact ⟨c, mem_survivors.2 (Or.inr newest), rfl, .refl _, holds⟩

/-! ## The only version -/

/-- Each candidate makes a version, so if there is only one version, there is only one candidate. -/
lemma eq_of_mem_candidates (one : modifications a b.toClause = [a.extend [] [y]]) {l : Literal}
    (hl : l ∈ candidates a.toClause b.toClause) : l = y := by
  have there : a.against b.toClause [l] ∈ modifications a b.toClause := by
    refine List.mem_mergeSort.2 (List.mem_map.2 ⟨[l], ?_, rfl⟩)
    exact List.mem_filter.2 ⟨mem_selections.2 (List.singleton_sublist.2 hl), rfl⟩
  rw [one, List.mem_singleton] at there
  have taken : a.negBody ++ [l].filter (fun l => l.Among b.body) = a.negBody ++ [y] :=
    congrArg (fun r : Rule => r.negBody) there
  have taken : y ∈ [l].filter fun l => l.Among b.body := by
    rw [List.append_cancel_left taken]
    exact List.mem_singleton.2 rfl
  exact (List.mem_singleton.1 (List.mem_filter.1 taken).1).symm

/-- **Nothing but the guard decides**, where it makes the only version.  If the bodies can hold
together at all, then the reference rule fires whenever the rejected one does and the guard
holds. -/
theorem holdsIn_of_modifications_eq {mark : Mark} (clean : Clean mark [older, newer])
    (ha : a ∈ older.rules) (hb : b ∈ newer.rules)
    (one : modifications a b.toClause = [a.extend [] [y]]) (hy : y ∈ b.body)
    {seen : Set Literal} (together : a.HoldsIn seen ∧ b.HoldsIn seen)
    (holds : a.HoldsIn held) (guard : y ∈ held) : b.HoldsIn held := by
  -- what the reference rule asks for is asked for by the rejected one, or it is the guard
  have asked : ∀ l ∈ b.completeBody, l ∈ a.completeBody ∨ l = y := by
    intro l hl
    have mentioned : ∀ {p : Program} {r : Rule} {m : Literal}, p ∈ [older, newer] → r ∈ p.rules →
        m ∈ r.completeBody → m ∈ mentioned [older, newer] := fun hp hr hm =>
      mem_mentioned.2 ⟨_, hp, _, hr, by simp [Clause.literals, hm]⟩
    by_cases known : l.Among a.completeBody
    · obtain ⟨m, hm, e⟩ := known
      obtain rfl := clean.eq_of_equiv (mentioned (by simp) hb hl) (mentioned (by simp) ha hm) e
      exact Or.inl hm
    · obtain ⟨m, hm, e⟩ := Literal.among_distinct.2 (Literal.among_of_mem hl)
      have inside := mem_of_mem_distinct hm
      obtain rfl := clean.eq_of_equiv (mentioned (by simp) hb hl) (mentioned (by simp) hb inside) e
      exact Or.inr (eq_of_mem_candidates one (List.mem_filter.2 ⟨hm, by simpa using known⟩))
  obtain ⟨older_seen, newer_seen⟩ := together
  refine ⟨fun l hl => ?_, fun l hl => ?_⟩
  · rcases asked l (List.mem_append_left _ hl) with known | rfl
    · rcases List.mem_append.1 known with known | known
      · exact holds.1 l known
      · exact absurd (newer_seen.1 l hl) (older_seen.2 l known)
    · exact guard
  · rcases asked l (List.mem_append_right _ hl) with known | rfl
    · rcases List.mem_append.1 known with known | known
      · exact absurd (older_seen.1 l known) (newer_seen.2 l hl)
      · exact holds.2 l known
    · exact absurd (newer_seen.1 l hy) (newer_seen.2 l hl)

end

end CausalUpdate
