import CausalUpdate.Proofs.Program.Live
import CausalUpdate.Proofs.Strategy.Exclusion
import CausalUpdate.Proofs.UpdateProgram.CausalRejection
import Mathlib.Data.Sym.Sym2

/-!
# Which of two programs is the newer one

Where rules of two programs contradict each other, those of the newer program win.  If the programs
change places, then other rules survive, and whatever depends on a literal in dispute may come out
differently.  The answer sets still belong together, and the same rules clash in them, as long as
nothing turns on what so depends.

* `headClashes` — which rules clash, without regard to which program is the newer one.
* `Disputed`, `Inert` — literals in dispute, and literals on which no clash turns.
* `reversed` — the answer set that belongs to a given one after the programs have changed places.
* `Inert.headClashes_eq` — the same rules clash.
-/

namespace CausalUpdate

/-! ## Exclusive rules -/

section

variable {ps : List Program} {held : Set Literal} {q r : Rule}

/-- What exclusive rules ask for, if there is only one way to write an atom. -/
lemma Exclusive.clash (exclusive : Exclusive q.toClause r.toClause) (coherent : Coherent ps)
    (hq : q ∈ rulesOf ps) (hr : r ∈ rulesOf ps) :
    (∃ l ∈ q.body, l.complement ∈ r.body) ∨ (∃ l ∈ q.body, l ∈ r.negBody) ∨
      ∃ l ∈ q.negBody, l ∈ r.body := by
  have inside : ∀ {r : Rule} {l : Literal}, r ∈ rulesOf ps → l ∈ r.body ∨ l ∈ r.negBody →
      l ∈ mentioned ps := by
    intro r l hr hl
    refine mem_mentioned_iff_rulesOf.2 ⟨r, hr, ?_⟩
    rw [Clause.literals, Clause.completeBody, List.mem_append, List.mem_append]
    exact Or.inr hl
  rcases exclusive with ⟨l, hl, k, hk, e⟩ | ⟨l, hl, k, hk, e⟩ | ⟨l, hl, k, hk, e⟩
  · obtain rfl := coherent.eq_complement (inside hq (Or.inl hl)) (inside hr (Or.inl hk))
      (Literal.complementary_iff.2 e)
    exact Or.inl ⟨l, hl, hk⟩
  · obtain rfl := coherent.eq_of_equiv (inside hq (Or.inl hl)) (inside hr (Or.inr hk)) e
    exact Or.inr (Or.inl ⟨l, hl, hk⟩)
  · obtain rfl := coherent.eq_of_equiv (inside hq (Or.inr hl)) (inside hr (Or.inl hk)) e
    exact Or.inr (Or.inr ⟨l, hl, hk⟩)

/-- Exclusive rules do not fire together, if there is only one way to write an atom. -/
lemma Exclusive.not_holdsIn (exclusive : Exclusive q.toClause r.toClause) (coherent : Coherent ps)
    (hq : q ∈ rulesOf ps) (hr : r ∈ rulesOf ps) (consistent : ∀ l ∈ held, l.complement ∉ held)
    (holds : q.HoldsIn held) : ¬ r.HoldsIn held := by
  intro holds'
  rcases exclusive.clash coherent hq hr with ⟨l, hl, hk⟩ | ⟨l, hl, hk⟩ | ⟨l, hl, hk⟩
  · exact consistent l (holds.1 l hl) (holds'.1 _ hk)
  · exact holds'.2 l hk (holds.1 l hl)
  · exact holds.2 l hl (holds'.1 l hk)

end

/-! ## Dispute -/

/-- The identifiers of the rules with complementary heads of which the bodies hold together in an
answer set of the rules that survive. -/
def headClashes (older newer : Program) : Set (Sym2 Int) :=
  {pair | ∃ a ∈ older.rules, ∃ b ∈ newer.rules, s(a.id, b.id) = pair ∧ a.Opposed b.toClause ∧
    ∃ held, IsAnswerSet (survivors older newer held).clauses held ∧
      a.HoldsIn held ∧ b.HoldsIn held}

/-- The literal is the head of a rule that may be contradicted by one of the other program. -/
def Disputed (older newer : Program) (l : Literal) : Prop :=
  ∃ a ∈ older.rules, ∃ b ∈ newer.rules, a.Opposed b.toClause ∧
    ¬ Exclusive a.toClause b.toClause ∧ (a.head = some l ∨ b.head = some l)

instance (older newer : Program) (l : Literal) : Decidable (Disputed older newer l) :=
  inferInstanceAs (Decidable (∃ a ∈ older.rules, ∃ b ∈ newer.rules, _ ∧ _ ∧ _))

/-- The literals are those in dispute and others that depend on them, and no clash turns on them:
rules that contradict rules of the other program do not use them, nor do constraints, no rule
assumes that one of them does not hold, and no program contradicts itself on them. -/
structure Inert (older newer : Program) (ts : List Literal) : Prop where
  disputed : ∀ r ∈ rulesOf [older, newer], ∀ l ∈ r.head, Disputed older newer l → l ∈ ts
  used : ∀ r ∈ rulesOf [older, newer], ∀ l ∈ r.body, l ∈ ts →
    ∃ h ∈ r.head, h ∈ ts ∧ ¬ Disputed older newer h
  assumed : ∀ r ∈ rulesOf [older, newer], ∀ l ∈ r.negBody, l ∉ ts
  exclusive : ∀ p ∈ [older, newer], ∀ q ∈ p.rules, ∀ r ∈ p.rules, q.Opposed r.toClause →
    (∃ h ∈ q.head, h ∈ ts) → Exclusive q.toClause r.toClause

lemma inert_def {older newer : Program} {ts : List Literal} : Inert older newer ts ↔
    (∀ r ∈ rulesOf [older, newer], ∀ l ∈ r.head, Disputed older newer l → l ∈ ts) ∧
    (∀ r ∈ rulesOf [older, newer], ∀ l ∈ r.body, l ∈ ts →
      ∃ h ∈ r.head, h ∈ ts ∧ ¬ Disputed older newer h) ∧
    (∀ r ∈ rulesOf [older, newer], ∀ l ∈ r.negBody, l ∉ ts) ∧
    ∀ p ∈ [older, newer], ∀ q ∈ p.rules, ∀ r ∈ p.rules, q.Opposed r.toClause →
      (∃ h ∈ q.head, h ∈ ts) → Exclusive q.toClause r.toClause :=
  ⟨fun h => ⟨h.1, h.2, h.3, h.4⟩, fun h => ⟨h.1, h.2.1, h.2.2.1, h.2.2.2⟩⟩

instance (older newer : Program) (ts : List Literal) : Decidable (Inert older newer ts) :=
  decidable_of_iff _ inert_def.symm

section

variable {mark : Mark} {older newer : Program} {held : Set Literal} {ts : List Literal}
  {a b q r : Rule} {l : Literal}

lemma mem_rulesOf_pair : r ∈ rulesOf [older, newer] ↔ r ∈ older.rules ∨ r ∈ newer.rules := by
  simp

lemma mem_rulesOf_swap (h : r ∈ rulesOf [newer, older]) : r ∈ rulesOf [older, newer] :=
  mem_rulesOf_pair.2 (mem_rulesOf_pair.1 h).symm

lemma exists_rule_of_mem_survivors {c : Clause} (hc : c ∈ (survivors older newer held).clauses) :
    ∃ r ∈ rulesOf [older, newer], r.toClause = c := by
  rcases mem_survivors.1 hc with ⟨a, ha, -, rfl⟩ | ⟨b, hb, rfl⟩
  · exact ⟨a, mem_rulesOf_pair.2 (Or.inl ha), rfl⟩
  · exact ⟨b, mem_rulesOf_pair.2 (Or.inr hb), rfl⟩

lemma Disputed.swap (h : Disputed older newer l) : Disputed newer older l := by
  obtain ⟨a, ha, b, hb, opposed, free, head⟩ := h
  exact ⟨b, hb, a, ha, opposed.symm, fun e => free e.symm, head.symm⟩

lemma Clean.swap (h : Clean mark [older, newer]) : Clean mark [newer, older] :=
  h.of_rules (fun p hp => h.ids p (by simpa [or_comm] using hp)) fun _ => mem_rulesOf_swap

lemma Inert.swap (h : Inert older newer ts) : Inert newer older ts := by
  refine ⟨fun r hr l hl disputed => ?_, fun r hr l hl there => ?_, fun r hr => ?_,
    fun p hp => ?_⟩
  · exact h.disputed r (mem_rulesOf_swap hr) l hl disputed.swap
  · obtain ⟨k, hk, inside, settled⟩ := h.used r (mem_rulesOf_swap hr) l hl there
    exact ⟨k, hk, inside, fun disputed => settled disputed.swap⟩
  · exact h.assumed r (mem_rulesOf_swap hr)
  · exact h.exclusive p (by simpa [or_comm] using hp)

/-- Rules whose bodies hold together are not exclusive. -/
lemma free_of_holdsIn (clean : Clean mark [older, newer])
    (consistent : ∀ l ∈ held, l.complement ∉ held) (ha : a ∈ older.rules) (hb : b ∈ newer.rules)
    (older_holds : a.HoldsIn held) (newer_holds : b.HoldsIn held) :
    ¬ Exclusive a.toClause b.toClause := fun exclusive =>
  exclusive.not_holdsIn clean.coherent (mem_rulesOf_pair.2 (Or.inl ha))
    (mem_rulesOf_pair.2 (Or.inr hb)) consistent older_holds newer_holds

/-- The rules that clash are not exclusive. -/
lemma free_of_mem_headClashes (clean : Clean mark [older, newer]) {pair : Sym2 Int}
    (h : pair ∈ headClashes older newer) : ∃ a ∈ older.rules, ∃ b ∈ newer.rules,
      s(a.id, b.id) = pair ∧ a.Opposed b.toClause ∧ ¬ Exclusive a.toClause b.toClause := by
  obtain ⟨a, ha, b, hb, e, opposed, held, answer, older_holds, newer_holds⟩ := h
  exact ⟨a, ha, b, hb, e, opposed,
    free_of_holdsIn clean answer.consistent ha hb older_holds newer_holds⟩

/-- Rules whose bodies hold survive in either order, if their heads are not in dispute. -/
lemma mem_survivors_of_settled (clean : Clean mark [older, newer])
    (consistent : ∀ l ∈ held, l.complement ∉ held) (hr : r ∈ rulesOf [older, newer])
    (settled : ∀ l ∈ r.head, ¬ Disputed older newer l) (holds : r.HoldsIn held) :
    r.toClause ∈ (survivors older newer held).clauses := by
  rcases mem_rulesOf_pair.1 hr with ha | hb
  · refine mem_survivors.2 (Or.inl ⟨r, ha, ?_, rfl⟩)
    rintro ⟨b, hb, opposed, -, newer_holds⟩
    obtain ⟨l, -, head, -⟩ := opposed.heads
    exact settled l head ⟨r, ha, b, hb, opposed,
      free_of_holdsIn clean consistent ha hb holds newer_holds, Or.inl head⟩
  · exact mem_survivors.2 (Or.inr ⟨r, hb, rfl⟩)

end

/-! ## The answer set of the other order -/

/-- What follows in the set once the programs have changed places. -/
def reversed (older newer : Program) (held : Set Literal) : Set Literal :=
  {l | Follows (survivors newer older held).clauses held l}

/-- The rule survives once the programs have changed places, and its body follows. -/
structure Applies (older newer : Program) (held : Set Literal) (r : Rule) : Prop where
  survives : r ∈ older.rules ∨ r ∈ newer.rules ∧ ¬ Overruled older held r
  body : ∀ m ∈ r.body, m ∈ reversed older newer held
  negBody : ∀ m ∈ r.negBody, m ∉ held

lemma Applies.mem_rules {older newer : Program} {held : Set Literal} {r : Rule}
    (h : Applies older newer held r) : r ∈ rulesOf [older, newer] :=
  mem_rulesOf_pair.2 (h.survives.imp_right And.left)

lemma exists_applies {older newer : Program} {held : Set Literal} {c : Clause}
    (hc : c ∈ (survivors newer older held).clauses)
    (body : ∀ m ∈ c.body, m ∈ reversed older newer held) (negBody : ∀ m ∈ c.negBody, m ∉ held) :
    ∃ r, r.toClause = c ∧ Applies older newer held r := by
  rcases mem_survivors.1 hc with ⟨b, hb, survives, rfl⟩ | ⟨a, ha, rfl⟩
  · exact ⟨b, rfl, Or.inr ⟨hb, survives⟩, body, negBody⟩
  · exact ⟨a, rfl, Or.inl ha, body, negBody⟩

namespace Inert

variable {mark : Mark} {older newer : Program} {held : Set Literal} {ts : List Literal}
  {a b q r : Rule} {l : Literal} (inert : Inert older newer ts) (clean : Clean mark [older, newer])
  (answer : IsAnswerSet (survivors older newer held).clauses held)

include inert

/-- Rules that derive something else do not use the literals. -/
lemma body_outside (hr : r ∈ rulesOf [older, newer])
    (head : ∀ h ∈ r.head, h ∈ ts → Disputed older newer h) : ∀ l ∈ r.body, l ∉ ts := by
  intro l hl there
  obtain ⟨h, hh, inside, settled⟩ := inert.used r hr l hl there
  exact settled (head h hh inside)

lemma settled_of_outside (hr : r ∈ rulesOf [older, newer]) (head : r.head = some l)
    (outside : l ∉ ts) : ∀ h ∈ r.head, ¬ Disputed older newer h := by
  rintro h hh disputed
  obtain rfl := Option.some.inj (head.symm.trans hh)
  exact outside (inert.disputed r hr l hh disputed)

include clean

/-- The other literals follow in either order or in none, if what follows in both is held. -/
lemma follows_swap (consistent : ∀ l ∈ held, l.complement ∉ held)
    (closed : ∀ m, Follows (survivors older newer held).clauses held m →
      Follows (survivors newer older held).clauses held m → m ∈ held)
    (h : Follows (survivors older newer held).clauses held l) :
    l ∉ ts → Follows (survivors newer older held).clauses held l := by
  induction h with
  | @clause c l mem head pos neg ih =>
      intro outside
      obtain ⟨r, hr, rfl⟩ := exists_rule_of_mem_survivors mem
      have body := inert.body_outside hr fun h hh inside => by
        obtain rfl := Option.some.inj (head.symm.trans hh)
        exact absurd inside outside
      have holds : r.HoldsIn held :=
        ⟨fun m hm => closed m (pos m hm) (ih m hm (body m hm)), neg⟩
      have survives := mem_survivors_of_settled clean.swap consistent (mem_rulesOf_swap hr)
        (fun h hh disputed => inert.settled_of_outside hr head outside h hh disputed.swap) holds
      exact .clause survives head (fun m hm => ih m hm (body m hm)) neg

include answer

lemma mem_of_mem_reversed (h : l ∈ reversed older newer held) (outside : l ∉ ts) : l ∈ held :=
  (answer.founded l).2 (inert.swap.follows_swap clean.swap answer.consistent
    (fun m _ follows => (answer.founded m).2 follows) h outside)

/-- **The other literals are held in either order or in none.** -/
lemma mem_reversed_iff (outside : l ∉ ts) : l ∈ reversed older newer held ↔ l ∈ held :=
  ⟨fun h => inert.mem_of_mem_reversed clean answer h outside,
    fun h => inert.follows_swap clean answer.consistent
      (fun m follows _ => (answer.founded m).2 follows) ((answer.founded l).1 h) outside⟩

/-- The bodies of constraints and of rules with heads in dispute hold in either order or in
none. -/
lemma holdsIn_reversed_iff (hr : r ∈ rulesOf [older, newer])
    (disputed : ∀ h ∈ r.head, Disputed older newer h) :
    r.HoldsIn (reversed older newer held) ↔ r.HoldsIn held := by
  refine Clause.holdsIn_congr fun l hl => inert.mem_reversed_iff clean answer ?_
  rcases List.mem_append.1 hl with hl | hl
  · exact inert.body_outside hr (fun h hh _ => disputed h hh) l hl
  · exact inert.assumed r hr l hl

/-- Rules of both programs that may contradict each other do not both apply. -/
lemma not_applies_both (ha : a ∈ older.rules) (hb : b ∈ newer.rules)
    (survives : ¬ Overruled older held b) (opposed : a.Opposed b.toClause)
    (free : ¬ Exclusive a.toClause b.toClause) (older_applies : Applies older newer held a) :
    ¬ Applies older newer held b := by
  intro newer_applies
  have holds : ∀ r ∈ rulesOf [older, newer], (∀ h ∈ r.head, Disputed older newer h) →
      Applies older newer held r → r.HoldsIn held := by
    intro r hr disputed applies
    have outside := inert.body_outside hr fun h hh _ => disputed h hh
    exact ⟨fun m hm => inert.mem_of_mem_reversed clean answer (applies.body m hm) (outside m hm),
      applies.negBody⟩
  have older_holds := holds a (mem_rulesOf_pair.2 (Or.inl ha))
    (fun h hh => ⟨a, ha, b, hb, opposed, free, Or.inl hh⟩) older_applies
  have newer_holds := holds b (mem_rulesOf_pair.2 (Or.inr hb))
    (fun h hh => ⟨a, ha, b, hb, opposed, free, Or.inr hh⟩) newer_applies
  exact survives ⟨a, ha, opposed.symm, newer_holds, older_holds⟩

/-- Rules with complementary heads that both apply are exclusive or derive other literals. -/
lemma outside_of_applies_both (hq : Applies older newer held q) (hr : Applies older newer held r)
    (opposed : q.Opposed r.toClause) (free : ¬ Exclusive q.toClause r.toClause)
    (head : q.head = some l) : l ∉ ts := by
  intro inside
  have apart : ∀ p ∈ [older, newer], q ∈ p.rules → r ∉ p.rules := fun p hp there there' =>
    free (inert.exclusive p hp q there r there' opposed ⟨l, head, inside⟩)
  rcases hq.survives with ha | ⟨hb, survives⟩
  · rcases hr.survives with ha' | ⟨hb, survives⟩
    · exact apart older (by simp) ha ha'
    · exact inert.not_applies_both clean answer ha hb survives opposed free hq hr
  · rcases hr.survives with ha | ⟨hb', -⟩
    · exact inert.not_applies_both clean answer ha hb survives opposed.symm
        (fun exclusive => free exclusive.symm) hr hq
    · exact apart newer (by simp) hb hb'

/-- What follows once the programs have changed places does not contradict itself. -/
lemma reversed_consistent :
    ∀ l ∈ reversed older newer held, l.complement ∉ reversed older newer held := by
  intro l hl
  replace hl : Follows (survivors newer older held).clauses held l := hl
  -- a derivation of the complement ends with a rule that opposes the last one of this derivation
  induction hl with
  | clause mem head pos neg ih =>
      intro hl'
      obtain ⟨_, mem', head', pos', neg'⟩ := follows_iff.1 hl'
      obtain ⟨q, rfl, hq⟩ := exists_applies mem pos neg
      obtain ⟨r, rfl, hr⟩ := exists_applies mem' pos' neg'
      have opposed : q.Opposed r.toClause :=
        Clause.opposed_of_heads head head' (Literal.complementary_iff.2 (Setoid.refl _))
      by_cases exclusive : Exclusive q.toClause r.toClause
      · rcases exclusive.clash clean.coherent hq.mem_rules hr.mem_rules with
          ⟨m, hm, hk⟩ | ⟨m, hm, hk⟩ | ⟨m, hm, hk⟩
        · exact ih m hm (pos' _ hk)
        · exact neg' m hk (inert.mem_of_mem_reversed clean answer (pos m hm)
            (inert.assumed r hr.mem_rules m hk))
        · exact neg m hm (inert.mem_of_mem_reversed clean answer (pos' m hk)
            (inert.assumed q hq.mem_rules m hm))
      · have outside := inert.outside_of_applies_both clean answer hq hr opposed exclusive head
        have outside' := inert.outside_of_applies_both clean answer hr hq opposed.symm
          (fun e => exclusive e.symm) head'
        exact answer.consistent _ (inert.mem_of_mem_reversed clean answer (.clause mem head pos neg)
          outside) (inert.mem_of_mem_reversed clean answer hl' outside')

/-- The same newer rules are overruled by older ones, whichever of the two sets they are read in. -/
lemma overruled_reversed_iff (hb : b ∈ newer.rules) :
    Overruled older (reversed older newer held) b ↔ Overruled older held b := by
  refine exists_congr fun a => and_congr_right fun ha => and_congr_right fun opposed => ?_
  have older_rule := mem_rulesOf_pair.2 (Or.inl ha : a ∈ older.rules ∨ a ∈ newer.rules)
  have newer_rule := mem_rulesOf_pair.2 (Or.inr hb : b ∈ older.rules ∨ b ∈ newer.rules)
  by_cases exclusive : Exclusive a.toClause b.toClause
  · have apart : ∀ {seen : Set Literal}, (∀ l ∈ seen, l.complement ∉ seen) →
        ¬ (b.HoldsIn seen ∧ a.HoldsIn seen) := fun consistent both =>
      exclusive.not_holdsIn clean.coherent older_rule newer_rule consistent both.2 both.1
    exact iff_of_false (apart (inert.reversed_consistent clean answer)) (apart answer.consistent)
  · rw [inert.holdsIn_reversed_iff clean answer older_rule,
      inert.holdsIn_reversed_iff clean answer newer_rule]
    · exact fun h hh => ⟨a, ha, b, hb, opposed.symm, exclusive, Or.inr hh⟩
    · exact fun h hh => ⟨a, ha, b, hb, opposed.symm, exclusive, Or.inl hh⟩

lemma survivors_reversed :
    survivors newer older (reversed older newer held) = survivors newer older held := by
  unfold survivors
  congr 2
  refine List.filter_congr fun b hb => ?_
  rw [decide_eq_decide]
  exact not_congr (inert.overruled_reversed_iff clean answer hb)

/-- **To every answer set there is one of the other order.** -/
theorem isAnswerSet_reversed : IsAnswerSet
    (survivors newer older (reversed older newer held)).clauses (reversed older newer held) := by
  rw [inert.survivors_reversed clean answer]
  have assumed : ∀ c ∈ (survivors newer older held).clauses, ∀ m ∈ c.negBody,
      m ∈ reversed older newer held ↔ m ∈ held := by
    intro c hc m hm
    obtain ⟨r, hr, rfl⟩ := exists_rule_of_mem_survivors hc
    exact inert.mem_reversed_iff clean answer (inert.swap.assumed r hr m hm)
  refine ⟨fun l => ⟨?_, ?_⟩, fun c hc none holds => ?_, inert.reversed_consistent clean answer⟩
  · exact Follows.congr fun c hc m hm => (assumed c hc m hm).symm
  · exact Follows.congr assumed
  · obtain ⟨r, hr, rfl⟩ := exists_rule_of_mem_survivors hc
    have hr := mem_rulesOf_swap hr
    have headless : ∀ {h}, h ∉ r.head := by simp [none]
    rw [inert.holdsIn_reversed_iff clean answer hr fun h hh => absurd hh headless] at holds
    have survives := mem_survivors_of_settled clean answer.consistent hr
      (fun h hh => absurd hh headless) holds
    exact answer.constraints _ survives none holds

omit answer

lemma headClashes_subset : headClashes older newer ⊆ headClashes newer older := by
  rintro _ ⟨a, ha, b, hb, rfl, opposed, held, answer, older_holds, newer_holds⟩
  have free := free_of_holdsIn clean answer.consistent ha hb older_holds newer_holds
  refine ⟨b, hb, a, ha, Sym2.eq_swap, opposed.symm, _, inert.isAnswerSet_reversed clean answer,
    ?_, ?_⟩
  · exact (inert.holdsIn_reversed_iff clean answer (mem_rulesOf_pair.2 (Or.inr hb))
      fun h hh => ⟨a, ha, b, hb, opposed, free, Or.inr hh⟩).2 newer_holds
  · exact (inert.holdsIn_reversed_iff clean answer (mem_rulesOf_pair.2 (Or.inl ha))
      fun h hh => ⟨a, ha, b, hb, opposed, free, Or.inl hh⟩).2 older_holds

/-- **The same rules clash in either order.** -/
theorem headClashes_eq : headClashes older newer = headClashes newer older :=
  Set.Subset.antisymm (inert.headClashes_subset clean) (inert.swap.headClashes_subset clean.swap)

end Inert

end CausalUpdate
