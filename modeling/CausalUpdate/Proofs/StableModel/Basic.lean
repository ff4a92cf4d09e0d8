import CausalUpdate.Proofs.Literal.Text
import CausalUpdate.Solver.Models
import Mathlib.Data.Set.Basic

/-!
# Stable models over literals

`IsStable` speaks of texts, as a solver does.  Here the same notion is given over literals, where
there is no spelling to think of: `Follows` is what clauses let one derive, and `IsAnswerSet` is a
stable model.  For legible literals the two notions are one (`isStable_ground_iff`), so that a
statement about a solver's models can be proved over literals.

The second half says when two lists of rules have the same stable models: it is enough that every
rule of either list *repeats* one of the other, whatever the order and the number of its body
literals (`isStable_congr`).
-/

namespace CausalUpdate

/-! ## The notion over literals -/

/-- Both bodies of the clause hold in a set of literals. -/
def Clause.HoldsIn (c : Clause) (held : Set Literal) : Prop :=
  (∀ l ∈ c.body, l ∈ held) ∧ ∀ l ∈ c.negBody, l ∉ held

/-- The literal follows from the clauses, where a default-negated literal counts as true when it is
not held. -/
inductive Follows (cs : List Clause) (held : Set Literal) : Literal → Prop
  | clause {c : Clause} {l : Literal} (mem : c ∈ cs) (head : c.head = some l)
      (pos : ∀ m ∈ c.body, Follows cs held m) (neg : ∀ m ∈ c.negBody, m ∉ held) :
      Follows cs held l

/-- The set of literals is a stable model of the clauses. -/
structure IsAnswerSet (cs : List Clause) (held : Set Literal) : Prop where
  founded : ∀ l, l ∈ held ↔ Follows cs held l
  constraints : ∀ c ∈ cs, c.head = none → ¬ c.HoldsIn held
  consistent : ∀ l ∈ held, l.complement ∉ held

lemma follows_iff {cs : List Clause} {held : Set Literal} {l : Literal} :
    Follows cs held l ↔ ∃ c ∈ cs, c.head = some l ∧ (∀ m ∈ c.body, Follows cs held m) ∧
      ∀ m ∈ c.negBody, m ∉ held := by
  constructor
  · rintro ⟨mem, head, pos, neg⟩
    exact ⟨_, mem, head, pos, neg⟩
  · rintro ⟨c, mem, head, pos, neg⟩
    exact .clause mem head pos neg

/-- Only the literals under default negation matter to what follows. -/
lemma Follows.congr {cs : List Clause} {held seen : Set Literal} {l : Literal}
    (h : ∀ c ∈ cs, ∀ m ∈ c.negBody, m ∈ held ↔ m ∈ seen) (f : Follows cs held l) :
    Follows cs seen l := by
  induction f with
  | clause mem head _ neg ih =>
      exact .clause mem head ih fun m hm hs => neg m hm ((h _ mem m hm).2 hs)

lemma Follows.mono {cs ds : List Clause} {held : Set Literal} {l : Literal}
    (h : ∀ c ∈ cs, c ∈ ds) (f : Follows cs held l) : Follows ds held l := by
  induction f with
  | clause mem head _ neg ih => exact .clause (h _ mem) head ih neg

/-- Neither the order of the clauses nor their number matters. -/
lemma isAnswerSet_congr {cs ds : List Clause} {held : Set Literal} (h : ∀ c, c ∈ cs ↔ c ∈ ds) :
    IsAnswerSet cs held ↔ IsAnswerSet ds held := by
  have half : ∀ {cs ds : List Clause}, (∀ c, c ∈ cs ↔ c ∈ ds) → IsAnswerSet cs held →
      IsAnswerSet ds held := by
    intro cs ds h answer
    refine ⟨fun l => (answer.founded l).trans ?_, fun c hc => ?_, answer.consistent⟩
    · exact ⟨Follows.mono fun c => (h c).1, Follows.mono fun c => (h c).2⟩
    · exact answer.constraints c ((h c).2 hc)
  exact ⟨half h, half fun c => (h c).symm⟩

/-- In a stable model, what can be derived from a body is what is held. -/
lemma IsAnswerSet.mem_iff {cs : List Clause} {held : Set Literal} (h : IsAnswerSet cs held)
    {l : Literal} : l ∈ held ↔ ∃ c ∈ cs, c.head = some l ∧ c.HoldsIn held := by
  rw [h.founded, follows_iff]
  refine exists_congr fun c => and_congr_right fun _ => and_congr_right fun _ => ?_
  exact and_congr_left' (forall₂_congr fun m _ => (h.founded m).symm)

/-! ## Clauses that fire -/

section

variable {cs ds : List Clause} {held : Set Literal}

/-- Every derivation from the first clauses can be carried out with the second ones, and nothing
else can be derived from these. -/
lemma IsAnswerSet.of_firing (h : IsAnswerSet cs held)
    (there : ∀ c ∈ cs, c.HoldsIn held → ∃ d ∈ ds, d.head = c.head ∧ d.body ⊆ c.body ∧
      d.HoldsIn held)
    (back : ∀ d ∈ ds, d.HoldsIn held → ∃ c ∈ cs, c.head = d.head ∧ c.HoldsIn held) :
    IsAnswerSet ds held where
  founded l := by
    constructor
    · intro hl
      have follows := (h.founded l).1 hl
      induction follows with
      | @clause c l mem head pos neg ih =>
          have holds : c.HoldsIn held := ⟨fun m hm => (h.founded m).2 (pos m hm), neg⟩
          obtain ⟨d, hd, head', body, holds'⟩ := there c mem holds
          refine .clause hd (head'.trans head) (fun m hm => ?_) holds'.2
          exact ih m (body hm) (holds.1 m (body hm))
    · intro follows
      induction follows with
      | @clause d l mem head pos neg ih =>
          obtain ⟨c, hc, head', holds⟩ := back d mem ⟨ih, neg⟩
          exact h.mem_iff.2 ⟨c, hc, head'.trans head, holds⟩
  constraints d hd head holds := by
    obtain ⟨c, hc, head', holds⟩ := back d hd holds
    exact h.constraints c hc (head'.trans head) holds
  consistent := h.consistent

/-- **Only clauses that fire matter** to whether a set is an answer set, and of these only their
heads and what their positive bodies ask for. -/
theorem isAnswerSet_congr_of_firing
    (there : ∀ c ∈ cs, c.HoldsIn held → ∃ d ∈ ds, d.head = c.head ∧ d.body ⊆ c.body ∧
      d.HoldsIn held)
    (back : ∀ d ∈ ds, d.HoldsIn held → ∃ c ∈ cs, c.head = d.head ∧ c.body ⊆ d.body ∧
      c.HoldsIn held) : IsAnswerSet cs held ↔ IsAnswerSet ds held := by
  constructor
  · intro h
    refine h.of_firing there fun d hd holds => ?_
    obtain ⟨c, hc, head, -, holds⟩ := back d hd holds
    exact ⟨c, hc, head, holds⟩
  · intro h
    refine h.of_firing back fun c hc holds => ?_
    obtain ⟨d, hd, head, -, holds⟩ := there c hc holds
    exact ⟨d, hd, head, holds⟩

end

/-! ## Literals and their texts -/

/-- All literals of the clauses are legible. -/
def AllLegible (cs : List Clause) : Prop :=
  ∀ c ∈ cs, ∀ l ∈ c.literals, l.Legible

namespace AllLegible

variable {cs : List Clause}

lemma head (h : AllLegible cs) {c : Clause} (hc : c ∈ cs) {l : Literal} (hl : c.head = some l) :
    l.Legible :=
  h c hc l (by simp [Clause.literals, hl])

lemma body (h : AllLegible cs) {c : Clause} (hc : c ∈ cs) {l : Literal} (hl : l ∈ c.body) :
    l.Legible :=
  h c hc l (by simp [Clause.literals, Clause.completeBody, hl])

lemma negBody (h : AllLegible cs) {c : Clause} (hc : c ∈ cs) {l : Literal} (hl : l ∈ c.negBody) :
    l.Legible :=
  h c hc l (by simp [Clause.literals, Clause.completeBody, hl])

end AllLegible

/-- The texts are those of the literals. -/
def Agree (texts : Set String) (held : Set Literal) : Prop :=
  ∀ l : Literal, l.Legible → (l.text ∈ texts ↔ l ∈ held)

lemma derivable_ground_iff {cs : List Clause} (legible : AllLegible cs) {texts : Set String}
    {held : Set Literal} (agree : Agree texts held) {l : Literal} (hl : l.Legible) :
    Derivable (cs.map Clause.ground) (· ∈ texts) l.text ↔ Follows cs held l := by
  constructor
  · intro h
    generalize ht : l.text = t at h
    induction h generalizing l with
    | rule mem head pos neg ih =>
        obtain ⟨c, hc, rfl⟩ := List.mem_map.1 mem
        obtain ⟨k, hk, rfl⟩ := Option.map_eq_some_iff.1 head
        obtain rfl := hl.text_inj (legible.head hc hk) ht
        refine .clause hc hk (fun m hm => ?_) fun m hm => ?_
        · exact ih _ (List.mem_map_of_mem hm) (legible.body hc hm) rfl
        · rw [← agree m (legible.negBody hc hm)]
          exact neg _ (List.mem_map_of_mem hm)
  · intro h
    induction h with
    | @clause c l mem head pos neg ih =>
        refine .rule (List.mem_map_of_mem mem) (by rw [Clause.ground, head]; rfl) ?_ ?_
        · intro t ht
          obtain ⟨m, hm, rfl⟩ := List.mem_map.1 ht
          exact ih m hm (legible.body mem hm)
        · intro t ht
          obtain ⟨m, hm, rfl⟩ := List.mem_map.1 ht
          rw [agree m (legible.negBody mem hm)]
          exact neg m hm

/-- What can be derived is the text of a head. -/
lemma exists_head_of_derivable {cs : List Clause} {texts : String → Prop} {t : String}
    (h : Derivable (cs.map Clause.ground) texts t) :
    ∃ c ∈ cs, ∃ l, c.head = some l ∧ l.text = t := by
  cases h with
  | rule mem head _ _ =>
      obtain ⟨c, hc, rfl⟩ := List.mem_map.1 mem
      obtain ⟨l, hl, ht⟩ := Option.map_eq_some_iff.1 head
      exact ⟨c, hc, l, hl, ht⟩

lemma bodyHolds_ground_iff {c : Clause} {texts : Set String} {held : Set Literal}
    (legible : ∀ l ∈ c.literals, l.Legible) (agree : Agree texts held) :
    c.ground.BodyHolds (· ∈ texts) ↔ c.HoldsIn held := by
  have pos : ∀ l ∈ c.body, (l.text ∈ texts ↔ l ∈ held) := fun l hl =>
    agree l (legible l (by simp [Clause.literals, Clause.completeBody, hl]))
  have neg : ∀ l ∈ c.negBody, (l.text ∈ texts ↔ l ∈ held) := fun l hl =>
    agree l (legible l (by simp [Clause.literals, Clause.completeBody, hl]))
  simp only [GroundRule.BodyHolds, Clause.ground, Clause.HoldsIn, List.forall_mem_map]
  exact and_congr (forall₂_congr pos) (forall₂_congr fun l hl => not_congr (neg l hl))

lemma agree_image {held : Set Literal} (legible : ∀ l ∈ held, l.Legible) :
    Agree (Literal.text '' held) held := by
  intro l hl
  constructor
  · rintro ⟨m, hm, e⟩
    rwa [← (legible m hm).text_inj hl e]
  · exact fun h => ⟨l, h, rfl⟩

/-- **A solver's models are the texts of the stable models over literals.** -/
theorem isStable_ground_iff {cs : List Clause} (legible : AllLegible cs) {texts : Set String} :
    IsStable (cs.map Clause.ground) (· ∈ texts) ↔
      ∃ held, IsAnswerSet cs held ∧ texts = Literal.text '' held := by
  constructor
  · intro h
    let held : Set Literal := {l | l.Legible ∧ l.text ∈ texts}
    have agree : Agree texts held := fun l hl => ⟨fun ht => ⟨hl, ht⟩, And.right⟩
    have founded : ∀ l, l ∈ held ↔ Follows cs held l := by
      intro l
      constructor
      · rintro ⟨hl, ht⟩
        exact (derivable_ground_iff legible agree hl).1 ((h.founded _).1 ht)
      · intro hf
        obtain ⟨c, hc, head, -⟩ := follows_iff.1 hf
        have hl := legible.head hc head
        exact ⟨hl, (h.founded _).2 ((derivable_ground_iff legible agree hl).2 hf)⟩
    refine ⟨held, ⟨founded, ?_, ?_⟩, ?_⟩
    · intro c hc head holds
      refine h.constraints _ (List.mem_map_of_mem hc) (by rw [Clause.ground, head]; rfl) ?_
      exact (bodyHolds_ground_iff (legible c hc) agree).2 holds
    · rintro l ⟨hl, ht⟩ ⟨-, ht'⟩
      cases hn : l.negated with
      | false =>
          refine h.consistent l.text ⟨ht, ?_⟩
          simpa [Literal.text, Literal.complement, hn] using ht'
      | true =>
          refine h.consistent l.complement.text ⟨ht', ?_⟩
          simpa [Literal.text, Literal.complement, hn] using ht
    · ext t
      constructor
      · intro ht
        obtain ⟨c, hc, l, head, rfl⟩ := exists_head_of_derivable ((h.founded t).1 ht)
        exact ⟨l, ⟨legible.head hc head, ht⟩, rfl⟩
      · rintro ⟨l, hl, rfl⟩
        exact hl.2
  · rintro ⟨held, h, rfl⟩
    have heldLegible : ∀ l ∈ held, l.Legible := by
      intro l hl
      obtain ⟨c, hc, head, -⟩ := h.mem_iff.1 hl
      exact legible.head hc head
    have agree := agree_image heldLegible
    refine ⟨fun t => ?_, ?_, ?_⟩
    · constructor
      · rintro ⟨l, hl, rfl⟩
        exact (derivable_ground_iff legible agree (heldLegible l hl)).2 ((h.founded l).1 hl)
      · intro ht
        obtain ⟨c, hc, l, head, rfl⟩ := exists_head_of_derivable ht
        have := (derivable_ground_iff legible agree (legible.head hc head)).1 ht
        exact ⟨l, (h.founded l).2 this, rfl⟩
    · intro r hr head holds
      obtain ⟨c, hc, rfl⟩ := List.mem_map.1 hr
      exact h.constraints c hc (by simpa [Clause.ground] using head)
        ((bodyHolds_ground_iff (legible c hc) agree).1 holds)
    · rintro t ⟨⟨l, hl, rfl⟩, ⟨m, hm, e⟩⟩
      rw [(heldLegible l hl).eq_complement_of_text (heldLegible m hm) e] at hm
      exact h.consistent l hl hm

/-! ## Rules that repeat each other -/

/-- The rules have the same head and the same atoms in either body. -/
structure GroundRule.Repeats (r s : GroundRule) : Prop where
  head : r.head = s.head
  pos : ∀ a, a ∈ r.pos ↔ a ∈ s.pos
  neg : ∀ a, a ∈ r.neg ↔ a ∈ s.neg

/-- Equivalent clauses have the same parts, if equivalent literals of them are the same. -/
lemma Clause.parts_of_equiv {c d : Clause} (e : c ≈ d)
    (same : ∀ l ∈ c.literals, ∀ m ∈ d.literals, l ≈ m → l = m) : c.head = d.head ∧
      (∀ l, l ∈ c.body ↔ l ∈ d.body) ∧ ∀ l, l ∈ c.negBody ↔ l ∈ d.negBody := by
  have parts : ∀ {ls ms : List Literal}, Literal.SameSet ls ms → ls ⊆ c.literals →
      ms ⊆ d.literals → ∀ l, l ∈ ls ↔ l ∈ ms := by
    intro ls ms h hls hms l
    constructor
    · intro hl
      obtain ⟨m, hm, e⟩ := h.1 l hl
      rwa [same l (hls hl) m (hms hm) e]
    · intro hm
      obtain ⟨m, hl, e⟩ := h.2 l hm
      rwa [← same m (hls hl) l (hms hm) (Setoid.symm e)]
  have body : ∀ b : Clause, b.body ⊆ b.literals ∧ b.negBody ⊆ b.literals := by
    intro b
    constructor <;> intro l hl <;> simp [Clause.literals, Clause.completeBody, hl]
  refine ⟨?_, parts e.2.1 (body c).1 (body d).1, parts e.2.2 (body c).2 (body d).2⟩
  have heads := e.1
  cases hc : c.head with
  | none =>
      cases hd : d.head with
      | none => rfl
      | some m => rw [hc, hd] at heads; exact heads.elim
  | some l =>
      cases hd : d.head with
      | none => rw [hc, hd] at heads; exact heads.elim
      | some m =>
          rw [hc, hd] at heads
          rw [same l (by simp [Clause.literals, hc]) m (by simp [Clause.literals, hd]) heads]

/-- Equivalent clauses repeat each other, if equivalent literals of them are the same. -/
lemma Clause.ground_repeats {c d : Clause} (e : c ≈ d)
    (same : ∀ l ∈ c.literals, ∀ m ∈ d.literals, l ≈ m → l = m) : c.ground.Repeats d.ground := by
  obtain ⟨head, body, negBody⟩ := Clause.parts_of_equiv e same
  exact ⟨by simp [Clause.ground, head], by simp [Clause.ground, body],
    by simp [Clause.ground, negBody]⟩

lemma GroundRule.Repeats.bodyHolds_iff {r s : GroundRule} (h : r.Repeats s)
    (held : String → Prop) : r.BodyHolds held ↔ s.BodyHolds held := by
  simp only [GroundRule.BodyHolds, h.pos, h.neg]

lemma Derivable.of_repeats {rules others : List GroundRule} {held : String → Prop}
    (h : ∀ r ∈ rules, ∃ s ∈ others, r.Repeats s) {a : String} (d : Derivable rules held a) :
    Derivable others held a := by
  induction d with
  | rule mem head pos neg ih =>
      obtain ⟨s, hs, rep⟩ := h _ mem
      refine .rule hs (rep.head ▸ head) (fun b hb => ih b ((rep.pos b).2 hb)) fun b hb => ?_
      exact neg b ((rep.neg b).2 hb)

lemma IsStable.of_repeats {rules others : List GroundRule} {held : String → Prop}
    (there : ∀ r ∈ rules, ∃ s ∈ others, r.Repeats s)
    (back : ∀ s ∈ others, ∃ r ∈ rules, s.Repeats r) (h : IsStable rules held) :
    IsStable others held where
  founded a := (h.founded a).trans ⟨Derivable.of_repeats there, Derivable.of_repeats back⟩
  constraints s hs head holds := by
    obtain ⟨r, hr, rep⟩ := back s hs
    exact h.constraints r hr (rep.head ▸ head) ((rep.bodyHolds_iff held).1 holds)
  consistent := h.consistent

/-- **Rules that repeat each other have the same stable models.** -/
theorem isStable_congr {rules others : List GroundRule} {held : String → Prop}
    (there : ∀ r ∈ rules, ∃ s ∈ others, r.Repeats s)
    (back : ∀ s ∈ others, ∃ r ∈ rules, s.Repeats r) :
    IsStable rules held ↔ IsStable others held :=
  ⟨IsStable.of_repeats there back, IsStable.of_repeats back there⟩

end CausalUpdate
