import CausalUpdate.Proofs.Detection.Folding
import CausalUpdate.Proofs.Detection.Pair
import CausalUpdate.Proofs.Program.Live

/-!
# What a detection compares

Whatever is reported of a sequence was found by comparing two programs: one of the sequence, and one
whose rules come from those before it.  So the rules of a conflict are among those of the sequence,
the older one in front of the newer one, whatever the solver has said.

* `Compares` — the programs that are compared on behalf of a sequence.
* `detectSequence_compares` — where a report comes from.
* `Placed`, `detectSequence_found` — the rules of a conflict and where they stand.
-/

namespace CausalUpdate

variable {mark : Mark} {next : Nat} {ps : List Program} {older newer m p : Program}
  {s t : Solver} {g g' : Ledger} {d : Detection} {c : Conflict}

/-- The second program is one of the sequence, and the rules of the first one come from programs
before it. -/
structure Compares (ps : List Program) (m p : Program) : Prop where
  ids : ∀ q ∈ [m, p], q.ids.Nodup
  split : ∃ oldest before back, ps = oldest :: before ++ p :: back ∧
    ∀ r ∈ m.rules, r ∈ rulesOf (oldest :: before)

namespace Compares

lemma rules (h : Compares ps m p) : ∀ r ∈ rulesOf [m, p], r ∈ rulesOf ps := by
  obtain ⟨oldest, before, back, rfl, sub⟩ := h.split
  intro r hr
  rw [rulesOf_cons, rulesOf_cons, rulesOf_nil, List.append_nil, List.mem_append] at hr
  rw [rulesOf_append, rulesOf_cons p, List.mem_append, List.mem_append]
  exact hr.imp (sub r) Or.inl

/-- Of the programs of the sequence, only the newer one that is compared has its rules. -/
lemma newer_eq (h : Compares ps m p) (orderly : Orderly next ps) {q : Program} (hq : q ∈ ps)
    {r : Rule} (hr : r ∈ p.rules) (hr' : r ∈ q.rules) : q = p := by
  obtain ⟨oldest, before, back, rfl, -⟩ := h.split
  rcases List.mem_append.1 hq with hq | hq
  · have there : r ∈ rulesOf (p :: back) := by simp [hr]
    exact absurd rfl (orderly.disjoint (mem_rulesOf.2 ⟨q, hq, hr'⟩) there)
  · rcases List.mem_cons.1 hq with rfl | hq
    · rfl
    · rw [List.append_cons] at orderly
      have there : r ∈ rulesOf (oldest :: before ++ [p]) := by simp [hr]
      exact absurd rfl (orderly.disjoint there (mem_rulesOf.2 ⟨q, hq, hr'⟩))

end Compares

/-! ## Two programs -/

/-- The rules of a conflict between two programs are among theirs, and it has no solutions yet. -/
lemma detectPair_found (run : (detectPair mark older newer).run s g = ((.ok d, t), g'))
    (hc : c ∈ d.findings.conflicts) :
    c.older ∈ older.rules ∧ c.newer ∈ newer.rules ∧ c.solutions = [] := by
  cases detectPair_outcome run with
  | refused _ => exact absurd hc List.not_mem_nil
  | inconsistent _ _ => exact absurd hc List.not_mem_nil
  | unreadable _ _ => exact absurd hc List.not_mem_nil
  | found _ _ extracted =>
      obtain ⟨recorded, -⟩ := extractConflicts_recorded extracted
      obtain ⟨fa, fb⟩ := recorded.found c hc
      exact ⟨Program.mem_of_find? fa, Program.mem_of_find? fb, recorded.unsolved c hc⟩

/-! ## Sequences -/

/-- **Whatever is reported of a sequence was found by comparing two programs.** -/
theorem detectSequence_compares (orderly : Orderly next ps)
    (run : (detectSequence mark ps).run s g = ((.ok d, t), g')) (hc : c ∈ d.findings.conflicts) :
    ∃ m p s₁ g₁ t₁ g₂, Compares ps m p ∧ s₁.reply = s.reply ∧
      (detectPair mark m p).run s₁ g₁ = ((.ok d, t₁), g₂) := by
  rcases ps with _ | ⟨oldest, _ | ⟨newer, rest⟩⟩
  · cases run
    exact absurd hc List.not_mem_nil
  · cases run
    exact absurd hc List.not_mem_nil
  · obtain ⟨before, p, back, m, s₁, g₁, t₁, g₂, split, steps, reply, last⟩ :=
      detectSequence_stepwise (List.cons_ne_nil newer rest) run
    rw [split] at orderly ⊢
    have front : Orderly next (oldest :: before) :=
      orderly.sublist ((List.sublist_append_left before _).cons_cons oldest)
    -- of the rules in front, merging leaves some, and in their order
    have kept : m.rules.Sublist (rulesOf (oldest :: before)) := by
      rw [steps.rules_eq (fun r hr => front.nonempty r (List.mem_append_right _ hr)) front.distinct,
        rulesOf_cons]
      exact (List.Sublist.refl _).append (novel_sublist _ _)
    have ids : ∀ q ∈ [m, p], q.ids.Nodup := by
      intro q hq
      rcases List.mem_pair.1 hq with rfl | rfl
      · exact front.distinct.sublist (kept.map Rule.id)
      · exact orderly.ids_nodup (by simp)
    have compares : Compares (oldest :: (before ++ p :: back)) m p :=
      ⟨ids, oldest, before, back, rfl, fun r hr => kept.subset hr⟩
    exact ⟨m, p, s₁, g₁, t₁, g₂, compares, reply, last⟩

/-- The older rule of the conflict is one of a program, and the newer one is one of a later
program. -/
def Placed (ps : List Program) (c : Conflict) : Prop :=
  ∃ (i j : Nat) (p q : Program), i < j ∧ ps[i]? = some p ∧ ps[j]? = some q ∧
    c.older ∈ p.rules ∧ c.newer ∈ q.rules

/-- Further programs do not change where a conflict stands. -/
lemma Placed.append (h : Placed ps c) (qs : List Program) : Placed (ps ++ qs) c := by
  obtain ⟨i, j, p, q, lt, hp, hq, older, newer⟩ := h
  have still : ∀ {k : Nat} {p : Program}, ps[k]? = some p → (ps ++ qs)[k]? = some p := fun h =>
    (List.getElem?_append_left (List.getElem?_eq_some_iff.1 h).1).trans h
  exact ⟨i, j, p, q, lt, still hp, still hq, older, newer⟩

lemma Compares.placed (h : Compares ps m p) (older : c.older ∈ m.rules)
    (newer : c.newer ∈ p.rules) : Placed ps c := by
  obtain ⟨oldest, before, back, rfl, sub⟩ := h.split
  obtain ⟨q, hq, inside⟩ := mem_rulesOf.1 (sub _ older)
  obtain ⟨i, lt, rfl⟩ := List.getElem_of_mem hq
  refine ⟨i, (oldest :: before).length, _, p, lt, ?_, ?_, inside, newer⟩
  · rw [List.getElem?_append_left lt, List.getElem?_eq_getElem lt]
  · rw [List.getElem?_append_right (Nat.le_refl _), Nat.sub_self, List.getElem?_cons_zero]

/-- **The older rule of a conflict comes in front of the newer one**, whatever the solver has
said. -/
theorem detectSequence_placed (orderly : Orderly next ps)
    (run : (detectSequence mark ps).run s g = ((.ok d, t), g')) (hc : c ∈ d.findings.conflicts) :
    Placed ps c := by
  obtain ⟨m, p, s₁, g₁, t₁, g₂, compares, -, run⟩ := detectSequence_compares orderly run hc
  obtain ⟨older, newer, -⟩ := detectPair_found run hc
  exact compares.placed older newer

/-- **The rules of a conflict are among those of the programs**, whatever the solver has said, and
it has no solutions yet. -/
theorem detectSequence_found (orderly : Orderly next ps)
    (run : (detectSequence mark ps).run s g = ((.ok d, t), g')) (hc : c ∈ d.findings.conflicts) :
    c.older ∈ rulesOf ps ∧ c.newer ∈ rulesOf ps ∧ c.solutions = [] := by
  obtain ⟨m, p, s₁, g₁, t₁, g₂, compares, -, run⟩ := detectSequence_compares orderly run hc
  obtain ⟨ha, hb, unsolved⟩ := detectPair_found run hc
  exact ⟨compares.rules _ (by simp [ha]), compares.rules _ (by simp [hb]), unsolved⟩

end CausalUpdate
