import CausalUpdate.Proofs.Detection.Running
import CausalUpdate.Proofs.Program.Joining

/-!
# Merging in the course of a detection

A detection goes through a sequence of programs and merges those that it has compared, two at a
time.  What it compares with a program is what merging all programs in front of it leaves.

* `detectSequence_stepwise` — what is compared at last.
* `merge_keeps_first` — what merging leaves, all at once, over again and in a detection.
-/

namespace CausalUpdate

variable {mark : Mark} {p older newer : Program} {ps qs : List Program} {s t : Solver}
  {g g' : Ledger} {d : Detection}

lemma detectFrom_stepwise {last position : Nat}
    (run : (detectFrom mark last position older (newer :: ps)).run s g = ((.ok d, t), g')) :
    ∃ before q back m s₁ g₁ t₁ g₂, newer :: ps = before ++ q :: back ∧
      MergedStepwise older before m ∧ s₁.reply = s.reply ∧
        (detectPair mark m q).run s₁ g₁ = ((.ok d, t₁), g₂) := by
  induction ps generalizing position older newer s g with
  | nil => exact ⟨[], newer, [], older, s, g, t, g', rfl, .nil, rfl, run⟩
  | cons next ps ih =>
      obtain ⟨d₁, s₁, g₁, first, onward⟩ := Updating.bind_ok run
      split at onward
      · obtain ⟨m, s₂, g₂, attempted, rest⟩ := Updating.bind_ok onward
        obtain ⟨merged, rfl⟩ := Updating.attempt_ok attempted
        have reply := ((detectPair_steady mark older newer).of_run first).1
        obtain ⟨before, q, back, k, s₃, g₃, t₁, g₄, split, steps, reply', last⟩ := ih rest
        exact ⟨newer :: before, q, back, k, s₃, g₃, t₁, g₄, congrArg (newer :: ·) split,
          .cons merged steps, reply'.trans reply, last⟩
      · cases onward
        exact ⟨[], newer, next :: ps, older, s, g, _, _, rfl, .nil, rfl, first⟩

/-- **A detection ends with the comparison of one of the programs** with those in front of it, which
have been merged step by step. -/
theorem detectSequence_stepwise (several : qs ≠ [])
    (run : (detectSequence mark (p :: qs)).run s g = ((.ok d, t), g')) :
    ∃ before q back m s₁ g₁ t₁ g₂, qs = before ++ q :: back ∧ MergedStepwise p before m ∧
      s₁.reply = s.reply ∧ (detectPair mark m q).run s₁ g₁ = ((.ok d, t₁), g₂) := by
  obtain ⟨newer, ps, rfl⟩ := List.exists_cons_of_ne_nil several
  exact detectFrom_stepwise run

/-- Of programs without empty rules the first ones can be merged, at once and step by step. -/
lemma exists_merge_front {front back : List Program} (name : Option String) (g : Ledger)
    (nonempty : ∀ r ∈ rulesOf (p :: (front ++ back)), r.isEmpty = false)
    (unrepeated : p.Unrepeated) : ∃ m g', (Program.merge (p :: front) name).run g = (.ok m, g') ∧
      m.name = name.getD p.name ∧ (∀ r ∈ m.rules, r.isEmpty = false) ∧
        (((rulesOf (p :: (front ++ back))).map Rule.id).Nodup →
          ∀ k, MergedStepwise p front k → k.rules = m.rules) := by
  have split : rulesOf (p :: (front ++ back)) = rulesOf (p :: front) ++ rulesOf back :=
    rulesOf_append (p :: front) back
  rw [split] at nonempty ⊢
  have filled := (List.forall_mem_append.1 nonempty).1
  obtain ⟨m, g', run, gathers⟩ := merge_gathers p front name g fun q hq r hr =>
    filled r (mem_rulesOf.2 ⟨q, List.mem_cons_of_mem _ hq, hr⟩)
  refine ⟨m, g', run, gathers.name_eq, fun r hr => ?_, fun distinct k steps => ?_⟩
  · refine gathers.not_isEmpty (fun c hc => ?_) r.toClause (List.mem_map_of_mem hr)
    obtain ⟨q, hq, rfl⟩ := List.mem_map.1 hc
    exact filled q (List.mem_append_left _ hq)
  · exact steps.rules_eq_merge filled unrepeated
      (distinct.sublist ((List.sublist_append_left _ _).map _)) run

/-- **Merging keeps the first of equivalent rules**, in their order.  Let the programs have no empty
rules, and let the first of them be free of repetitions and repeated identifiers.  Then merging
succeeds and leaves the rules of all programs but for those to which an earlier one is equivalent.
They keep what they say and their labels, and also their identifiers, unless a rule that is kept
before has the same one.  Merging the outcome again with programs that say nothing new changes
nothing.  If no two rules share an identifier, then merging step by step leaves the same rules, and
this is what a detection compares with the next program. -/
theorem merge_keeps_first (p : Program) (qs : List Program) (name : Option String) (g : Ledger)
    (nonempty : ∀ r ∈ rulesOf (p :: qs), r.isEmpty = false) (unrepeated : p.Unrepeated)
    (distinct : p.ids.Nodup) :
    ∃ m g', (Program.merge (p :: qs) name).run g = (.ok m, g') ∧ m.name = name.getD p.name ∧
      m.rules = incoming [] g.nextId (novel [] (rulesOf (p :: qs))) ∧
      (∀ ks, (∀ r ∈ rulesOf ks, ∃ q ∈ m.rules, q.toClause ≈ r.toClause) → ∀ g₁, ∃ g₂,
        (Program.merge (m :: ks)).run g₁ = (.ok m, g₂) ∧ g₂.nextId = g₁.nextId) ∧
      (((rulesOf (p :: qs)).map Rule.id).Nodup →
        (∃ k, MergedStepwise p qs k) ∧ (∀ k, MergedStepwise p qs k → k.rules = m.rules) ∧
        ∀ mark s g₁ d t g₂, qs ≠ [] → (detectSequence mark (p :: qs)).run s g₁ = ((.ok d, t), g₂) →
          ∃ before newer back older s₁ g₃ t₁ g₄ m' g₅, qs = before ++ newer :: back ∧
            (Program.merge (p :: before) name).run g = (.ok m', g₅) ∧ older.rules = m'.rules ∧
              (detectPair mark older newer).run s₁ g₃ = ((.ok d, t₁), g₄)) := by
  obtain ⟨m, g', run, named, filled, stepwise⟩ :=
    @exists_merge_front p qs [] name g (by rwa [List.append_nil]) unrepeated
  rw [List.append_nil] at stepwise
  refine ⟨m, g', run, named, merge_rules nonempty unrepeated distinct run,
    fun ks said g₁ => merge_of_said filled said g₁, fun distinct =>
      ⟨?_, stepwise distinct, fun mark s g₁ d t g₂ several detected => ?_⟩⟩
  · exact exists_mergedStepwise p fun r hr => nonempty r (List.mem_append_right _ hr)
  · obtain ⟨before, newer, back, older, s₁, g₃, t₁, g₄, rfl, steps, -, last⟩ :=
      detectSequence_stepwise several detected
    obtain ⟨m', g₅, run', -, -, same⟩ := exists_merge_front name g nonempty unrepeated
    exact ⟨before, newer, back, older, s₁, g₃, t₁, g₄, m', g₅, rfl, run',
      same distinct older steps, last⟩

/-- A fact that is repeated and a rule whose identifier is taken, and the same with an identifier of
its own. -/
theorem merge_keeps_first_renumbered :
    let a : Literal := ⟨⟨"a", []⟩, false⟩
    let b : Literal := ⟨⟨"b", []⟩, false⟩
    let c : Literal := ⟨⟨"c", []⟩, false⟩
    let fact : Rule := { head := some a, id := 1 }
    let default : Rule := { head := some b, body := [a], id := 2 }
    let denial : Rule := { head := some b.complement, id := 5 }
    let p : Program := { rules := [fact, default] }
    let q (id : Int) : Program := { rules := [{ head := some c, id }, { head := some a, id := 4 }] }
    let k : Program := { rules := [{ head := some c, id := 3 }, denial] }
    (∃ m g', (Program.merge [p, q 1, k]).run { nextId := 8 } = (.ok m, g') ∧
      m.rules = [fact, default, { head := some c, id := 8 }, denial] ∧
        ∃ g₂, (Program.merge [m, q 7]).run g' = (.ok m, g₂) ∧ g₂.nextId = g'.nextId) ∧
      ∃ m, MergedStepwise p [q 7, k] m ∧
        m.rules = [fact, default, { head := some c, id := 7 }, denial] := by
  intro a b c fact default denial p q k
  have unrepeated : p.Unrepeated := Program.unrepeated_iff.2 (by decide)
  constructor
  · obtain ⟨m, g', run, -, rules, again, -⟩ :=
      merge_keeps_first p [q 1, k] none { nextId := 8 } (by decide) unrepeated (by decide)
    have explicit : m.rules = [fact, default, { head := some c, id := 8 }, denial] :=
      rules.trans (by decide)
    exact ⟨m, g', run, explicit, again [q 7] (by rw [explicit]; decide) g'⟩
  · obtain ⟨m, g', -, -, rules, -, apart⟩ :=
      merge_keeps_first p [q 7, k] none { nextId := 8 } (by decide) unrepeated (by decide)
    obtain ⟨⟨m', steps⟩, same, -⟩ := apart (by decide)
    exact ⟨m', steps, (same m' steps).trans (rules.trans (by decide))⟩

end CausalUpdate
