import CausalUpdate.Proofs.Program.Orderly
import CausalUpdate.Proofs.Strategy.Alike

/-!
# What merging leaves

Merging goes through the rules one by one.  It looks at what it has put together so far, where rules
have been left out and others have new identifiers.  What it leaves can be told from the rules that
go in: of equivalent rules it keeps the first one, and a rule gets a new identifier if its own has
been given to one that was kept before.

* `novel` — the rules that say something that has not been said before.
* `incoming` — rules with the identifiers under which they come into a program.
* `Gathers.rules_incoming`, `merge_rules` — what gathering and merging leave.
* `MergedStepwise` — programs merged two at a time, with whatever goes on in between.
-/

namespace CausalUpdate

/-! ## Rules that say something new -/

/-- Some clause of the list is equivalent to this one. -/
def Clause.Among (c : Clause) (cs : List Clause) : Prop :=
  ∃ d ∈ cs, d ≈ c

instance (c : Clause) (cs : List Clause) : Decidable (c.Among cs) :=
  inferInstanceAs (Decidable (∃ d ∈ cs, d ≈ c))

/-- The rules, in order, that are equivalent neither to one of the earlier clauses nor to a rule
before them. -/
def novel (earlier : List Clause) : List Rule → List Rule
  | [] => []
  | r :: rs =>
    if r.toClause.Among earlier then novel (earlier ++ [r.toClause]) rs
    else r :: novel (earlier ++ [r.toClause]) rs

section

variable {c d : Clause} {cs ds : List Clause} {rs ss : List Rule}

namespace Clause

lemma among_append : c.Among (cs ++ ds) ↔ c.Among cs ∨ c.Among ds := by
  simp only [Among, List.mem_append, or_and_right, exists_or]

lemma among_singleton : c.Among [d] ↔ d ≈ c := by
  simp only [Among, List.mem_singleton, exists_eq_left]

/-- A clause that has been said already makes no difference. -/
lemma among_append_of_among (h : d.Among cs) : c.Among (cs ++ [d]) ↔ c.Among cs := by
  rw [among_append, among_singleton, or_iff_left_iff_imp]
  intro e
  obtain ⟨b, hb, e'⟩ := h
  exact ⟨b, hb, Setoid.trans e' e⟩

end Clause

lemma novel_sublist (cs : List Clause) (rs : List Rule) : (novel cs rs).Sublist rs := by
  induction rs generalizing cs with
  | nil => exact .slnil
  | cons r rs ih =>
      rw [novel]
      split
      · exact (ih _).cons r
      · exact (ih _).cons_cons r

/-- It matters what has been said, and not how. -/
lemma novel_congr (same : ∀ c : Clause, c.Among cs ↔ c.Among ds) (rs : List Rule) :
    novel cs rs = novel ds rs := by
  induction rs generalizing cs ds with
  | nil => rfl
  | cons r rs ih =>
      have rest := ih fun c => by
        show c.Among (cs ++ [r.toClause]) ↔ c.Among (ds ++ [r.toClause])
        rw [Clause.among_append, Clause.among_append, same]
      simp only [novel, same, rest]

lemma novel_append (cs : List Clause) (rs ss : List Rule) :
    novel cs (rs ++ ss) = novel cs rs ++ novel (cs ++ rs.map Rule.toClause) ss := by
  induction rs generalizing cs with
  | nil => simp [novel]
  | cons r rs ih =>
      rw [List.cons_append, novel, novel, ih, List.append_assoc, List.map_cons,
        List.singleton_append]
      split <;> rfl

/-- Rules that differ from what has been said and from each other are all kept. -/
lemma novel_of_pairwise
    (h : (cs ++ rs.map Rule.toClause).Pairwise fun c d => ¬ c ≈ d) : novel cs rs = rs := by
  induction rs generalizing cs with
  | nil => rfl
  | cons r rs ih =>
      rw [List.map_cons] at h
      have new : ¬ r.toClause.Among cs := fun ⟨c, hc, e⟩ =>
        (List.pairwise_append.1 h).2.2 c hc _ List.mem_cons_self e
      rw [novel, if_neg new, ih (by rwa [List.append_cons] at h)]

lemma Program.Unrepeated.novel_rules {p : Program} (h : p.Unrepeated) :
    novel [] p.rules = p.rules :=
  novel_of_pairwise h

/-- Whatever is said by the rules is said by those that are kept. -/
lemma among_novel (cs : List Clause) (rs : List Rule) (c : Clause) :
    c.Among (cs ++ (novel cs rs).map Rule.toClause) ↔ c.Among (cs ++ rs.map Rule.toClause) := by
  induction rs generalizing cs with
  | nil => rfl
  | cons r rs ih =>
      have rest := ih (cs ++ [r.toClause])
      rw [List.map_cons, List.append_cons, ← rest, novel]
      split
      · rename_i said
        rw [Clause.among_append, @Clause.among_append _ (cs ++ [_]),
          Clause.among_append_of_among said]
      · rw [List.map_cons, List.append_cons]

end

/-! ## Rules that come in -/

/-- The rules as they come into a program in which some identifiers are taken: a rule with one of
these gets the next identifier of the supply, and those of the rules before it are taken as well. -/
def incoming (taken : List Int) (next : Nat) : List Rule → List Rule
  | [] => []
  | r :: rs =>
    if r.id ∈ taken then r.withId next :: incoming (taken ++ [(next : Int)]) (next + 1) rs
    else r :: incoming (taken ++ [r.id]) next rs

section

variable {taken taken' : List Int} {next : Nat} {rs ss : List Rule}

/-- Of the taken identifiers only those of the rules that come in matter. -/
lemma incoming_congr {taken taken' : List Int} (same : ∀ r ∈ rs, r.id ∈ taken ↔ r.id ∈ taken') :
    incoming taken next rs = incoming taken' next rs := by
  induction rs generalizing taken taken' next with
  | nil => rfl
  | cons r rs ih =>
      obtain ⟨first, rest⟩ := List.forall_mem_cons.1 same
      have onward : ∀ id next,
          incoming (taken ++ [id]) next rs = incoming (taken' ++ [id]) next rs := fun id next =>
        ih fun s hs => by rw [List.mem_append, List.mem_append, rest s hs]
      simp only [incoming, first, onward]

/-- What comes in has its own identifier or a new one. -/
lemma mem_incoming {r : Rule} (hr : r ∈ incoming taken next rs) :
    r ∈ rs ∨ ∃ k : Nat, next ≤ k ∧ r.id = k := by
  induction rs generalizing taken next with
  | nil => exact absurd hr List.not_mem_nil
  | cons s rs ih =>
      rw [incoming] at hr
      split at hr
      · rcases List.mem_cons.1 hr with rfl | hr
        · exact Or.inr ⟨next, Nat.le_refl _, rfl⟩
        · refine (ih hr).imp (List.mem_cons_of_mem _) fun ⟨k, le, e⟩ => ⟨k, ?_, e⟩
          omega
      · rcases List.mem_cons.1 hr with rfl | hr
        · exact Or.inl List.mem_cons_self
        · exact (ih hr).imp (List.mem_cons_of_mem _) id

/-- Rules with identifiers of their own come in as they are. -/
lemma incoming_append_of_nodup (distinct : (taken ++ rs.map Rule.id).Nodup) (ss : List Rule) :
    incoming taken next (rs ++ ss) = rs ++ incoming (taken ++ rs.map Rule.id) next ss := by
  induction rs generalizing taken with
  | nil => simp
  | cons r rs ih =>
      rw [List.map_cons] at distinct
      have free : r.id ∉ taken := fun inside =>
        (List.nodup_append.1 distinct).2.2 _ inside _ List.mem_cons_self rfl
      rw [List.append_cons] at distinct
      rw [List.cons_append, incoming, if_neg free, ih distinct, List.map_cons, List.append_assoc,
        List.singleton_append, List.cons_append]

lemma incoming_of_nodup (distinct : (taken ++ rs.map Rule.id).Nodup) :
    incoming taken next rs = rs := by
  have all : incoming taken next (rs ++ []) =
      rs ++ incoming (taken ++ rs.map Rule.id) next [] := incoming_append_of_nodup distinct []
  rwa [List.append_nil, incoming, List.append_nil] at all

end

/-! ## Gathering -/

section

variable {p q m k : Program} {qs : List Program} {n n' : Nat} {rs : List Rule} {g g' : Ledger}

/-- **What gathering leaves**, if no rule is empty. -/
theorem Gathers.rules_incoming (h : Gathers p n rs q n') (nonempty : ∀ r ∈ rs, r.isEmpty = false) :
    q.rules = p.rules ++ incoming p.ids n (novel p.clauses rs) := by
  have among : ∀ {p : Program} {r : Rule}, r.isEmpty = false →
      (p.Refuses r.toClause ↔ r.toClause.Among p.clauses) := by
    intro p r nonempty
    rw [Program.Refuses, nonempty]
    exact or_iff_right Bool.false_ne_true
  induction h with
  | nil => simp [novel, incoming]
  | refused refuses _ ih =>
      obtain ⟨first, rest⟩ := List.forall_mem_cons.1 nonempty
      -- what is left out counts as said before, though it does not stand in the program
      have said := (among first).1 refuses
      rw [ih rest, novel, if_pos said, novel_congr fun c => Clause.among_append_of_among said]
  | asIs wanted free _ ih =>
      obtain ⟨first, rest⟩ := List.forall_mem_cons.1 nonempty
      rw [ih rest, novel, if_neg (mt (among first).2 wanted), incoming, if_neg free,
        Program.clauses_push, Program.ids_push, Program.push, List.append_assoc,
        List.singleton_append]
  | renumbered wanted taken _ ih =>
      obtain ⟨first, rest⟩ := List.forall_mem_cons.1 nonempty
      rw [ih rest, novel, if_neg (mt (among first).2 wanted), incoming, if_pos taken,
        Program.clauses_push, Program.ids_push, Program.push, List.append_assoc,
        List.singleton_append]
      rfl

/-- Nothing is gathered of rules that are refused. -/
lemma Gathers.eq_of_refused (h : Gathers p n rs q n') (refuses : ∀ r ∈ rs, p.Refuses r.toClause) :
    q = p ∧ n' = n := by
  induction h with
  | nil => exact ⟨rfl, rfl⟩
  | refused _ _ ih => exact ih fun r hr => refuses r (List.mem_cons_of_mem _ hr)
  | asIs wanted => exact absurd (refuses _ List.mem_cons_self) wanted
  | renumbered wanted => exact absurd (refuses _ List.mem_cons_self) wanted

/-! ## Merging -/

/-- **What merging leaves**: of equivalent rules the first one, under its own identifier unless one
that is kept before has it. -/
theorem merge_rules {name : Option String} (nonempty : ∀ r ∈ rulesOf (p :: qs), r.isEmpty = false)
    (unrepeated : p.Unrepeated) (distinct : p.ids.Nodup)
    (run : (Program.merge (p :: qs) name).run g = (.ok m, g')) :
    m.rules = incoming [] g.nextId (novel [] (rulesOf (p :: qs))) := by
  have gathers := mergeInto_gathers run
  have rules := gathers.rules_incoming fun r hr => nonempty r (List.mem_append_right _ hr)
  rw [rulesOf_cons, novel_append, unrepeated.novel_rules,
    @incoming_append_of_nodup [] g.nextId p.rules distinct]
  exact rules

/-- **Merging a program with what it says already leaves it as it is** and takes nothing from the
supply. -/
theorem merge_of_said (nonempty : ∀ r ∈ m.rules, r.isEmpty = false)
    (said : ∀ r ∈ rulesOf qs, ∃ s ∈ m.rules, s.toClause ≈ r.toClause) (g : Ledger) :
    ∃ g', (Program.merge (m :: qs)).run g = (.ok m, g') ∧ g'.nextId = g.nextId := by
  have filled : ∀ q ∈ qs, ∀ r ∈ q.rules, r.isEmpty = false := by
    intro q hq r hr
    obtain ⟨s, hs, e⟩ := said r (mem_rulesOf.2 ⟨q, hq, hr⟩)
    exact Clause.isEmpty_congr e (nonempty s hs)
  obtain ⟨m', g', run, gathers⟩ := merge_gathers m qs none g filled
  obtain ⟨rfl, same⟩ := gathers.eq_of_refused fun r hr => by
    obtain ⟨s, hs, e⟩ := said r hr
    exact Or.inr ⟨s.toClause, List.mem_map_of_mem hs, e⟩
  exact ⟨g', run, same⟩

/-- The last program comes out if the others are merged into the first one, one after the other.  In
between, identifiers may be taken for something else. -/
inductive MergedStepwise : Program → List Program → Program → Prop
  | nil {p : Program} : MergedStepwise p [] p
  | cons {p q m k : Program} {qs : List Program} {g g' : Ledger}
      (first : (Program.merge [p, q] (some p.name)).run g = (.ok m, g'))
      (rest : MergedStepwise m qs k) : MergedStepwise p (q :: qs) k

lemma exists_mergedStepwise (p : Program) (nonempty : ∀ r ∈ rulesOf qs, r.isEmpty = false) :
    ∃ k, MergedStepwise p qs k := by
  induction qs generalizing p with
  | nil => exact ⟨p, .nil⟩
  | cons q qs ih =>
      rw [rulesOf_cons] at nonempty
      obtain ⟨first, rest⟩ := List.forall_mem_append.1 nonempty
      obtain ⟨m, g', run, -⟩ := merge_gathers p [q] (some p.name) {} (by simpa using first)
      obtain ⟨k, steps⟩ := ih m rest
      exact ⟨k, .cons run steps⟩

namespace MergedStepwise

lemma rules_eq (h : MergedStepwise p qs k)
    (nonempty : ∀ r ∈ rulesOf qs, r.isEmpty = false)
    (distinct : ((rulesOf (p :: qs)).map Rule.id).Nodup) :
    k.rules = p.rules ++ novel p.clauses (rulesOf qs) := by
  induction h with
  | nil => simp [novel]
  | @cons p q m k qs g g' run _ ih =>
      rw [rulesOf_cons] at nonempty
      obtain ⟨first, rest⟩ := List.forall_mem_append.1 nonempty
      have gathered := (mergeInto_gathers run).rules_incoming (by simpa using first)
      have own : (p.ids ++ (novel p.clauses q.rules).map Rule.id).Nodup := by
        refine distinct.sublist ?_
        rw [rulesOf_cons, rulesOf_cons, List.map_append, List.map_append]
        refine (List.Sublist.refl _).append ?_
        exact ((novel_sublist _ _).map _).trans (List.sublist_append_left _ _)
      have rules : m.rules = p.rules ++ novel p.clauses q.rules := by
        simp only [List.flatMap_cons, List.flatMap_nil, List.append_nil] at gathered
        exact gathered.trans (congrArg (p.rules ++ ·) (incoming_of_nodup own))
      have said : ∀ c : Clause, c.Among m.clauses ↔
          c.Among (p.clauses ++ q.rules.map Rule.toClause) := by
        intro c
        rw [← among_novel, Program.clauses, rules, List.map_append]
        rfl
      rw [ih rest (distinct.sublist ?_), rules, novel_congr said, rulesOf_cons, novel_append,
        List.append_assoc]
      simp only [rulesOf_cons, rules, List.append_assoc]
      refine ((List.Sublist.refl _).append ((novel_sublist _ _).append ?_)).map _
      exact List.Sublist.refl _

/-- **Merging step by step leaves the same** as merging all programs at once, if no two rules have
the same identifier. -/
theorem rules_eq_merge {name : Option String} (h : MergedStepwise p qs k)
    (nonempty : ∀ r ∈ rulesOf (p :: qs), r.isEmpty = false) (unrepeated : p.Unrepeated)
    (distinct : ((rulesOf (p :: qs)).map Rule.id).Nodup)
    (run : (Program.merge (p :: qs) name).run g = (.ok m, g')) : k.rules = m.rules := by
  have own : p.ids.Nodup := by
    refine distinct.sublist (List.Sublist.map _ ?_)
    rw [rulesOf_cons]
    exact List.sublist_append_left _ _
  have kept : (([] : List Int) ++ (novel [] (rulesOf (p :: qs))).map Rule.id).Nodup :=
    distinct.sublist ((novel_sublist _ _).map _)
  rw [merge_rules nonempty unrepeated own run, incoming_of_nodup kept,
    h.rules_eq (fun r hr => nonempty r (List.mem_append_right _ hr)) distinct, rulesOf_cons,
    novel_append, unrepeated.novel_rules]
  rfl

end MergedStepwise

end

end CausalUpdate
