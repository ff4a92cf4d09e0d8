import CausalUpdate.Program.Parse
import CausalUpdate.Proofs.Work

/-!
# Gathering rules

Programs are read, compiled and merged by one and the same step: a rule goes to the end of a
program, unless it is empty or the program has an equivalent one, and it comes in under a new
identifier if its own is taken.  `Gathers` is a run of such steps.  What holds of every run is
proved once, and each operation only has to be recognised as a run.

* `Program.add_ok`, `Program.add_error` — what is behind one addition.
* `Gathers.covers` — every rule that says something is there afterwards, or an equivalent one.
* `Gathers.numbered` — identifiers stay distinct and never run ahead of the supply.
* `Gathers.mem_rules` — rules whose identifiers do not clash come in as they are.
-/

namespace CausalUpdate

namespace Program

/-- What the rules of a program say. -/
def clauses (p : Program) : List Clause :=
  p.rules.map Rule.toClause

@[simp] lemma clauses_push (p : Program) (r : Rule) :
    (p.push r).clauses = p.clauses ++ [r.toClause] := by
  simp [clauses, push]

@[simp] lemma ids_push (p : Program) (r : Rule) : (p.push r).ids = p.ids ++ [r.id] := by
  simp [ids, push]

/-- There is nothing that the clause would add to the program. -/
def Refuses (p : Program) (c : Clause) : Prop :=
  c.isEmpty ∨ ∃ d ∈ p.clauses, d ≈ c

lemma findEqual?_eq_none {p : Program} {c : Clause} :
    p.findEqual? c = none ↔ ¬ ∃ d ∈ p.clauses, d ≈ c := by
  simp [findEqual?, clauses, List.find?_eq_none]

lemma additionFault?_eq_none {p : Program} {c : Clause} :
    p.additionFault? c = none ↔ ¬ p.Refuses c := by
  unfold additionFault? Refuses
  by_cases h : c.isEmpty
  · simp [h]
  · rw [if_neg h, Option.map_eq_none_iff, findEqual?_eq_none]
    simp [h]

/-- A rule that says something is refused only as a repetition. -/
lemma additionFault?_of_not_isEmpty {p : Program} {c : Clause} {e : ProgramError}
    (hc : c.isEmpty = false) (h : p.additionFault? c = some e) :
    ∃ d name id, e = .duplicateAddition d name id := by
  unfold additionFault? at h
  rw [hc, if_neg (by simp), Option.map_eq_some_iff] at h
  obtain ⟨r, -, rfl⟩ := h
  exact ⟨c, p.name, r.id, rfl⟩

/-! ## One rule -/

lemma add_refused {p : Program} {r : Rule} (h : p.Refuses r.toClause) (g : Ledger) :
    ∃ e, p.additionFault? r.toClause = some e ∧ (p.add r).run g = (.error e, g) := by
  cases he : p.additionFault? r.toClause with
  | none => exact absurd h (additionFault?_eq_none.1 he)
  | some e =>
      refine ⟨e, rfl, ?_⟩
      unfold add
      rw [he]
      rfl

lemma add_as_is {p : Program} {r : Rule} {g : Ledger} (h : ¬ p.Refuses r.toClause)
    (free : r.id ∉ p.ids) : (p.add r).run g = (.ok (p.push r), g) := by
  unfold add
  rw [additionFault?_eq_none.2 h]
  simp only [free, if_false]
  rfl

lemma add_renumbered {p : Program} {r : Rule} {g : Ledger} (h : ¬ p.Refuses r.toClause)
    (taken : r.id ∈ p.ids) :
    (p.add r).run g = (.ok (p.push (r.withId g.nextId)), { g with nextId := g.nextId + 1 }) := by
  unfold add
  rw [additionFault?_eq_none.2 h]
  simp only [taken, if_true]
  rfl

/-- What is behind a failure, which takes nothing from the supply. -/
lemma add_error {p : Program} {r : Rule} {e : ProgramError} {g g' : Ledger}
    (run : (p.add r).run g = (.error e, g')) :
    p.Refuses r.toClause ∧ p.additionFault? r.toClause = some e ∧ g' = g := by
  by_cases refuses : p.Refuses r.toClause
  · obtain ⟨e', fault, run'⟩ := add_refused refuses g
    rw [run] at run'
    cases run'
    exact ⟨refuses, fault, rfl⟩
  · by_cases taken : r.id ∈ p.ids
    · rw [add_renumbered refuses taken] at run
      cases run
    · rw [add_as_is refuses taken] at run
      cases run

/-- What an addition leaves, when it succeeds. -/
lemma add_ok {p q : Program} {r : Rule} {g g' : Ledger} (run : (p.add r).run g = (.ok q, g')) :
    ¬ p.Refuses r.toClause ∧ (r.id ∉ p.ids ∧ q = p.push r ∧ g' = g ∨
      r.id ∈ p.ids ∧ q = p.push (r.withId g.nextId) ∧ g' = { g with nextId := g.nextId + 1 }) := by
  by_cases refuses : p.Refuses r.toClause
  · obtain ⟨e, -, failed⟩ := add_refused refuses g
    rw [failed] at run
    cases run
  · refine ⟨refuses, ?_⟩
    by_cases taken : r.id ∈ p.ids
    · rw [add_renumbered refuses taken] at run
      cases run
      exact Or.inr ⟨taken, rfl, rfl⟩
    · rw [add_as_is refuses taken] at run
      cases run
      exact Or.inl ⟨taken, rfl, rfl⟩

end Program

/-! ## Runs -/

/-- The rules are gathered into the first program, while the supply of identifiers goes from the
first number to the second; what comes out is the second program. -/
inductive Gathers : Program → Nat → List Rule → Program → Nat → Prop
  | nil {p : Program} {n : Nat} : Gathers p n [] p n
  | refused {p q : Program} {n n' : Nat} {r : Rule} {rs : List Rule}
      (refuses : p.Refuses r.toClause) (rest : Gathers p n rs q n') : Gathers p n (r :: rs) q n'
  | asIs {p q : Program} {n n' : Nat} {r : Rule} {rs : List Rule}
      (wanted : ¬ p.Refuses r.toClause) (free : r.id ∉ p.ids)
      (rest : Gathers (p.push r) n rs q n') : Gathers p n (r :: rs) q n'
  | renumbered {p q : Program} {n n' : Nat} {r : Rule} {rs : List Rule}
      (wanted : ¬ p.Refuses r.toClause) (taken : r.id ∈ p.ids)
      (rest : Gathers (p.push (r.withId n)) (n + 1) rs q n') : Gathers p n (r :: rs) q n'

/-- The identifiers of the program are distinct, and all of them have been taken from the supply,
of which `next` comes next. -/
structure Numbered (next : Nat) (p : Program) : Prop where
  distinct : p.ids.Nodup
  taken : ∀ id ∈ p.ids, 0 < id ∧ id < next

instance (next : Nat) (p : Program) : Decidable (Numbered next p) :=
  decidable_of_iff (p.ids.Nodup ∧ ∀ id ∈ p.ids, 0 < id ∧ id < next)
    ⟨fun h => ⟨h.1, h.2⟩, fun h => ⟨h.1, h.2⟩⟩

lemma Numbered.mono {m n : Nat} {p : Program} (h : Numbered m p) (hmn : m ≤ n) : Numbered n p :=
  ⟨h.distinct, fun id hid => ⟨(h.taken id hid).1, by have := (h.taken id hid).2; omega⟩⟩

namespace Gathers

variable {p q m : Program} {n n' n'' : Nat} {rs ss : List Rule}

/-- A rule that cannot be added is left out. -/
lemma pass {r : Rule} {e : ProgramError} {g g' : Ledger} (failed : (p.add r).run g = (.error e, g'))
    (rest : Gathers p g'.nextId rs q n) : Gathers p g.nextId (r :: rs) q n := by
  obtain ⟨refuses, -, rfl⟩ := Program.add_error failed
  exact .refused refuses rest

/-- A rule that can be added is gathered. -/
lemma take {r : Rule} {g g' : Ledger} (added : (p.add r).run g = (.ok m, g'))
    (rest : Gathers m g'.nextId rs q n) : Gathers p g.nextId (r :: rs) q n := by
  obtain ⟨wanted, ⟨free, rfl, rfl⟩ | ⟨taken, rfl, rfl⟩⟩ := Program.add_ok added
  · exact .asIs wanted free rest
  · exact .renumbered wanted taken rest

lemma append (h : Gathers p n rs q n') (k : Gathers q n' ss m n'') :
    Gathers p n (rs ++ ss) m n'' := by
  induction h with
  | nil => exact k
  | refused refuses _ ih => exact .refused refuses (ih k)
  | asIs wanted free _ ih => exact .asIs wanted free (ih k)
  | renumbered wanted taken _ ih => exact .renumbered wanted taken (ih k)

lemma le (h : Gathers p n rs q n') : n ≤ n' := by
  induction h with
  | nil => exact Nat.le_refl _
  | refused _ _ ih => exact ih
  | asIs _ _ _ ih => exact ih
  | renumbered _ _ _ ih => omega

lemma name_eq (h : Gathers p n rs q n') : q.name = p.name := by
  induction h with
  | nil => rfl
  | refused _ _ ih => exact ih
  | asIs _ _ _ ih => exact ih
  | renumbered _ _ _ ih => exact ih

/-- What a program says, it goes on saying. -/
lemma clauses_prefix (h : Gathers p n rs q n') : p.clauses <+: q.clauses := by
  induction h with
  | nil => exact List.prefix_rfl
  | refused _ _ ih => exact ih
  | asIs _ _ _ ih =>
      rw [Program.clauses_push] at ih
      exact (List.prefix_append _ _).trans ih
  | renumbered _ _ _ ih =>
      rw [Program.clauses_push] at ih
      exact (List.prefix_append _ _).trans ih

/-- Nothing is said that has not been said before. -/
lemma mem_clauses (h : Gathers p n rs q n') {c : Clause} (hc : c ∈ q.clauses) :
    c ∈ p.clauses ∨ ∃ r ∈ rs, r.toClause = c := by
  induction h with
  | nil => exact Or.inl hc
  | refused _ _ ih =>
      rcases ih hc with hc | ⟨s, hs, e⟩
      · exact Or.inl hc
      · exact Or.inr ⟨s, List.mem_cons_of_mem _ hs, e⟩
  | asIs _ _ _ ih =>
      rcases ih hc with hc | ⟨s, hs, e⟩
      · rw [Program.clauses_push, List.mem_append, List.mem_singleton] at hc
        exact hc.imp id fun e => ⟨_, List.mem_cons_self, e.symm⟩
      · exact Or.inr ⟨s, List.mem_cons_of_mem _ hs, e⟩
  | renumbered _ _ _ ih =>
      rcases ih hc with hc | ⟨s, hs, e⟩
      · rw [Program.clauses_push, List.mem_append, List.mem_singleton] at hc
        exact hc.imp id fun e => ⟨_, List.mem_cons_self, e.symm⟩
      · exact Or.inr ⟨s, List.mem_cons_of_mem _ hs, e⟩

/-- **Every rule that says something is there afterwards, or an equivalent one.** -/
theorem covers (h : Gathers p n rs q n') {r : Rule} (hr : r ∈ rs) (hne : r.isEmpty = false) :
    ∃ d ∈ q.clauses, d ≈ r.toClause := by
  induction h with
  | nil => exact absurd hr List.not_mem_nil
  | refused refuses rest ih =>
      rcases List.mem_cons.1 hr with rfl | hr
      · rcases refuses with he | ⟨d, hd, e⟩
        · rw [he] at hne
          exact absurd hne (by simp)
        · exact ⟨d, rest.clauses_prefix.subset hd, e⟩
      · exact ih hr
  | asIs _ _ rest ih =>
      rcases List.mem_cons.1 hr with rfl | hr
      · exact ⟨r.toClause, rest.clauses_prefix.subset (by simp), Setoid.refl _⟩
      · exact ih hr
  | renumbered _ _ rest ih =>
      rcases List.mem_cons.1 hr with rfl | hr
      · exact ⟨r.toClause, rest.clauses_prefix.subset (by simp [Rule.withId]), Setoid.refl _⟩
      · exact ih hr

/-- No empty rule comes in. -/
lemma not_isEmpty (h : Gathers p n rs q n') (hp : ∀ c ∈ p.clauses, c.isEmpty = false) :
    ∀ c ∈ q.clauses, c.isEmpty = false := by
  induction h with
  | nil => exact hp
  | refused _ _ ih => exact ih hp
  | @asIs p _ _ _ r _ wanted _ _ ih =>
      refine ih fun c hc => ?_
      rw [Program.clauses_push, List.mem_append, List.mem_singleton] at hc
      rcases hc with hc | rfl
      · exact hp c hc
      · exact Bool.eq_false_iff.2 fun he => wanted (Or.inl he)
  | @renumbered p _ _ _ r _ wanted _ _ ih =>
      refine ih fun c hc => ?_
      rw [Program.clauses_push, List.mem_append, List.mem_singleton] at hc
      rcases hc with hc | rfl
      · exact hp c hc
      · exact Bool.eq_false_iff.2 fun he => wanted (Or.inl he)

/-! ### Identifiers -/

/-- **Identifiers stay distinct**, also when the gathered rules share them with each other or with
the program. -/
theorem numbered (h : Gathers p n rs q n') (hp : Numbered n p)
    (hrs : ∀ r ∈ rs, 0 < r.id ∧ r.id < n) : Numbered n' q := by
  induction h with
  | nil => exact hp
  | refused _ _ ih => exact ih hp fun s hs => hrs s (List.mem_cons_of_mem _ hs)
  | @asIs p _ n _ r _ _ free _ ih =>
      refine ih ⟨?_, ?_⟩ fun s hs => hrs s (List.mem_cons_of_mem _ hs)
      · rw [Program.ids_push]
        refine List.nodup_append.2 ⟨hp.distinct, by simp, ?_⟩
        intro a ha b hb e
        rw [List.mem_singleton.1 hb] at e
        exact free (e ▸ ha)
      · intro id hid
        rw [Program.ids_push, List.mem_append, List.mem_singleton] at hid
        rcases hid with hid | rfl
        · exact hp.taken id hid
        · exact hrs _ List.mem_cons_self
  | @renumbered p _ n _ r _ _ _ _ ih =>
      have positive := (hrs r List.mem_cons_self)
      refine ih ⟨?_, ?_⟩ fun s hs => ?_
      · rw [Program.ids_push]
        refine List.nodup_append.2 ⟨hp.distinct, by simp, ?_⟩
        intro a ha b hb e
        have := (hp.taken a ha).2
        simp only [Rule.withId, List.mem_singleton] at hb
        omega
      · intro id hid
        rw [Program.ids_push, List.mem_append, List.mem_singleton] at hid
        rcases hid with hid | rfl
        · have := hp.taken id hid
          omega
        · simp only [Rule.withId]
          omega
      · have := hrs s (List.mem_cons_of_mem _ hs)
        omega

/-- A program with distinct identifiers keeps them, if those of the gathered rules are distinct and
new to it, and then nothing is taken from the supply. -/
theorem mem_rules (h : Gathers p n rs q n') (distinct : (p.ids ++ rs.map Rule.id).Nodup) :
    n' = n ∧ q.ids.Nodup ∧ ∀ r ∈ q.rules, r ∈ p.rules ∨ r ∈ rs := by
  induction h with
  | nil => exact ⟨rfl, by simpa using distinct, fun r hr => Or.inl hr⟩
  | @refused p _ _ _ r rs _ _ ih =>
      obtain ⟨hn, hq, hmem⟩ := ih (distinct.sublist (by simp))
      exact ⟨hn, hq, fun s hs => (hmem s hs).imp id (List.mem_cons_of_mem _)⟩
  | @asIs p _ _ _ r rs _ _ _ ih =>
      obtain ⟨hn, hq, hmem⟩ := ih (by simpa using distinct)
      refine ⟨hn, hq, fun s hs => ?_⟩
      rcases hmem s hs with hs | hs
      · simp only [Program.push, List.mem_append, List.mem_singleton] at hs
        exact hs.imp id fun e => by simp [e]
      · exact Or.inr (List.mem_cons_of_mem _ hs)
  | @renumbered p _ _ _ r rs _ taken _ _ =>
      rw [List.map_cons] at distinct
      exact absurd rfl ((List.nodup_append.1 distinct).2.2 _ taken _ List.mem_cons_self)

/-- If nothing is taken from the supply, it does not matter how far the supply has come. -/
theorem unique {k k' : Nat} (h : Gathers p n rs q n') (h' : Gathers p k rs m k')
    (distinct : (p.ids ++ rs.map Rule.id).Nodup) : q = m := by
  induction h with
  | nil =>
      cases h'
      rfl
  | @refused p _ _ _ r rs refuses _ ih =>
      cases h' with
      | refused _ rest => exact ih rest (distinct.sublist (by simp))
      | asIs wanted _ _ => exact absurd refuses wanted
      | renumbered wanted _ _ => exact absurd refuses wanted
  | @asIs p _ _ _ r rs wanted free _ ih =>
      cases h' with
      | refused refuses _ => exact absurd refuses wanted
      | asIs _ _ rest => exact ih rest (by simpa using distinct)
      | renumbered _ taken _ => exact absurd taken free
  | @renumbered p _ _ _ r rs _ taken _ _ =>
      rw [List.map_cons] at distinct
      exact absurd rfl ((List.nodup_append.1 distinct).2.2 _ taken _ List.mem_cons_self)

end Gathers

/-! ## Operations that gather -/

/-- New rules say what they were made for, under identifiers that follow each other. -/
lemma mintAll_apply (label : Nat) (cs : List Clause) (g : Ledger) :
    ((mintAll label cs) g).1.map Rule.toClause = cs ∧
      (mintAll label cs g).1.map Rule.id = (List.range' g.nextId cs.length).map Int.ofNat ∧
      (mintAll label cs g).2.nextId = g.nextId + cs.length := by
  induction cs generalizing label g with
  | nil => exact ⟨rfl, rfl, rfl⟩
  | cons c cs ih =>
      obtain ⟨hc, hi, hn⟩ := ih (label + 1) { g with nextId := g.nextId + 1 }
      refine ⟨congrArg (c :: ·) hc, congrArg ((g.nextId : Int) :: ·) hi, hn.trans ?_⟩
      simp only [List.length_cons]
      omega

lemma addPossible_gathers (p : Program) (rs : List Rule) (g : Ledger) :
    Gathers p g.nextId rs (p.addPossible rs g).1 (p.addPossible rs g).2.nextId := by
  induction rs generalizing p g with
  | nil => exact .nil
  | cons r rs ih =>
      rw [Program.addPossible, Work.bind_apply]
      rcases added : (p.add r).run g with ⟨e | p₁, g₁⟩
      · exact .pass added (ih p { g₁ with journal := _ :: g₁.journal })
      · exact .take added (ih p₁ g₁)

lemma addUnrepeated_gathers (p : Program) (rs : List Rule) (g : Ledger) :
    Gathers p g.nextId rs (p.addUnrepeated rs g).1 (p.addUnrepeated rs g).2.nextId := by
  induction rs generalizing p g with
  | nil => exact .nil
  | cons r rs ih =>
      rw [Program.addUnrepeated, Work.bind_apply]
      rcases added : (p.add r).run g with ⟨e | p₁, g₁⟩
      · exact .pass added (ih p { g₁ with journal := _ :: g₁.journal })
      · exact .take added (ih p₁ g₁)

lemma ofRules_gathers (name : String) (rs : List Rule) (g : Ledger) :
    Gathers { name } g.nextId rs (Program.ofRules name rs g).1
      (Program.ofRules name rs g).2.nextId :=
  addPossible_gathers { name } rs g

lemma addAll_gathers {p q : Program} {rs : List Rule} {g g' : Ledger}
    (h : (p.addAll rs).run g = (.ok q, g')) : Gathers p g.nextId rs q g'.nextId := by
  induction rs generalizing p g with
  | nil =>
      cases h
      exact .nil
  | cons r rs ih =>
      obtain ⟨p₁, g₁, added, rest⟩ := Attempt.bind_ok h
      exact .take added (ih rest)

/-! ### Merging -/

lemma absorb_gathers {p q : Program} {source : String} {rs : List Rule} {g g' : Ledger}
    (h : (p.absorb source rs).run g = (.ok q, g')) : Gathers p g.nextId rs q g'.nextId := by
  induction rs generalizing p g with
  | nil =>
      cases h
      exact .nil
  | cons r rs ih =>
      rw [Program.absorb, Attempt.run_bind, Attempt.run_outcome] at h
      rcases added : (p.add r).run g with ⟨e | p₁, g₁⟩
      · rw [added] at h
        cases e with
        | duplicateAddition =>
            have rest : (p.absorb source rs).run (Work.note .info systemComponent
                s!"Rule '{r.text}' of '{source}' already present, skipped" g₁).2 = (.ok q, g') := h
            have gathered := ih rest
            exact .pass added gathered
        | _ => cases h
      · rw [added] at h
        exact .take added (ih h)

lemma mergeInto_gathers {p m : Program} {qs : List Program} {g g' : Ledger}
    (h : (p.mergeInto qs).run g = (.ok m, g')) :
    Gathers p g.nextId (qs.flatMap Program.rules) m g'.nextId := by
  induction qs generalizing p g with
  | nil =>
      cases h
      exact .nil
  | cons q qs ih =>
      obtain ⟨p₁, g₁, absorbed, rest⟩ := Attempt.bind_ok h
      rw [List.flatMap_cons]
      exact (absorb_gathers absorbed).append (ih rest)

/-- A program absorbs all rules that say something. -/
lemma absorb_total (p : Program) (source : String) (rs : List Rule) (g : Ledger)
    (hrs : ∀ r ∈ rs, r.isEmpty = false) : ∃ q g', (p.absorb source rs).run g = (.ok q, g') := by
  induction rs generalizing p g with
  | nil => exact ⟨p, g, rfl⟩
  | cons r rs ih =>
      obtain ⟨first, rest⟩ := List.forall_mem_cons.1 hrs
      rw [Program.absorb, Attempt.run_bind, Attempt.run_outcome]
      rcases added : (p.add r).run g with ⟨e | p₁, g₁⟩
      · -- what says something is refused only as a repetition, which is skipped
        obtain ⟨-, fault, -⟩ := Program.add_error added
        obtain ⟨c, name, id, rfl⟩ := Program.additionFault?_of_not_isEmpty first fault
        exact ih p (Work.note .info systemComponent
          s!"Rule '{r.text}' of '{source}' already present, skipped" g₁).2 rest
      · exact ih p₁ g₁ rest

lemma mergeInto_total (p : Program) (qs : List Program) (g : Ledger)
    (hqs : ∀ q ∈ qs, ∀ r ∈ q.rules, r.isEmpty = false) :
    ∃ m g', (p.mergeInto qs).run g = (.ok m, g') := by
  induction qs generalizing p g with
  | nil => exact ⟨p, g, rfl⟩
  | cons q qs ih =>
      obtain ⟨first, rest⟩ := List.forall_mem_cons.1 hqs
      obtain ⟨p₁, g₁, absorbed⟩ := absorb_total p q.name q.rules g first
      rw [Program.mergeInto, Attempt.run_bind, absorbed]
      exact ih p₁ g₁ rest

/-- **Programs without empty rules can be merged**, and merging them is gathering what follows the
first of them. -/
theorem merge_gathers (p : Program) (qs : List Program) (name : Option String) (g : Ledger)
    (hqs : ∀ q ∈ qs, ∀ r ∈ q.rules, r.isEmpty = false) :
    ∃ m g', (Program.merge (p :: qs) name).run g = (.ok m, g') ∧
      Gathers (p.renamed (name.getD p.name)) g.nextId (qs.flatMap Program.rules) m g'.nextId := by
  obtain ⟨m, g', run⟩ := mergeInto_total (p.renamed (name.getD p.name)) qs g hqs
  exact ⟨m, g', run, mergeInto_gathers run⟩

end CausalUpdate
