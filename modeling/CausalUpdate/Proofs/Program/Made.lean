import CausalUpdate.Proofs.Program.Reading
import CausalUpdate.Proofs.Program.Replacing
import CausalUpdate.Proofs.Supply

/-!
# Programs that are made

A program is made from nothing, from rules or from a text, and then edited, labelled, named and
merged in any order.  The rules that come in may be anything, as long as their identifiers have been
taken from the supply: they may share identifiers, repeat each other and be empty.  Every operation
checks for itself what it needs, and together they keep the program *proper*.

* `Program.Proper` — programs with distinct identifiers, without repetitions and empty rules.
* `Made` — programs that come out of some operations, one after the other.
* `made_proper` — programs that are made are proper, and when editing them fails.
-/

namespace CausalUpdate

namespace Program

/-! ## Well-formed programs -/

/-- The rules of the program have distinct identifiers from the supply, of which `next` comes next,
no two of them are equivalent, and none of them is empty. -/
structure Proper (next : Nat) (p : Program) : Prop where
  numbered : Numbered next p
  unrepeated : p.Unrepeated
  nonempty : ∀ c ∈ p.clauses, c.isEmpty = false

/-- The identifier of the rule has been taken from the supply, of which `next` comes next. -/
def Taken (next : Nat) (r : Rule) : Prop :=
  0 < r.id ∧ r.id < next

instance (next : Nat) (r : Rule) : Decidable (Taken next r) :=
  inferInstanceAs (Decidable (_ ∧ _))

namespace Proper

variable {next next' : Nat} {p q : Program} {v : Rule}

lemma empty (next : Nat) (name : String) : Proper next { name } :=
  ⟨⟨List.nodup_nil, fun _ h => absurd h List.not_mem_nil⟩, .nil,
    fun _ h => absurd h List.not_mem_nil⟩

lemma mono (h : Proper next p) (le : next ≤ next') : Proper next' p :=
  ⟨h.numbered.mono le, h.unrepeated, h.nonempty⟩

/-- Rules can be gathered into a proper program, whatever they say. -/
lemma gathers {rs : List Rule} (h : Proper next p) (gathers : Gathers p next rs q next')
    (taken : ∀ r ∈ rs, Taken next r) : Proper next' q :=
  ⟨gathers.numbered h.numbered taken, gathers.unrepeated h.unrepeated,
    gathers.not_isEmpty h.nonempty⟩

/-- Some of the rules form a proper program as well. -/
lemma sublist (h : Proper next p) (sub : q.rules.Sublist p.rules) : Proper next q where
  numbered := ⟨h.numbered.distinct.sublist (sub.map Rule.id),
    fun id hid => h.numbered.taken id ((sub.map Rule.id).subset hid)⟩
  unrepeated := h.unrepeated.sublist (sub.map Rule.toClause)
  nonempty c hc := h.nonempty c ((sub.map Rule.toClause).subset hc)

/-- Neither the labels nor the name matter. -/
lemma sameRules (h : Proper next p) (same : SameRules q p) : Proper next q := by
  obtain ⟨⟨distinct, taken⟩, unrepeated, nonempty⟩ := h
  refine ⟨⟨?_, ?_⟩, ?_, ?_⟩
  · rwa [same.ids_eq]
  · rwa [same.ids_eq]
  · rwa [Unrepeated, same.clauses_eq]
  · rwa [same.clauses_eq]

/-- A rule can give way to a version that says something and repeats nothing. -/
lemma updated (h : Proper next p) (nonempty : v.isEmpty = false) (fresh : ¬ p.Repeats v) :
    Proper next (p.updated [v]) where
  numbered := by
    refine ⟨?_, ?_⟩
    · rw [ids_updated]
      exact h.numbered.distinct
    · rw [ids_updated]
      exact h.numbered.taken
  unrepeated := by
    refine h.unrepeated.updated h.numbered.distinct (List.pairwise_singleton _ _) fun w hw _ => ?_
    rwa [List.mem_singleton.1 hw]
  nonempty c hc := by
    obtain ⟨r', hr', rfl⟩ := List.mem_map.1 hc
    obtain ⟨r, hr, rfl⟩ := List.mem_map.1 hr'
    rcases Rule.updated_cases [v] r with ⟨e, -⟩ | ⟨inside, -⟩
    · rw [e]
      exact h.nonempty _ (List.mem_map_of_mem hr)
    · rwa [List.mem_singleton.1 inside]

end Proper

/-! ## When editing fails -/

variable {p q : Program} {r v : Rule}

/-- **An addition fails on an empty rule and on a repetition**, and on nothing else. -/
theorem add_fails_iff (p : Program) (r : Rule) (g : Ledger) :
    (∃ e g', (p.add r).run g = (.error e, g')) ↔
      r.isEmpty ∨ ∃ s ∈ p.rules, s.toClause ≈ r.toClause := by
  have refuses : p.Refuses r.toClause ↔ r.isEmpty ∨ ∃ s ∈ p.rules, s.toClause ≈ r.toClause := by
    simp [Refuses, clauses]
  rw [← refuses]
  constructor
  · rintro ⟨e, g', run⟩
    exact (add_error run).1
  · intro refused
    obtain ⟨e, -, run⟩ := add_refused refused g
    exact ⟨e, g, run⟩

lemma modificationFault?_eq_none : p.modificationFault? v = none ↔
    v.isEmpty = false ∧ v.id ∈ p.ids ∧ ¬ p.Repeats v := by
  unfold modificationFault? Repeats
  cases v.isEmpty with
  | true => simp
  | false =>
      by_cases held : v.id ∈ p.ids
      · simp [held, List.find?_eq_none]
      · simp [held]

/-- **A modification fails on an empty rule, on an identifier that no rule has, and on a repetition
of another rule**, and on nothing else. -/
theorem modify_fails_iff (p : Program) (v : Rule) :
    (∃ e, p.modify v = .error e) ↔ v.isEmpty ∨ v.id ∉ p.ids ∨ p.Repeats v := by
  have faultless : p.modificationFault? v = none ↔
      ¬ (v.isEmpty ∨ v.id ∉ p.ids ∨ p.Repeats v) := by
    rw [modificationFault?_eq_none]
    simp
  rw [modify]
  cases fault : p.modificationFault? v with
  | none =>
      refine iff_of_false ?_ (faultless.1 fault)
      rintro ⟨e, h⟩
      cases h
  | some e =>
      refine iff_of_true ⟨e, rfl⟩ ?_
      by_contra sound
      rw [faultless.2 sound] at fault
      cases fault

/-- What a modification leaves, when it succeeds. -/
lemma modify_ok (h : p.modify v = .ok q) : (v.isEmpty = false ∧ v.id ∈ p.ids ∧ ¬ p.Repeats v) ∧
    q = { p with rules := p.rules.set ((p.position? v.id).getD p.size) v } := by
  rw [modify] at h
  cases fault : p.modificationFault? v with
  | none =>
      rw [fault] at h
      cases h
      exact ⟨modificationFault?_eq_none.1 fault, rfl⟩
  | some e =>
      rw [fault] at h
      cases h

/-- The place of a rule splits the program. -/
lemma split_of_position? {id : Int} {i : Nat} (h : p.position? id = some i) :
    ∃ bound : i < p.rules.length, p.rules[i].id = id ∧
      p.rules = p.rules.take i ++ p.rules[i] :: p.rules.drop (i + 1) := by
  obtain ⟨bound, same, -⟩ := List.findIdx?_eq_some_iff_getElem.1 h
  refine ⟨bound, by simpa using same, ?_⟩
  rw [List.getElem_cons_drop, List.take_append_drop]

/-- **A modification puts the new version in the place of the first rule with its identifier** and
keeps everything around it. -/
theorem modify_in_place (h : p.modify v = .ok q) : ∃ before old after,
    p.rules = before ++ old :: after ∧ old.id = v.id ∧
      q = { p with rules := before ++ v :: after } := by
  obtain ⟨⟨-, held, -⟩, rfl⟩ := modify_ok h
  obtain ⟨old, hold, e⟩ := List.mem_map.1 held
  cases found : p.position? v.id with
  | none =>
      rw [position?, List.findIdx?_eq_none_iff] at found
      exact absurd e (by simpa using found old hold)
  | some i =>
      obtain ⟨bound, same, split⟩ := split_of_position? found
      refine ⟨p.rules.take i, p.rules[i], p.rules.drop (i + 1), split, same, ?_⟩
      rw [Option.getD_some, List.set_eq_take_append_cons_drop, if_pos bound]

/-- **An erasure takes out the first rule with the identifier** and keeps everything around it. -/
theorem erase_in_place {id : Int} (h : p.erase id = .ok q) : ∃ before old after,
    p.rules = before ++ old :: after ∧ old.id = id ∧
      q = { p with rules := before ++ after } := by
  unfold erase at h
  split at h
  · cases h
  · rename_i i found
    cases h
    obtain ⟨bound, same, split⟩ := split_of_position? found
    refine ⟨p.rules.take i, p.rules[i], p.rules.drop (i + 1), split, same, ?_⟩
    rw [List.eraseIdx_eq_take_drop_succ]

lemma erase_sublist {id : Int} (h : p.erase id = .ok q) : q.rules.Sublist p.rules := by
  obtain ⟨before, old, after, split, -, rfl⟩ := erase_in_place h
  rw [split]
  exact (List.Sublist.refl _).append (List.sublist_cons_self _ _)

end Program

open Program (Taken Proper)

variable {next : Nat} {p : Program}

/-! ## Making programs -/

/-- The program comes out of some operations, and `next` is the identifier that the supply hands out
next.  Rules that come in have taken their identifiers before.  When programs are merged, the ones
after the first may hold any rules. -/
inductive Made : Nat → Program → Prop
  | empty (next : Nat) (name : String) : Made next { name }
  | ofRules {name : String} {rs : List Rule} {g : Ledger} (taken : ∀ r ∈ rs, Taken g.nextId r) :
      Made (Program.ofRules name rs g).2.nextId (Program.ofRules name rs g).1
  | parse {text : Option String} {name : String} {g g' : Ledger} {p : Program}
      (begun : 0 < g.nextId) (run : (Program.parse text name).run g = (.ok p, g')) :
      Made g'.nextId p
  /-- Identifiers are taken for something else. -/
  | later {next next' : Nat} {p : Program} (made : Made next p) (le : next ≤ next') :
      Made next' p
  | add {g g' : Ledger} {p q : Program} {r : Rule} (made : Made g.nextId p)
      (taken : Taken g.nextId r) (run : (p.add r).run g = (.ok q, g')) : Made g'.nextId q
  | addAll {g g' : Ledger} {p q : Program} {rs : List Rule} (made : Made g.nextId p)
      (taken : ∀ r ∈ rs, Taken g.nextId r) (run : (p.addAll rs).run g = (.ok q, g')) :
      Made g'.nextId q
  | modify {next : Nat} {p q : Program} {v : Rule} (made : Made next p)
      (done : p.modify v = .ok q) : Made next q
  | erase {next : Nat} {p q : Program} {id : Int} (made : Made next p)
      (done : p.erase id = .ok q) : Made next q
  | relabelled {next : Nat} {p : Program} (start : Int) (reserved : List Rule)
      (made : Made next p) : Made next (p.relabelled start reserved)
  | renamed {next : Nat} {p : Program} (name : String) (made : Made next p) :
      Made next (p.renamed name)
  | merge {g g' : Ledger} {p m : Program} {qs : List Program} {name : Option String}
      (made : Made g.nextId p) (taken : ∀ r ∈ rulesOf qs, Taken g.nextId r)
      (run : (Program.merge (p :: qs) name).run g = (.ok m, g')) : Made g'.nextId m

/-- One case for each operation: most of them gather rules, and the others keep some of the rules or
replace one of them. -/
lemma Made.proper (h : Made next p) : Proper next p := by
  induction h with
  | empty next name => exact .empty next name
  | ofRules taken => exact (Proper.empty _ _).gathers (ofRules_gathers _ _ _) taken
  | parse begun run =>
      obtain ⟨distinct, unrepeated, good⟩ := rules_of_parse run
      refine ⟨⟨distinct, fun id hid => ?_⟩, unrepeated, fun c hc => ?_⟩
      · obtain ⟨r, hr, rfl⟩ := List.mem_map.1 hid
        have bounds := (good r hr).1
        omega
      · obtain ⟨r, hr, rfl⟩ := List.mem_map.1 hc
        exact (good r hr).2.1
  | later _ le ih => exact ih.mono le
  | @add g g' p q r _ taken run ih =>
      have all : (p.addAll [r]).run g = (.ok q, g') := by
        rw [Program.addAll, Attempt.run_bind, run]
        rfl
      exact ih.gathers (addAll_gathers all) (by simpa using taken)
  | addAll _ taken run ih => exact ih.gathers (addAll_gathers run) taken
  | @modify next p q v _ done ih =>
      obtain ⟨⟨nonempty, held, fresh⟩, rfl⟩ := Program.modify_ok done
      rw [Program.set_position?_eq ih.numbered.distinct held]
      exact ih.updated nonempty fresh
  | erase _ done ih => exact ih.sublist (Program.erase_sublist done)
  | relabelled start reserved _ ih => exact ih.sameRules (sameRules_relabelled _ _ _)
  | renamed name _ ih => exact ih.sameRules rfl
  | @merge g g' p m qs name _ taken run ih =>
      have first : Proper g.nextId (p.renamed (name.getD p.name)) := ih.sameRules rfl
      exact first.gathers (mergeInto_gathers run) taken

/-- **Programs that are made are proper**: their rules have distinct identifiers, no two of
them are equivalent, and none of them is empty.  A modification keeps the number of the rules, the
place of the rule that it changes, and all other rules.  An addition fails exactly if the rule is
empty or equivalent to one of the rules, and a modification exactly if the rule is empty, no rule
has its identifier, or it is equivalent to a rule with another identifier. -/
theorem made_proper (made : Made next p) :
    p.ids.Nodup ∧ (p.rules.Pairwise fun q r => ¬ q.toClause ≈ r.toClause) ∧
      (∀ r ∈ p.rules, r.isEmpty = false) ∧
      (∀ v q, p.modify v = .ok q → ∃ before old after, p.rules = before ++ old :: after ∧
        old.id = v.id ∧ q = { p with rules := before ++ v :: after }) ∧
      (∀ r g, (∃ e g', (p.add r).run g = (.error e, g')) ↔
        r.isEmpty ∨ ∃ s ∈ p.rules, s.toClause ≈ r.toClause) ∧
      ∀ v, (∃ e, p.modify v = .error e) ↔
        v.isEmpty ∨ v.id ∉ p.ids ∨ ∃ s ∈ p.rules, s.id ≠ v.id ∧ s.toClause ≈ v.toClause := by
  have shape := made.proper
  exact ⟨shape.numbered.distinct, Program.unrepeated_iff.1 shape.unrepeated,
    fun r hr => shape.nonempty _ (List.mem_map_of_mem hr), fun _ _ => Program.modify_in_place,
    p.add_fails_iff, p.modify_fails_iff⟩

/-- A program from a repeated rule, an empty one and two rules with the same identifier; then the
rule that got a new identifier is modified. -/
theorem made_proper_example :
    let a : Literal := ⟨⟨"a", []⟩, false⟩
    let b : Literal := ⟨⟨"b", []⟩, false⟩
    let c : Literal := ⟨⟨"c", []⟩, false⟩
    let rs : List Rule := [{ head := a, id := 1 }, { head := a, id := 2 }, { head := b, id := 1 },
      { id := 3 }]
    let p : Program := { rules := [{ head := a, id := 1 }, { head := c, id := 4 }] }
    (∃ q, (Program.ofRules "program" rs { nextId := 4 }).1 = q ∧
        q.modify { head := c, id := 4 } = .ok p) ∧ Made 5 p ∧
      p.ids.Nodup ∧ (p.rules.Pairwise fun q r => ¬ q.toClause ≈ r.toClause) ∧
      (∀ r ∈ p.rules, r.isEmpty = false) ∧
      (∀ v q, p.modify v = .ok q → ∃ before old after, p.rules = before ++ old :: after ∧
        old.id = v.id ∧ q = { p with rules := before ++ v :: after }) ∧
      (∀ r g, (∃ e g', (p.add r).run g = (.error e, g')) ↔
        r.isEmpty ∨ ∃ s ∈ p.rules, s.toClause ≈ r.toClause) ∧
      ∀ v, (∃ e, p.modify v = .error e) ↔
        v.isEmpty ∨ v.id ∉ p.ids ∨ ∃ s ∈ p.rules, s.id ≠ v.id ∧ s.toClause ≈ v.toClause := by
  intro a b c rs p
  have first : Made (Program.ofRules "program" rs { nextId := 4 }).2.nextId
      (Program.ofRules "program" rs { nextId := 4 }).1 :=
    .ofRules (by decide)
  have next : (Program.ofRules "program" rs { nextId := 4 }).2.nextId = 5 := by decide +kernel
  have done : (Program.ofRules "program" rs { nextId := 4 }).1.modify { head := c, id := 4 } =
      .ok p := by
    decide +kernel
  rw [next] at first
  have made : Made 5 p := .modify first done
  exact ⟨⟨_, rfl, done⟩, made, made_proper made⟩

end CausalUpdate
