import CausalUpdate.Proofs.Program.Live

/-!
# Programs that are read

Every literal of a program that was read from a text can be written again, no rule of it is empty,
and its identifiers come from the supply, one for every rule.  Programs that share no identifier and
use no reserved predicate can therefore be put to work.

* `Program.writable_of_parse` — what is read can be written.
* `IsRead` — programs that were read, possibly under other labels since.
* `orderly_of_isRead`, `live_of_isRead` — what holds of them.
-/

namespace CausalUpdate

/-! ## Clauses -/

lemma readable_of_parseHead {statement cs : List Char} {h : Option Literal}
    (parsed : parseHead statement cs = .ok h) : ∀ l ∈ h.toList, l.Readable := by
  unfold parseHead at parsed
  split at parsed
  · cases parsed
    exact fun l hl => absurd hl List.not_mem_nil
  · split at parsed
    · cases parsed
    · split at parsed
      · cases parsed
      · split at parsed
        · cases parsed
        · cases read : Literal.parse cs with
          | error e =>
              rw [read] at parsed
              cases parsed
          | ok l =>
              rw [read] at parsed
              cases parsed
              intro m hm
              obtain rfl : m = l := by simpa using hm
              exact Literal.readable_of_parse read

lemma readable_of_parseItems {items : List (List Char)} {bodies : List Literal × List Literal}
    (parsed : parseItems items = .ok bodies) : ∀ l ∈ bodies.1 ++ bodies.2, l.Readable := by
  induction items generalizing bodies with
  | nil =>
      cases parsed
      exact fun l hl => absurd hl List.not_mem_nil
  | cons item items ih =>
      rw [parseItems] at parsed
      split at parsed
      · obtain ⟨l, read, rest⟩ := Except.bind_ok parsed
        obtain ⟨others, readOthers, rest⟩ := Except.bind_ok rest
        cases rest
        intro m hm
        rw [List.mem_append, List.mem_cons] at hm
        rcases hm with hm | rfl | hm
        · exact ih readOthers m (List.mem_append_left _ hm)
        · exact Literal.readable_of_parse read
        · exact ih readOthers m (List.mem_append_right _ hm)
      · obtain ⟨l, read, rest⟩ := Except.bind_ok parsed
        obtain ⟨others, readOthers, rest⟩ := Except.bind_ok rest
        cases rest
        intro m hm
        rw [List.cons_append, List.mem_cons] at hm
        rcases hm with rfl | hm
        · exact Literal.readable_of_parse read
        · exact ih readOthers m hm

lemma readable_of_parseBody {statement cs : List Char} {bodies : List Literal × List Literal}
    (parsed : parseBody statement cs = .ok bodies) : ∀ l ∈ bodies.1 ++ bodies.2, l.Readable := by
  unfold parseBody at parsed
  split at parsed
  · cases parsed
  · split at parsed
    · cases parsed
    · exact readable_of_parseItems parsed

/-- A clause that is read has literals that can be written. -/
lemma Clause.readable_of_parse {cs : List Char} {c : Clause} (parsed : Clause.parse cs = .ok c) :
    ∀ l ∈ c.literals, l.Readable := by
  unfold Clause.parse at parsed
  simp only at parsed
  split at parsed
  · obtain ⟨h, head, rest⟩ := Except.bind_ok parsed
    split at rest
    · cases rest
    · cases rest
      intro l hl
      exact readable_of_parseHead head l (by simpa [Clause.literals, Clause.completeBody] using hl)
  · obtain ⟨h, head, rest⟩ := Except.bind_ok parsed
    obtain ⟨bodies, body, rest⟩ := Except.bind_ok rest
    cases rest
    intro l hl
    rcases List.mem_append.1 hl with hl | hl
    · exact readable_of_parseHead head l hl
    · exact readable_of_parseBody body l hl
  · cases parsed

lemma readable_of_readStatements {ss : List (List Char)} {c : Clause}
    (hc : c ∈ (readStatements ss).1) : ∀ l ∈ c.literals, l.Readable := by
  induction ss with
  | nil => exact absurd hc List.not_mem_nil
  | cons s ss ih =>
      rw [readStatements] at hc
      split at hc
      · exact absurd hc List.not_mem_nil
      · rename_i parsed
        rcases List.mem_cons.1 hc with rfl | hc
        · exact Clause.readable_of_parse parsed
        · exact ih hc

lemma readable_of_readClauses {text : List Char} {c : Clause} (hc : c ∈ (readClauses text).1) :
    ∀ l ∈ c.literals, l.Readable := by
  unfold readClauses at hc
  simp only at hc
  split at hc
  · exact readable_of_readStatements hc
  · exact absurd hc List.not_mem_nil

/-! ## Programs -/

lemma parseRules_ok {text : String} {rs : List Rule} {g g' : Ledger}
    (run : (parseRules text).run g = (.ok rs, g')) :
    mintAll 0 (readClauses text.toList).1 g = (rs, g') := by
  obtain ⟨rules, g₁, minted, rest⟩ := Attempt.bind_ok run
  have minted : (Except.ok (mintAll 0 (readClauses text.toList).1 g).1,
      (mintAll 0 (readClauses text.toList).1 g).2) = (Except.ok rules, g₁) := minted
  rw [Prod.mk.injEq, Except.ok.injEq] at minted
  split at rest
  · cases rest
  · cases rest
    exact Prod.ext minted.1 minted.2

/-- Reading a program is reading clauses, numbering them and gathering the rules. -/
lemma parse_gathers {text : Option String} {name : String} {p : Program} {g g' : Ledger}
    (run : (Program.parse text name).run g = (.ok p, g')) :
    ∃ (t : String) (rs : List Rule) (g₁ : Ledger),
      mintAll 0 (readClauses t.toList).1 g = (rs, g₁) ∧
        Gathers { name } g₁.nextId rs p g'.nextId := by
  unfold Program.parse at run
  split at run
  · cases run
  · rename_i t
    split at run
    · cases run
    · obtain ⟨rs, g₁, parsed, rest⟩ := Attempt.bind_ok run
      split at rest
      · cases rest
      · have gathered : (Except.ok (Program.addUnrepeated { name } rs g₁).1,
            (Program.addUnrepeated { name } rs g₁).2) = (Except.ok p, g') := rest
        rw [Prod.mk.injEq, Except.ok.injEq] at gathered
        refine ⟨t, rs, g₁, parseRules_ok parsed, ?_⟩
        rw [← gathered.1, ← gathered.2]
        exact addUnrepeated_gathers { name } rs g₁

/-! ## Labels -/

/-- The programs have the same rules in the same order, possibly under other labels. -/
def SameRules (p q : Program) : Prop :=
  (p.rules.map fun r => r.withLabel 0) = q.rules.map fun r => r.withLabel 0

section

variable {p q : Program} {r : Rule}

lemma SameRules.ids_eq (h : SameRules p q) : p.ids = q.ids := by
  have ids := congrArg (List.map Rule.id) h
  simpa [Program.ids, Rule.withLabel, Function.comp_def] using ids

lemma SameRules.clauses_eq (h : SameRules p q) : p.clauses = q.clauses := by
  have clauses := congrArg (List.map Rule.toClause) h
  simpa [Program.clauses, Rule.withLabel, Function.comp_def] using clauses

lemma SameRules.exists_rule (h : SameRules p q) (hr : r ∈ p.rules) :
    ∃ s ∈ q.rules, s.id = r.id ∧ s.toClause = r.toClause := by
  have there : r.withLabel 0 ∈ q.rules.map fun r => r.withLabel 0 := by
    rw [← show _ = _ from h]
    exact List.mem_map_of_mem hr
  obtain ⟨s, hs, e⟩ := List.mem_map.1 there
  have id : s.id = r.id := congrArg (·.id) e
  have clause : s.toClause = r.toClause := congrArg (·.toClause) e
  exact ⟨s, hs, id, clause⟩

lemma sameRules_relabelled (p : Program) (start : Int) (reserved : List Rule) :
    SameRules (p.relabelled start reserved) p := by
  have same : ∀ (taken : List Int) (start : Int) (rs : List Rule),
      ((relabel taken start rs).map fun r => r.withLabel 0) = rs.map fun r => r.withLabel 0 := by
    intro taken start rs
    induction rs generalizing taken start with
    | nil => rfl
    | cons r rs ih =>
        rw [relabel, List.map_cons, List.map_cons, ih]
        rfl
  exact same _ _ _

end

/-! ## Programs that were read -/

/-- The program was read from a text, when the supply had begun and did not go beyond `next`.  It
may have got other labels since. -/
def IsRead (next : Nat) (p : Program) : Prop :=
  ∃ text name q g g', (Program.parse text name).run g = (.ok q, g') ∧ 0 < g.nextId ∧
    g'.nextId ≤ next ∧ SameRules p q

/-- What holds of the rules of a program as it is read.  Their identifiers are those that have just
been taken from the supply. -/
lemma rules_of_parse {text : Option String} {name : String} {p : Program} {g g' : Ledger}
    (run : (Program.parse text name).run g = (.ok p, g')) : p.ids.Nodup ∧ p.Unrepeated ∧
      ∀ r ∈ p.rules, (g.nextId ≤ r.id ∧ r.id < g'.nextId) ∧ r.isEmpty = false ∧
        ∀ l ∈ r.literals, l.Readable := by
  obtain ⟨t, rs, g₁, minted, gathers⟩ := parse_gathers run
  have numbers := mintAll_apply 0 (readClauses t.toList).1 g
  rw [minted] at numbers
  obtain ⟨clauses, ids, (next_eq : g₁.nextId = _)⟩ := numbers
  have nodup : (rs.map Rule.id).Nodup := by
    rw [ids]
    exact List.Nodup.map (fun _ _ => Int.ofNat_inj.1) (List.nodup_range' _)
  obtain ⟨n, distinct, rules⟩ := gathers.mem_rules (by simpa [Program.ids] using nodup)
  have nonempty := gathers.not_isEmpty fun c hc => absurd hc List.not_mem_nil
  refine ⟨distinct, gathers.unrepeated .nil, fun r hr => ?_⟩
  have inside := (rules r hr).resolve_left List.not_mem_nil
  have number : r.id ∈ (List.range' g.nextId (readClauses t.toList).1.length).map Int.ofNat :=
    ids ▸ List.mem_map_of_mem inside
  have clause : r.toClause ∈ (readClauses t.toList).1 := clauses ▸ List.mem_map_of_mem inside
  obtain ⟨k, hk, e⟩ := List.mem_map.1 number
  rw [List.mem_range'_1] at hk
  have e : (k : Int) = r.id := e
  exact ⟨by omega, nonempty _ (List.mem_map_of_mem hr), readable_of_readClauses clause⟩

/-- **A program that is read can be written and read again.** -/
theorem Program.writable_of_parse {text : Option String} {name : String} {p : Program}
    {g g' : Ledger} (run : (Program.parse text name).run g = (.ok p, g')) : p.Writable := by
  intro r hr
  obtain ⟨⟨taken, -⟩, -, readable⟩ := (rules_of_parse run).2.2 r hr
  exact ⟨by omega, readable⟩

/-- The program says what has been read from a text.  Its rules may have got other labels and other
identifiers since, but these are positive. -/
def Program.FromText (p : Program) : Prop :=
  (∃ text name q g g', (Program.parse text name).run g = (.ok q, g') ∧ p.clauses = q.clauses) ∧
    ∀ r ∈ p.rules, 0 < r.id

lemma Program.FromText.writable {p : Program} (h : p.FromText) : p.Writable := by
  obtain ⟨⟨text, name, q, g, g', run, clauses⟩, positive⟩ := h
  intro r hr
  have said : r.toClause ∈ q.clauses := clauses ▸ List.mem_map_of_mem hr
  obtain ⟨s, hs, e⟩ := List.mem_map.1 said
  refine ⟨Int.le_of_lt (positive r hr), ?_⟩
  rw [← e]
  exact (Program.writable_of_parse run s hs).2

/-- What holds of the rules of a program that was read. -/
lemma IsRead.rules {next : Nat} {p : Program} (h : IsRead next p) : p.ids.Nodup ∧ p.Unrepeated ∧
    ∀ r ∈ p.rules, 0 < r.id ∧ r.id < next ∧ r.isEmpty = false ∧ ∀ l ∈ r.literals, l.Readable := by
  obtain ⟨text, name, q, g, g', run, begun, done, same⟩ := h
  obtain ⟨distinct, unrepeated, good⟩ := rules_of_parse run
  refine ⟨same.ids_eq ▸ distinct, ?_, fun r hr => ?_⟩
  · rwa [Program.Unrepeated, same.clauses_eq]
  · obtain ⟨s, hs, id, clause⟩ := same.exists_rule hr
    obtain ⟨taken, filled⟩ := good s hs
    rw [← id, ← clause]
    exact ⟨by omega, by omega, filled⟩

/-- **Programs that were read are orderly**, if they share no identifier. -/
theorem orderly_of_isRead {next : Nat} {ps : List Program} (read : ∀ p ∈ ps, IsRead next p)
    (disjoint : ps.Pairwise fun p q => p.ids.Disjoint q.ids) : Orderly next ps := by
  have rules : ∀ r ∈ rulesOf ps, 0 < r.id ∧ r.id < next ∧ r.isEmpty = false := by
    intro r hr
    obtain ⟨p, hp, hr⟩ := mem_rulesOf.1 hr
    obtain ⟨positive, taken, nonempty, -⟩ := (read p hp).rules.2.2 r hr
    exact ⟨positive, taken, nonempty⟩
  refine ⟨?_, fun r hr => ⟨(rules r hr).1, (rules r hr).2.1⟩, fun r hr => (rules r hr).2.2,
    fun p hp => (read p hp).rules.2.1⟩
  rw [rulesOf, List.map_flatMap]
  exact List.nodup_flatMap.2 ⟨fun p hp => (read p hp).rules.1, disjoint⟩

/-- **Programs that were read can be put to work**, if they share no identifier and use no reserved
predicate. -/
theorem live_of_isRead {mark : Mark} {next : Nat} {ps : List Program}
    (read : ∀ p ∈ ps, IsRead next p) (disjoint : ps.Pairwise fun p q => p.ids.Disjoint q.ids)
    (unreserved : ∀ l ∈ mentioned ps, l.atom.predicate ∉ mark.reservedPredicates) :
    Live mark next ps := by
  refine ⟨orderly_of_isRead read disjoint, fun l hl => ?_, unreserved⟩
  obtain ⟨p, hp, r, hr, hl⟩ := mem_mentioned.1 hl
  exact ((read p hp).rules.2.2 r hr).2.2.2 l hl

end CausalUpdate
