import CausalUpdate.Proofs.Program.Labels
import CausalUpdate.Proofs.UpdateSequence.Desk

/-!
# Labels in a session

Programs come in under labels that no rule of the sequence has, and versions keep the labels of
their rules.  The label of a new rule is free where the programs are seen as one, at the time when
the rule is offered.  What comes in later is missed there, and so is a rule that says what another
one says.  Taking the new rule keeps labels distinct unless a rule that was missed has its label.

* `Missed`, `Avoids` — labels that can be overlooked.
* `Desk.Continues`, `Desk.Labelled` — how a session goes on where they are avoided, and what holds
  all along.
* `Desk.labels_distinct` — what this means for labels.
-/

namespace CausalUpdate

/-! ## Overlooked labels -/

/-- The rule was not there when the programs were seen as one, or another rule said the same. -/
def Missed (seen : List Program) (q : Rule) : Prop :=
  q ∉ rulesOf seen ∨ ∃ r ∈ rulesOf seen, r ≠ q ∧ r.toClause ≈ q.toClause

instance (seen : List Program) (q : Rule) : Decidable (Missed seen q) :=
  inferInstanceAs (Decidable (_ ∨ ∃ r ∈ rulesOf seen, _))

/-- No rule that was missed has the label of a rule that the solution adds. -/
def Avoids (seen ps : List Program) (sol : Solution) : Prop :=
  ∀ r ∈ sol.additions, ∀ q ∈ rulesOf ps, Missed seen q → q.label ≠ r.label

instance (seen ps : List Program) (sol : Solution) : Decidable (Avoids seen ps sol) :=
  inferInstanceAs (Decidable (∀ r ∈ sol.additions, ∀ q ∈ rulesOf ps, Missed seen q → _))

lemma Merged.mem_of_not_missed {ps : List Program} {m : Program} {q : Rule} (h : Merged ps m)
    (noticed : ¬ Missed ps q) : q ∈ m.rules := by
  obtain ⟨there, alone⟩ := not_or.1 noticed
  obtain ⟨r, hr, e⟩ := h.covers q (not_not.1 there)
  have same : r = q := by_contra fun ne => alone ⟨r, h.there r hr, ne, e⟩
  exact same ▸ hr

/-- A new rule has the label of no rule that is noticed. -/
lemma Minted.label_ne {low : Nat} {ps : List Program} {q r : Rule} (h : Minted low ps r)
    (noticed : ¬ Missed ps q) : q.label ≠ r.label := by
  obtain ⟨m, merge, label⟩ := h.label
  have inside : q.label ∈ m.rules.map Rule.label :=
    List.mem_map_of_mem (merge.mem_of_not_missed noticed)
  rw [label]
  exact fun e => nextFreeLabel_not_mem _ _ (e ▸ inside)

/-- A suitable solution adds no more than one rule. -/
lemma Suits.nodup_labels_additions {kind : Rule → Clause → Rule → Prop} {next : Nat}
    {ps : List Program} {sol : Solution} (h : Suits kind next ps sol) :
    (sol.additions.map Rule.label).Nodup := by
  cases h with
  | excludes versions => simp [versions.versions.additions]
  | adds addition => simp [addition.additions]

/-- A new rule that is offered has the label of no rule that is noticed among the programs. -/
def Spares (seen : List Program) (c : Conflict) : Prop :=
  ∀ sol ∈ c.solutions, ∀ r ∈ sol.additions, ∀ q, ¬ Missed seen q → q.label ≠ r.label

namespace UpdateSequence

variable {u u' : UpdateSequence} {s t : Solver} {g g' : Ledger} {o : Except UpdateError Detection}

lemma Detected.spares {high : Nat} (h : Detected u s g high o u')
    (orderly : Orderly g.nextId u.programs) : ∀ c ∈ reports o, Spares u'.programs c := by
  rw [h.programs_eq]
  exact fun c hc sol hs r hr q noticed => (h.minted orderly c hc sol hs r hr).label_ne noticed

/-- A program that comes in under labels of its own has no label of the sequence. -/
lemma nodup_labels_incoming {p : Program} {relabel : Option Bool}
    (own : relabel.getD u.settings.relabelIncoming = true)
    (distinct : ((rulesOf u.programs).map Rule.label).Nodup) :
    ((rulesOf (u.programs ++ [u.incoming p relabel])).map Rule.label).Nodup := by
  rw [rulesOf_append, rulesOf_cons, rulesOf_nil, List.append_nil, incoming, if_pos own]
  exact Program.nodup_labels_relabelled distinct

/-- **What an acceptance does to the labels**: nothing if the solution is refused, and otherwise the
labels of its additions come after those that there are. -/
theorem labels_of_accept {sol : Solution} {next : Nat}
    (suits : Suits IsVersion next u.programs sol) (orderly : Orderly next u.programs)
    (run : (u.accept (some sol)).run s g = (((o, u'), t), g')) :
    ¬ Accepted o ∧ u'.programs = u.programs ∨ Accepted o ∧
      (rulesOf u'.programs).map Rule.label =
        (rulesOf u.programs ++ sol.additions).map Rule.label := by
  cases accept_outcome run with
  | empty _ => exact Or.inl ⟨fun accepted => accepted _ rfl rfl, rfl⟩
  | refused _ => exact Or.inl ⟨fun accepted => accepted _ rfl rfl, rfl⟩
  | applied began application noted detected =>
      have applied := suits.applied IsVersion.like orderly application
      refine Or.inr ⟨detected.accepted, ?_⟩
      rw [detected.programs_eq]
      exact applied.labels orderly

end UpdateSequence

namespace Desk

/-! ## How a session goes on -/

/-- The programs that the latest report is about, after a change. -/
def seenAfter (seen : List Program) (o : Except UpdateError Detection) (u : UpdateSequence) :
    List Program :=
  match o with
  | .ok (.completed _) => u.programs
  | _ => seen

/-- Programs are read, and come in under labels of their own.  Conflicts are detected, and what is
offered is accepted, after any number of swaps, unless a new rule has the label of a rule that was
missed among the programs `seen`, of which it was reported.  Other work may have taken identifiers
in between. -/
inductive Continues (d : Desk) : List Program → Desk → Prop
  | refl : Continues d d.programs d
  | read {seen : List Program} {d₁ : Desk} {text : Option String} {name : String} {p : Program}
      {g g' : Ledger} (continues : Continues d seen d₁) (later : d₁.next ≤ g.nextId)
      (run : (Program.parse text name).run g = (.ok p, g')) :
      Continues d seen { d₁ with next := g'.nextId, inHand := d₁.inHand ++ [p] }
  | add {seen before after : List Program} {d₁ : Desk} {p : Program} {relabel : Option Bool}
      {added : Bool} {u : UpdateSequence} {g g' : Ledger} (continues : Continues d seen d₁)
      (inHand : d₁.inHand = before ++ p :: after)
      (own : relabel.getD d₁.sequence.settings.relabelIncoming = true)
      (later : d₁.next ≤ g.nextId)
      (run : d₁.sequence.addProgram (some p) relabel g = ((added, u), g')) :
      Continues d seen { d₁ with sequence := u, next := g'.nextId, inHand := before ++ after }
  | detect {seen : List Program} {d₁ : Desk} {o : Except UpdateError Detection}
      {u : UpdateSequence} {s : Solver} {g g' : Ledger} (continues : Continues d seen d₁)
      (later : d₁.next ≤ g.nextId)
      (run : d₁.sequence.detect.run d₁.solver g = (((o, u), s), g')) :
      Continues d (seenAfter seen o u) { d₁ with toSession := d₁.toSession.after o u s g' }
  | accept {seen : List Program} {d₁ : Desk} {c : Conflict} {sol sol' : Solution}
      {o : Except UpdateError Detection} {u : UpdateSequence} {s : Solver} {g g' : Ledger}
      (continues : Continues d seen d₁) (reported : c ∈ d₁.offered) (offered : sol ∈ c.solutions)
      (swapped : sol.Swapped sol') (avoids : Avoids seen d₁.programs sol')
      (later : d₁.next ≤ g.nextId)
      (run : (d₁.sequence.accept (some sol')).run d₁.solver g = (((o, u), s), g')) :
      Continues d (seenAfter seen o u) { d₁ with toSession := d₁.toSession.after o u s g' }

/-! ## What holds all along -/

/-- The session is coherent, its rules have distinct labels, and what is offered spares those of
the rules that were noticed. -/
structure Labelled (seen : List Program) (d : Desk) : Prop where
  coherent : d.Coherent
  labels : ((rulesOf d.programs).map Rule.label).Nodup
  spares : ∀ c ∈ d.offered, Spares seen c

section

variable {seen : List Program} {d d₁ : Desk} {o : Except UpdateError Detection}
  {u : UpdateSequence} {s : Solver} {g g' : Ledger}

/-- What is offered after a change was reported of the programs that were seen last. -/
lemma spares_after {st : Session} (left : ∀ c ∈ st.offered, Spares seen c)
    (reported : ∀ c ∈ reports o, Spares u.programs c) :
    ∀ c ∈ (st.after o u s g).offered, Spares (seenAfter seen o u) c := by
  rcases o with e | f | cause
  · exact Session.forall_offered_after (fun _ => left) fun c hc => absurd hc List.not_mem_nil
  · exact reported
  · exact Session.forall_offered_after (fun _ => left) fun c hc => absurd hc List.not_mem_nil

lemma New.labelled (h : d.New) : d.Labelled d.programs := by
  refine ⟨h.coherent, ?_, fun c hc => absurd (h.offered ▸ hc) List.not_mem_nil⟩
  rw [h.programs]
  exact List.nodup_nil

namespace Labelled

lemma add (h : d.Labelled seen) {before after : List Program} {p : Program}
    {relabel : Option Bool} {added : Bool} (inHand : d.inHand = before ++ p :: after)
    (own : relabel.getD d.sequence.settings.relabelIncoming = true) (later : d.next ≤ g.nextId)
    (run : d.sequence.addProgram (some p) relabel g = ((added, u), g')) :
    Labelled seen { d with sequence := u, next := g'.nextId, inHand := before ++ after } := by
  refine ⟨h.coherent.add inHand later run, ?_, h.spares⟩
  show ((rulesOf u.programs).map Rule.label).Nodup
  rcases UpdateSequence.addProgram_programs run with same | programs
  · rw [same]
    exact h.labels
  · rw [programs]
    exact UpdateSequence.nodup_labels_incoming own h.labels

lemma detect (h : d.Labelled seen) (later : d.next ≤ g.nextId)
    (run : d.sequence.detect.run d.solver g = (((o, u), s), g')) :
    Labelled (seenAfter seen o u) { d with toSession := d.toSession.after o u s g' } := by
  have turn : Turn d (reports o) { d with toSession := d.toSession.after o u s g' } :=
    .move (.detect later run)
  obtain ⟨g₀, began, detected⟩ := UpdateSequence.detect_outcome run
  have spares := detected.spares (h.coherent.orderly_programs.mono (by omega))
  refine ⟨(turn.keeps h.coherent).1, ?_, spares_after h.spares spares⟩
  show ((rulesOf u.programs).map Rule.label).Nodup
  rw [detected.programs_eq]
  exact h.labels

/-- An offer that is taken keeps labels distinct exactly if it avoids those that were missed. -/
lemma nodup_iff_avoids (h : d.Labelled seen) {c : Conflict} {sol sol' : Solution}
    (reported : c ∈ d.offered) (offered : sol ∈ c.solutions) (swapped : sol.Swapped sol')
    (run : (d.sequence.accept (some sol')).run d.solver g = (((o, u), s), g'))
    (accepted : UpdateSequence.Accepted o) :
    ((rulesOf u.programs).map Rule.label).Nodup ↔ Avoids seen d.programs sol' := by
  have offer := (h.coherent.stands c reported).suit sol offered
  have suits := offer.swapped swapped
  obtain ⟨-, labels⟩ := (UpdateSequence.labels_of_accept suits h.coherent.orderly_programs
    run).resolve_left fun refused => refused.1 accepted
  rw [labels, List.map_append, List.nodup_append]
  constructor
  · rintro ⟨-, -, apart⟩ r hr q hq -
    exact apart _ (List.mem_map_of_mem hq) _ (List.mem_map_of_mem hr)
  · refine fun avoids => ⟨h.labels, suits.nodup_labels_additions, fun i hi j hj => ?_⟩
    obtain ⟨q, hq, rfl⟩ := List.mem_map.1 hi
    obtain ⟨r, hr, rfl⟩ := List.mem_map.1 hj
    by_cases missed : Missed seen q
    · exact avoids r hr q hq missed
    · rw [offer.like.additions_rechosen swapped.rechosen] at hr
      exact h.spares c reported sol offered r hr q missed

lemma accept (h : d.Labelled seen) {c : Conflict} {sol sol' : Solution} (reported : c ∈ d.offered)
    (offered : sol ∈ c.solutions) (swapped : sol.Swapped sol')
    (avoids : Avoids seen d.programs sol') (later : d.next ≤ g.nextId)
    (run : (d.sequence.accept (some sol')).run d.solver g = (((o, u), s), g')) :
    Labelled (seenAfter seen o u) { d with toSession := d.toSession.after o u s g' } := by
  have turn : Turn d (reports o) { d with toSession := d.toSession.after o u s g' } :=
    .move (.accept reported offered swapped.rechosen later run)
  have orderly := h.coherent.orderly_programs
  have suits := ((h.coherent.stands c reported).suit sol offered).swapped swapped
  refine ⟨(turn.keeps h.coherent).1, ?_, spares_after h.spares fun c hc => ?_⟩
  · show ((rulesOf u.programs).map Rule.label).Nodup
    rcases UpdateSequence.labels_of_accept suits orderly run with ⟨-, same⟩ | ⟨accepted, -⟩
    · rw [same]
      exact h.labels
    · exact (h.nodup_iff_avoids reported offered swapped run accepted).2 avoids
  · cases UpdateSequence.accept_outcome run with
    | empty _ => exact absurd hc List.not_mem_nil
    | refused _ => exact absurd hc List.not_mem_nil
    | applied began application noted detected =>
        have applied := suits.applied IsVersion.like orderly application
        have taken := (sol'.applyTo_grows d.programs).of_run application
        exact detected.spares ((applied.like.orderly orderly).mono (by omega)) c hc

end Labelled

lemma Continues.labelled (continues : Continues d seen d₁) (new : d.New) : d₁.Labelled seen := by
  induction continues with
  | refl => exact new.labelled
  | read _ later run ih => exact ⟨ih.coherent.read later run, ih.labels, ih.spares⟩
  | add _ inHand own later run ih => exact ih.add inHand own later run
  | detect _ later run ih => exact ih.detect later run
  | accept _ reported offered swapped avoids later run ih =>
      exact ih.accept reported offered swapped avoids later run

/-- **Labels stay distinct.**  Let nothing have been read at the beginning, and let every program
come in under labels of its own.  However the session goes on, whatever its solver says, no two
rules of the sequence have the same label, as long as no new rule is taken with the label of a rule
that was missed when it was offered.  This is the only exception: an offer that can be taken keeps
labels distinct exactly if it avoids such labels. -/
theorem labels_distinct (new : d.New) (continues : Continues d seen d₁) :
    ((rulesOf d₁.programs).map Rule.label).Nodup ∧
      ∀ c ∈ d₁.offered, ∀ sol ∈ c.solutions, ∀ sol', sol.Swapped sol' → ∀ o u s g g',
        (d₁.sequence.accept (some sol')).run d₁.solver g = (((o, u), s), g') →
          UpdateSequence.Accepted o →
            (((rulesOf u.programs).map Rule.label).Nodup ↔ Avoids seen d₁.programs sol') := by
  have labelled := continues.labelled new
  exact ⟨labelled.labels, fun c reported sol offered sol' swapped o u s g g' run accepted =>
    labelled.nodup_iff_avoids reported offered swapped run accepted⟩

/-- The first program at hand comes in. -/
lemma Continues.addFirst (continues : Continues d seen d₁) {p : Program} {after : List Program}
    (inHand : d₁.inHand = p :: after) (own : d₁.sequence.settings.relabelIncoming = true)
    (rules : p.isEmpty = false) {q : Program} (incoming : d₁.sequence.incoming p none = q) :
    Continues d seen { d₁ with
      sequence := { d₁.sequence with
        programs := d₁.programs ++ [q], pristine := d₁.sequence.pristine ++ [q] }
      inHand := after } := by
  subst incoming
  have own : (none : Option Bool).getD d₁.sequence.settings.relabelIncoming = true := own
  rcases run : d₁.sequence.addProgram (some p) none { nextId := d₁.next } with ⟨⟨added, u⟩, g'⟩
  obtain ⟨admission, next⟩ := UpdateSequence.addProgram_outcome run
  have come := continues.add (show d₁.inHand = [] ++ p :: after from inHand) own (Nat.le_refl _) run
  rw [next] at come
  cases admission with
  | refused nothing =>
      rw [nothing p rfl] at rules
      cases rules
  | admitted given _ =>
      cases given
      exact come

/-- Two programs that are written under the same label come in, and a new rule is taken. -/
theorem labels_distinct_new_rule :
    let a : Literal := ⟨⟨"a", []⟩, false⟩
    let l : Literal := ⟨⟨"l", []⟩, false⟩
    let default : Rule := { head := some a, negBody := [l], id := 1 }
    let exception : Rule := { head := some a.complement, label := 1, id := 2 }
    let older : Program := { name := "older", rules := [default] }
    let newer : Program := { name := "newer", rules := [exception] }
    let sequence : UpdateSequence := { settings := { scoreSolutions := false } }
    let d : Desk := { sequence, solver := Solver.exact, next := 1 }
    d.New ∧ ∃ seen d₁ c sol o u s g', Continues d seen d₁ ∧ d₁.programs = [older, newer] ∧
      c ∈ d₁.offered ∧ sol ∈ c.solutions ∧ sol.additions ≠ [] ∧
      (d₁.sequence.accept (some sol)).run d₁.solver { nextId := d₁.next } = (((o, u), s), g') ∧
      UpdateSequence.Accepted o ∧ Avoids seen d₁.programs sol ∧
      ((rulesOf u.programs).map Rule.label).Nodup := by
  intro a l default exception older newer sequence d
  have new : d.New := ⟨rfl, rfl, rfl, by decide⟩
  let read : Program := { newer with rules := [{ exception with label := 0 }] }
  have parsed : (Program.parse (some "a :- not l.") "older").run { nextId := 1 } =
      (.ok older, { nextId := 2 }) := rfl
  have parsed' : (Program.parse (some "-a.") "newer").run { nextId := 2 } =
      (.ok read, { nextId := 3 }) := rfl
  have incoming : sequence.incoming older none = older := by decide +kernel
  have incoming' :
      ({ sequence with programs := [older] } : UpdateSequence).incoming read none = newer := by
    decide +kernel
  let d₁ : Desk :=
    { d with
      sequence := { sequence with programs := [older, newer], pristine := [older, newer] }
      next := 3 }
  have begun : Continues d [] d₁ :=
    ((((Continues.refl (d := d)).read (Nat.le_refl _) parsed).read (Nat.le_refl _) parsed').addFirst
      rfl rfl rfl incoming).addFirst rfl rfl rfl incoming'
  have orderly := (begun.labelled new).coherent.orderly_programs
  have contradiction : UpdateSequence.Contradiction sequence.mark older newer default exception
      [a.complement] := by decide
  obtain ⟨f, u₁, s₁, g₁, detecting, same, c, reported, ho, hn, found⟩ :=
    UpdateSequence.detect_offers (u := d₁.sequence) (g := { nextId := d₁.next }) contradiction rfl
      rfl exact_exact orderly
  have automatic : (⟨.rejectionRule, false⟩ : Strategy) ∈ d₁.sequence.automatic := by decide
  obtain ⟨found, g₂, g₃, solved, offered⟩ := found _ automatic
  let reason : Rule := { head := some l, label := nextFreeLabel [0, 1] 2, id := g₂.nextId }
  obtain ⟨g₄, rejection⟩ : ∃ g₄, (Method.rejectionRule.solutions [older, newer] c).run g₂ =
      (.ok [{ additions := [reason], rootRule := some 1, target := some l }], g₄) := by
    rw [Method.rejectionRule.solutions_congr (c := { older := default, newer := exception }) ho hn]
    exact ⟨_, rfl⟩
  rw [show d₁.sequence.programs = [older, newer] from rfl, rejection] at solved
  cases solved
  obtain ⟨sol, offered, edit⟩ := offered _ (List.mem_singleton.2 rfl)
  let d₂ : Desk := { d₁ with toSession := d₁.toSession.after (.ok (.completed f)) u₁ s₁ g₁ }
  have continues : Continues d u₁.programs d₂ := begun.detect (Nat.le_refl _) detecting
  have same : d₂.programs = [older, newer] := same
  rcases run : (d₂.sequence.accept (some sol)).run d₂.solver { nextId := d₂.next } with
    ⟨⟨⟨o, u⟩, s⟩, g'⟩
  have fresh : ¬ sol.Repeats d₂.programs := by
    have new_clause : ∀ x ∈ newer.clauses, ¬ x ≈ (⟨some l, [], []⟩ : Clause) := by decide
    rw [same, Solution.Repeats, edit.modifications, edit.additions]
    simpa using new_clause
  have accepted : UpdateSequence.Accepted o := by
    have labelled := continues.labelled new
    have suits := (labelled.coherent.stands c reported).suit sol offered
    have later : d₂.next ≤ ({ nextId := d₂.next } : Ledger).nextId := Nat.le_refl _
    rcases (labelled.coherent.tidy.accept suits.like later run).2 with
      ⟨repeats, -⟩ | ⟨-, accepted, -⟩
    · exact absurd repeats fresh
    · exact accepted
  have avoids : Avoids u₁.programs d₂.programs sol := by
    have noticed : ∀ q ∈ rulesOf [older, newer], ¬ Missed [older, newer] q := by decide
    rw [show u₁.programs = [older, newer] from same, same]
    exact fun r hr q hq missed => absurd missed (noticed q hq)
  have final := (labels_distinct new continues).2 c reported sol offered sol .refl o u s _ g' run
    accepted
  exact ⟨new, _, d₂, c, sol, o, u, s, g', continues, same, reported, offered,
    by simp [edit.additions], run, accepted, avoids, final.2 avoids⟩

end

end Desk

end CausalUpdate
