import CausalUpdate.Proofs.UpdateSequence.Courses

/-!
# Identifiers in a session

A session from its very beginning.  Programs are read, and added to the sequence at any later time
and in any order; in between conflicts are detected and resolved, and solutions are looked at.  All
along every rule of the sequence has an identifier of its own, the rules of a conflict stand in two
programs, the older one in front of the newer one, and every version that is offered belongs to a
rule of one program.  None of this depends on what the solver says.

* `Desk.Turn`, `Desk.Reaches` — how such a session goes on.
* `Stands`, `Desk.Coherent` — what holds all along.
* `Desk.identifiers_coherent` — what this means for identifiers and conflicts.
-/

namespace CausalUpdate

/-- A session, with the programs at hand that have been read and are still to be added to it. -/
structure Desk extends Session where
  inHand : List Program := []

namespace Desk

/-- Solutions have been scored since they were reported, and are the same apart from that. -/
def Rescored (cs cs' : List Conflict) : Prop :=
  ∀ c' ∈ cs', ∃ c ∈ cs, c'.older = c.older ∧ c'.newer = c.newer ∧
    ∀ s' ∈ c'.solutions, ∃ s ∈ c.solutions, s'.SameEdit s

/-- A program is read, or one at hand is added, conflicts are detected or resolved, or a solution is
looked at.  Other work may have taken identifiers in between.  Detecting and resolving report
conflicts. -/
inductive Turn (d : Desk) : List Conflict → Desk → Prop
  | read {text : Option String} {name : String} {p : Program} {g g' : Ledger}
      (later : d.next ≤ g.nextId) (run : (Program.parse text name).run g = (.ok p, g')) :
      Turn d [] { d with next := g'.nextId, inHand := d.inHand ++ [p] }
  | add {before after : List Program} {p : Program} {relabel : Option Bool} {added : Bool}
      {u : UpdateSequence} {g g' : Ledger} (inHand : d.inHand = before ++ p :: after)
      (later : d.next ≤ g.nextId)
      (run : d.sequence.addProgram (some p) relabel g = ((added, u), g')) :
      Turn d [] { d with sequence := u, next := g'.nextId, inHand := before ++ after }
  | move {o : Except UpdateError Detection} {st : Session} (move : d.toSession.Move o st) :
      Turn d (reports o) { d with toSession := st }
  | preview {sol : Solution} {o : Except UpdateError Detection} {s : Solver} {g g' : Ledger}
      (later : d.next ≤ g.nextId) (run : (d.sequence.preview sol).run d.solver g = ((o, s), g')) :
      Turn d [] { d with solver := s, next := g'.nextId }
  | score {sol : Solution} {o : Except UpdateError Solution} {s : Solver} {g g' : Ledger}
      {cs : List Conflict} (later : d.next ≤ g.nextId)
      (run : (d.sequence.score sol).run d.solver g = ((o, s), g'))
      (rescored : Rescored d.offered cs) :
      Turn d [] { d with solver := s, next := g'.nextId, offered := cs }

/-- Any number of turns. -/
inductive Reaches (d : Desk) : Desk → Prop
  | refl : Reaches d d
  | turn {d₁ d₂ : Desk} {cs : List Conflict} (reaches : Reaches d d₁) (turn : Turn d₁ cs d₂) :
      Reaches d d₂

/-- Nothing has been read or reported yet. -/
structure New (d : Desk) : Prop where
  programs : d.programs = []
  inHand : d.inHand = []
  offered : d.offered = []
  begun : 0 < d.next

end Desk

/-! ## Conflicts that stand -/

/-- The conflict stands between rules of two programs, what is offered for it suits the programs,
and nothing that is offered has an identifier of the programs at hand. -/
structure Stands (next : Nat) (ps qs : List Program) (c : Conflict) : Prop where
  placed : Placed ps c
  suit : ∀ sol ∈ c.solutions, Suits IsVersion next ps sol
  apart : ∀ sol ∈ c.solutions, ∀ r ∈ sol.additions, ∀ q ∈ rulesOf qs, q.id ≠ r.id

/-- The conflict stands between rules of two programs, and every version that is offered for it,
whichever versions are chosen, has the identifier of a rule of one program and of no other. -/
structure Grounded (ps : List Program) (c : Conflict) : Prop where
  placed : Placed ps c
  held : ∀ sol ∈ c.solutions, ∀ sol', sol.Rechosen sol' → ∀ v ∈ sol'.modifications,
    ps.countP (fun p => v.id ∈ p.ids) = 1

namespace Stands

variable {next next' : Nat} {ps qs qs' : List Program} {p p' : Program} {c c' : Conflict}

lemma mono (h : Stands next ps qs c) (le : next ≤ next') : Stands next' ps qs c :=
  { h with suit := fun sol hs => (h.suit sol hs).mono le }

/-- Fewer programs at hand make no difference. -/
lemma sublist (h : Stands next ps qs c) (sub : qs'.Sublist qs) : Stands next ps qs' c :=
  { h with apart := fun sol hs r hr q hq =>
      h.apart sol hs r hr q ((sub.flatMap Program.rules).subset hq) }

lemma of_sameEdit (h : Stands next ps qs c) (older : c'.older = c.older)
    (newer : c'.newer = c.newer) (same : ∀ s' ∈ c'.solutions, ∃ s ∈ c.solutions, s'.SameEdit s) :
    Stands next ps qs c' := by
  refine ⟨?_, fun s' hs' => ?_, fun s' hs' => ?_⟩
  · rw [Placed, older, newer]
    exact h.placed
  · obtain ⟨s, hs, same⟩ := same s' hs'
    exact (h.suit s hs).of_sameEdit same
  · obtain ⟨s, hs, same⟩ := same s' hs'
    rw [same.additions]
    exact h.apart s hs

/-- A program whose identifiers are taken from the supply only now is at hand. -/
lemma read (h : Stands next ps qs c) (new : ∀ r ∈ p.rules, (next : Int) ≤ r.id) :
    Stands next ps (qs ++ [p]) c := by
  refine { h with apart := fun sol hs r hr q hq => ?_ }
  rw [rulesOf_append, List.mem_append] at hq
  rcases hq with hq | hq
  · exact h.apart sol hs r hr q hq
  · have taken := (h.suit sol hs).additions_lt r hr
    have free := new q (by simpa using hq)
    omega

/-- A program at hand is added. -/
lemma add (h : Stands next ps (qs ++ p :: qs') c) (same : SameRules p' p) :
    Stands next (ps ++ [p']) (qs ++ qs') c := by
  have still := h.sublist ((List.sublist_cons_self p qs').append_left qs)
  refine { still with
    placed := h.placed.append _
    suit := fun sol hs => (h.suit sol hs).append fun r hr q hq => ?_ }
  obtain ⟨q', hq', id, -⟩ := same.exists_rule (show q ∈ p'.rules by simpa using hq)
  exact id ▸ h.apart sol hs r hr q' (by simp [hq'])

lemma grounded (h : Stands next ps qs c) (orderly : Orderly next ps) : Grounded ps c := by
  refine ⟨h.placed, fun sol hs sol' rechosen v hv => ?_⟩
  cases (h.suit sol hs).like.rechosen rechosen with
  | excludes versions =>
      obtain ⟨r, hr, like⟩ := versions.versions.chosen v hv
      simpa only [like.id] using orderly.countP_holders (versions.there r hr)
  | adds addition => exact absurd (addition.modifications ▸ hv) List.not_mem_nil

end Stands

/-! ## What holds all along -/

section

variable {u u' : UpdateSequence} {s : Solver} {g : Ledger} {high : Nat} {qs : List Program}
  {o : Except UpdateError Detection}

/-- What a detection reports stands, and is apart from the programs at hand. -/
lemma UpdateSequence.Detected.stands (h : Detected u s g high o u')
    (orderly : Orderly g.nextId (u.programs ++ qs)) :
    ∀ c ∈ reports o, Stands high u'.programs qs c := by
  obtain ⟨orderly, inHand, -⟩ := orderly_append.1 orderly
  rw [h.programs_eq]
  refine fun c hc => ⟨(h.source orderly c hc).1, h.suit orderly c hc, fun sol hs r hr q hq => ?_⟩
  have taken := (inHand.numbered q hq).2
  have minted := (h.minted orderly c hc sol hs r hr).id
  omega

/-- A program at hand is added, under whatever labels. -/
lemma Orderly.add {next : Nat} {ps before after : List Program} {p p' : Program}
    (h : Orderly next (ps ++ (before ++ p :: after))) (same : SameRules p' p) :
    Orderly next (ps ++ [p'] ++ (before ++ after)) := by
  have first : Orderly next ([p] ++ (ps ++ (before ++ after))) := by
    refine h.perm ?_
    rw [← List.append_assoc, ← List.append_assoc ps]
    exact List.perm_middle
  obtain ⟨one, others, apart⟩ := orderly_append.1 first
  have back : ∀ r ∈ rulesOf [p'], ∃ q ∈ rulesOf [p], q.id = r.id ∧ q.toClause = r.toClause := by
    simpa using fun r hr => same.exists_rule (r := r) hr
  have one : Orderly next [p'] := by
    refine ⟨?_, fun r hr => ?_, fun r hr => ?_, ?_⟩
    · have distinct := one.ids_nodup (List.mem_singleton.2 rfl)
      rw [← same.ids_eq] at distinct
      simpa [Program.ids] using distinct
    · obtain ⟨q, hq, id, -⟩ := back r hr
      exact id ▸ one.numbered q hq
    · obtain ⟨q, hq, -, clause⟩ := back r hr
      exact clause ▸ one.nonempty q hq
    · have unrepeated := one.unrepeated p (List.mem_singleton.2 rfl)
      simpa [Program.Unrepeated, same.clauses_eq] using unrepeated
  have together : Orderly next ([p'] ++ (ps ++ (before ++ after))) := by
    refine orderly_append.2 ⟨one, others, fun a ha b hb => ?_⟩
    obtain ⟨q, hq, id, -⟩ := back a ha
    exact id ▸ apart q hq b hb
  refine together.perm ?_
  show (p' :: (ps ++ (before ++ after))).Perm _
  rw [List.append_assoc]
  exact List.perm_middle.symm

end

namespace Desk

/-- What holds all along: the programs of the sequence and those at hand are orderly together, and
what is offered stands. -/
structure Coherent (d : Desk) : Prop where
  begun : 0 < d.next
  orderly : Orderly d.next (d.programs ++ d.inHand)
  stands : ∀ c ∈ d.offered, Stands d.next d.programs d.inHand c

section

variable {d d' d₁ : Desk} {cs : List Conflict} {o : Except UpdateError Detection} {st : Session}
  {u : UpdateSequence} {s : Solver} {g g' : Ledger}

lemma New.coherent (h : d.New) : d.Coherent := by
  refine ⟨h.begun, ?_, fun c hc => absurd (h.offered ▸ hc) List.not_mem_nil⟩
  rw [h.programs, h.inHand]
  exact ⟨by simp, by simp, by simp, by simp⟩

namespace Coherent

/-- The programs of the sequence are orderly. -/
lemma orderly_programs (h : d.Coherent) : Orderly d.next d.programs :=
  (orderly_append.1 h.orderly).1

lemma tidy (h : d.Coherent) : d.toSession.Tidy :=
  ⟨h.orderly_programs, fun c hc => (h.stands c hc).suit⟩

/-- Looking at a solution takes nothing but identifiers. -/
lemma looked (h : d.Coherent) (grows : d.next ≤ g.nextId) (rescored : Rescored d.offered cs) :
    Coherent { d with solver := s, next := g.nextId, offered := cs } := by
  refine ⟨Nat.lt_of_lt_of_le h.begun grows, h.orderly.mono grows, fun c' hc' => ?_⟩
  obtain ⟨c, hc, older, newer, same⟩ := rescored c' hc'
  exact ((h.stands c hc).mono grows).of_sameEdit older newer same

lemma read (h : d.Coherent) {text : Option String} {name : String} {p : Program}
    (later : d.next ≤ g.nextId) (run : (Program.parse text name).run g = (.ok p, g')) :
    Coherent { d with next := g'.nextId, inHand := d.inHand ++ [p] } := by
  obtain ⟨distinct, unrepeated, rules⟩ := rules_of_parse run
  have grows := Nat.le_trans later ((Program.parse_grows text name).of_run run)
  have begun := h.begun
  have one : Orderly g'.nextId [p] := by
    refine ⟨by simpa [Program.ids] using distinct, fun r hr => ?_, fun r hr => ?_,
      by simpa using unrepeated⟩ <;> rw [rulesOf_cons, rulesOf_nil, List.append_nil] at hr
    · have taken := (rules r hr).1
      omega
    · exact (rules r hr).2.1
  have new : ∀ r ∈ p.rules, (d.next : Int) ≤ r.id := by
    intro r hr
    have taken := (rules r hr).1
    omega
  refine ⟨Nat.lt_of_lt_of_le h.begun grows, ?_,
    fun c hc => ((h.stands c hc).read new).mono grows⟩
  show Orderly g'.nextId (d.programs ++ (d.inHand ++ [p]))
  rw [← List.append_assoc]
  refine orderly_append.2 ⟨h.orderly.mono grows, one, fun a ha b hb => ?_⟩
  have taken := (h.orderly.numbered a ha).2
  have free := new b (by simpa using hb)
  omega

lemma add (h : d.Coherent) {before after : List Program} {p : Program} {relabel : Option Bool}
    {added : Bool} (inHand : d.inHand = before ++ p :: after) (later : d.next ≤ g.nextId)
    (run : d.sequence.addProgram (some p) relabel g = ((added, u), g')) :
    Coherent { d with sequence := u, next := g'.nextId, inHand := before ++ after } := by
  have grows : d.next ≤ g'.nextId := (UpdateSequence.addProgram_outcome run).2 ▸ later
  have begun := Nat.lt_of_lt_of_le h.begun grows
  have orderly := h.orderly.mono grows
  have stands := fun c hc => (h.stands c hc).mono grows
  rw [inHand] at orderly stands
  rcases UpdateSequence.addProgram_programs run with programs | programs
  · have sub := (List.sublist_cons_self p after).append_left before
    refine ⟨begun, ?_, fun c hc => ?_⟩
    · show Orderly _ (u.programs ++ _)
      rw [programs]
      exact orderly.sublist (sub.append_left _)
    · show Stands _ u.programs _ _
      rw [programs]
      exact (stands c hc).sublist sub
  · have same := d.sequence.sameRules_incoming p relabel
    refine ⟨begun, ?_, fun c hc => ?_⟩
    · show Orderly _ (u.programs ++ _)
      rw [programs]
      exact orderly.add same
    · show Stands _ u.programs _ _
      rw [programs]
      exact (stands c hc).add same

/-- A change leaves what is at hand as it is. -/
lemma after (h : d.Coherent) (grows : d.next ≤ g.nextId)
    (orderly : Orderly g.nextId (u.programs ++ d.inHand))
    (stands : ∀ c ∈ reports o, Stands g.nextId u.programs d.inHand c) :
    Coherent { d with toSession := d.toSession.after o u s g } := by
  refine ⟨Nat.lt_of_lt_of_le h.begun grows, orderly,
    Session.forall_offered_after (fun same c hc => ?_) stands⟩
  rw [Session.after_programs, same]
  exact (h.stands c hc).mono grows

/-- Programs stay orderly with those at hand when a solution is applied. -/
lemma orderly_applied (h : d.Coherent) {c : Conflict} {sol sol' : Solution} {ps : List Program}
    (reported : c ∈ d.offered) (offered : sol ∈ c.solutions) (rechosen : sol.Rechosen sol')
    (applied : Applied LikeVersion d.next d.programs sol' (.ok ps)) :
    Orderly d.next (ps ++ d.inHand) := by
  obtain ⟨orderly, inHand, apart⟩ := orderly_append.1 h.orderly
  refine orderly_append.2 ⟨applied.orderly orderly, inHand, fun a ha b hb => ?_⟩
  have stands := h.stands c reported
  rcases applied.exists_id ha with ⟨q, hq, id⟩ | added
  · exact id ▸ apart q hq b hb
  · rw [(stands.suit sol offered).like.additions_rechosen rechosen] at added
    exact (stands.apart sol offered a added b hb).symm

end Coherent

/-- **Every turn keeps a desk coherent**, and what it reports stands. -/
theorem Turn.keeps (turn : Turn d cs d') (h : d.Coherent) :
    d'.Coherent ∧ ∀ c ∈ cs, Stands d'.next d'.programs d'.inHand c := by
  have nothing : ∀ {P : Conflict → Prop}, ∀ c ∈ ([] : List Conflict), P c :=
    fun c hc => absurd hc List.not_mem_nil
  have unscored : Rescored d.offered d.offered := fun c hc =>
    ⟨c, hc, rfl, rfl, fun s hs => ⟨s, hs, .refl s⟩⟩
  cases turn with
  | read later run => exact ⟨h.read later run, nothing⟩
  | add inHand later run => exact ⟨h.add inHand later run, nothing⟩
  | preview later run =>
      have grows := ((d.sequence.preview_steady _).of_run run).2
      exact ⟨h.looked (Nat.le_trans later grows) unscored, nothing⟩
  | score later run rescored =>
      have grows := ((d.sequence.score_steady _).of_run run).2
      exact ⟨h.looked (Nat.le_trans later grows) rescored, nothing⟩
  | move move =>
      cases move with
      | @detect _ _ _ g _ later run =>
          obtain ⟨g₀, began, detected⟩ := UpdateSequence.detect_outcome run
          have grows := (d.sequence.detect_steady.of_run run).2
          have orderly : Orderly g₀.nextId (d.programs ++ d.inHand) := h.orderly.mono (by omega)
          have stands := detected.stands orderly
          refine ⟨h.after (Nat.le_trans later grows) ?_ stands, stands⟩
          rw [detected.programs_eq]
          exact h.orderly.mono (Nat.le_trans later grows)
      | @accept c sol sol' _ _ _ g _ reported offered rechosen later run =>
          have grows := Nat.le_trans later ((d.sequence.accept_steady _).of_run run).2
          have suits := ((h.stands c reported).suit sol offered).like.rechosen rechosen
          cases UpdateSequence.accept_outcome run with
          | empty _ => exact ⟨h.after grows (h.orderly.mono grows) nothing, nothing⟩
          | refused _ => exact ⟨h.after grows (h.orderly.mono grows) nothing, nothing⟩
          | applied began application noted detected =>
              have applied := suits.applied id h.orderly_programs application
              have orderly := h.orderly_applied reported offered rechosen applied
              have taken := (sol'.applyTo_grows d.programs).of_run application
              have stands := detected.stands (orderly.mono (by omega))
              refine ⟨h.after grows ?_ stands, stands⟩
              rw [detected.programs_eq]
              exact orderly.mono grows

lemma Reaches.coherent (reaches : Reaches d d₁) (h : d.Coherent) : d₁.Coherent := by
  induction reaches with
  | refl => exact h
  | turn _ turn ih => exact (turn.keeps ih).1

/-- The course of a session is made of turns. -/
lemma Reaches.course (reaches : Reaches d d₁) {n : Nat} (course : d₁.toSession.Course n st) :
    Reaches d { d₁ with toSession := st } := by
  induction course with
  | nil => exact reaches
  | move _ move ih => exact ih.turn (.move move)
  | resolve _ resolves ih =>
      obtain ⟨o, move⟩ := resolves.move
      exact ih.turn (.move move)

/-- **Identifiers stay coherent.**  Let nothing have been read at the beginning.  However the
session goes on, whatever its solver says and whichever versions are chosen of what is offered, the
identifiers of all rules of the sequence are distinct.  Every conflict that is offered stands
between a rule of a program and one of a later program, and every version that is offered for it has
the identifier of a rule of exactly one program.  The same holds of what the next turn reports. -/
theorem identifiers_coherent (new : d.New) (reaches : Reaches d d₁) :
    ((rulesOf d₁.programs).map Rule.id).Nodup ∧ (∀ c ∈ d₁.offered, Grounded d₁.programs c) ∧
      ∀ cs d₂, Turn d₁ cs d₂ → ∀ c ∈ cs, Grounded d₂.programs c := by
  have coherent := reaches.coherent new.coherent
  refine ⟨coherent.orderly_programs.distinct, fun c hc => ?_, fun cs d₂ turn c hc => ?_⟩
  · exact (coherent.stands c hc).grounded coherent.orderly_programs
  · obtain ⟨coherent', stands⟩ := turn.keeps coherent
    exact (stands c hc).grounded coherent'.orderly_programs

/-- A fact and an exception to it are read and added, and a version of the fact is offered. -/
theorem identifiers_coherent_exception :
    let fly : Literal := ⟨⟨"fly", ["tweety"]⟩, false⟩
    let well : Literal := ⟨⟨"well", []⟩, false⟩
    let fact : Rule := { head := some fly, id := 1 }
    let exception : Rule := { head := some fly.complement, negBody := [well], id := 2 }
    let version : Rule := { head := some fly, body := [well], id := 1 }
    let older : Program := { name := "older", rules := [fact] }
    let newer : Program := { name := "newer", rules := [exception] }
    let sequence : UpdateSequence := { settings := { scoreSolutions := false } }
    let d : Desk := { sequence, solver := Solver.exact, next := 1 }
    d.New ∧ ∃ d₁ c sol, Reaches d d₁ ∧ d₁.programs = [older, newer] ∧ c ∈ d₁.offered ∧
      c.pair = (1, 2) ∧ sol ∈ c.solutions ∧ sol.modifications = [version] ∧
      ((rulesOf d₁.programs).map Rule.id).Nodup ∧ Grounded d₁.programs c ∧
      ∀ cs d₂, Turn d₁ cs d₂ → ∀ c ∈ cs, Grounded d₂.programs c := by
  intro fly well fact exception version older newer sequence d
  have new : d.New := ⟨rfl, rfl, rfl, by decide⟩
  -- both programs are read before either of them is added
  let d₁ : Desk := { d with next := 2, inHand := [older] }
  let d₂ : Desk := { d with next := 3, inHand := [older, newer] }
  let d₃ : Desk :=
    { d₂ with
      sequence := { sequence with programs := [older], pristine := [older] }, inHand := [newer] }
  let d₄ : Desk :=
    { d₃ with
      sequence := { sequence with programs := [older, newer], pristine := [older, newer] }
      inHand := [] }
  have parsed : (Program.parse (some "fly(tweety).") "older").run { nextId := 1 } =
      (.ok older, { nextId := 2 }) := rfl
  have parsed' : (Program.parse (some "-fly(tweety) :- not well.") "newer").run { nextId := 2 } =
      (.ok newer, { nextId := 3 }) := rfl
  have read : Turn d [] d₁ := .read (Nat.le_refl _) parsed
  have read' : Turn d₁ [] d₂ := .read (Nat.le_refl _) parsed'
  have run : d₂.sequence.addProgram (some older) (some false) { nextId := 3 } =
      ((true, d₃.sequence), _) := rfl
  have run' : d₃.sequence.addProgram (some newer) (some false) { nextId := 3 } =
      ((true, d₄.sequence), _) := rfl
  have add : Turn d₂ [] d₃ := .add (show d₂.inHand = [] ++ older :: [newer] from rfl)
    (Nat.le_refl _) run
  have add' : Turn d₃ [] d₄ := .add (show d₃.inHand = [] ++ newer :: [] from rfl)
    (Nat.le_refl _) run'
  have begun : Reaches d d₄ := (((Reaches.refl.turn read).turn read').turn add).turn add'
  have contradiction : UpdateSequence.Contradiction sequence.mark older newer fact exception
      [fly.complement] := by decide
  have one : modifications fact exception.toClause = [version] := by decide +kernel
  have none : modifications exception fact.toClause = [] := by decide +kernel
  obtain ⟨st, c, sol, course, same, reported, pair, offered, edit⟩ :=
    (begun.coherent new.coherent).tidy.offers_version contradiction one none rfl rfl rfl
      exact_exact
  have reaches := begun.course course
  obtain ⟨distinct, grounded, onward⟩ := identifiers_coherent new reaches
  exact ⟨new, _, c, sol, reaches, same, reported, pair, offered, edit.modifications, distinct,
    grounded c reported, onward⟩

end

end Desk

end CausalUpdate
