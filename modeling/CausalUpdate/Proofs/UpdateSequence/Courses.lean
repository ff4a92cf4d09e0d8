import CausalUpdate.Proofs.Program.Reading
import CausalUpdate.Proofs.Solution.Progress
import CausalUpdate.Proofs.UpdateSequence.Session

/-!
# Courses

What a session can come to, whatever its solver says, and whichever versions are chosen of what is
offered, also if they are written in another way.  The programs stay orderly all along, and what is
offered suits them.  So a solution that is offered is refused only where it repeats a rule, and
every solution that is accepted makes the programs heavier, while they cannot become arbitrarily
heavy.

* `Session.Move`, `Session.Course` — how a session goes on.
* `Session.Tidy`, `Session.Move.leads` — what holds all along.
* `Session.refused_iff_repeats` — which solutions can be taken.
* `Session.resolution_terminates` — no session resolves conflicts for ever.
-/

namespace CausalUpdate.Session

/-- The session begins with programs that were read and share no identifier. -/
structure Begun (st : Session) : Prop where
  read : ∀ p ∈ st.programs, IsRead st.next p
  disjoint : st.programs.Pairwise fun p q => p.ids.Disjoint q.ids
  offered : st.offered = []

/-- A detection, or the acceptance of a solution that has been offered, whichever of its versions
have been chosen since.  Other work may have taken identifiers in between. -/
inductive Move (st : Session) : Except UpdateError Detection → Session → Prop
  | detect {o : Except UpdateError Detection} {u : UpdateSequence} {s : Solver} {g g' : Ledger}
      (later : st.next ≤ g.nextId) (run : st.sequence.detect.run st.solver g = (((o, u), s), g')) :
      Move st o (st.after o u s g')
  | accept {c : Conflict} {sol sol' : Solution} {o : Except UpdateError Detection}
      {u : UpdateSequence} {s : Solver} {g g' : Ledger} (reported : c ∈ st.offered)
      (offered : sol ∈ c.solutions) (rechosen : sol.Rechosen sol') (later : st.next ≤ g.nextId)
      (run : (st.sequence.accept (some sol')).run st.solver g = (((o, u), s), g')) :
      Move st o (st.after o u s g')

/-- A solution that has been offered is accepted. -/
inductive Resolves (st : Session) : Session → Prop
  | intro {c : Conflict} {sol sol' : Solution} {o : Except UpdateError Detection}
      {u : UpdateSequence} {s : Solver} {g g' : Ledger} (reported : c ∈ st.offered)
      (offered : sol ∈ c.solutions) (rechosen : sol.Rechosen sol') (later : st.next ≤ g.nextId)
      (run : (st.sequence.accept (some sol')).run st.solver g = (((o, u), s), g'))
      (accepted : UpdateSequence.Accepted o) : Resolves st (st.after o u s g')

lemma Resolves.move {st st' : Session} (h : Resolves st st') : ∃ o, Move st o st' := by
  obtain ⟨reported, offered, rechosen, later, run, -⟩ := h
  exact ⟨_, .accept reported offered rechosen later run⟩

/-- Any number of moves, among them at least a number of accepted solutions. -/
inductive Course (st : Session) : Nat → Session → Prop
  | nil : Course st 0 st
  | move {n : Nat} {st₁ st₂ : Session} {o : Except UpdateError Detection} (course : Course st n st₁)
      (move : Move st₁ o st₂) : Course st n st₂
  | resolve {n : Nat} {st₁ st₂ : Session} (course : Course st n st₁) (resolves : Resolves st₁ st₂) :
      Course st (n + 1) st₂

/-- What holds of a session all along, whatever its solver says. -/
structure Tidy (st : Session) : Prop where
  orderly : Orderly st.next st.programs
  suit : ∀ c ∈ st.offered, ∀ sol ∈ c.solutions, Suits IsVersion st.next st.programs sol

/-- Two programs may be read one after the other. -/
lemma Begun.pair {st : Session} {older newer : Program} (programs : st.programs = [older, newer])
    (read : IsRead st.next older) (read' : IsRead st.next newer)
    (disjoint : ∀ id ∈ older.ids, id ∉ newer.ids) (offered : st.offered = []) : st.Begun := by
  refine ⟨?_, ?_, offered⟩ <;> rw [programs]
  · exact List.forall_mem_cons.2 ⟨read, by simpa using read'⟩
  · exact List.pairwise_pair.2 fun id => disjoint id

lemma Begun.tidy {st : Session} (h : st.Begun) : st.Tidy :=
  ⟨orderly_of_isRead h.read h.disjoint, fun _ hc => absurd (h.offered ▸ hc) List.not_mem_nil⟩

/-- What a move does to a session: it stays tidy, nothing new is mentioned, and the programs become
no lighter. -/
structure Leads (st st' : Session) : Prop where
  tidy : st'.Tidy
  length : st'.programs.length = st.programs.length
  allAmong : Literal.AllAmong (mentioned st'.programs) (mentioned st.programs)
  heavier : totalWeight st.programs ≤ totalWeight st'.programs

section

variable {st st₁ st₂ st' : Session} {o : Except UpdateError Detection} {c : Conflict}
  {sol sol' : Solution} {u : UpdateSequence} {s : Solver} {g g' : Ledger} {n : Nat}

/-- Offers that are left stand for the programs as they are. -/
lemma Tidy.after (h : st.Tidy) (orderly : Orderly g.nextId u.programs) (grows : st.next ≤ g.nextId)
    (suit : ∀ c ∈ reports o, ∀ sol ∈ c.solutions, Suits IsVersion g.nextId u.programs sol) :
    (st.after o u s g).Tidy := by
  refine ⟨orderly, forall_offered_after (fun same c hc sol hs => ?_) suit⟩
  rw [after_programs, same]
  exact (h.suit c hc sol hs).mono grows

lemma Tidy.detect (h : st.Tidy) (later : st.next ≤ g.nextId)
    (run : st.sequence.detect.run st.solver g = (((o, u), s), g')) :
    Leads st (st.after o u s g') := by
  obtain ⟨g₀, began, detected⟩ := UpdateSequence.detect_outcome run
  obtain ⟨-, grows⟩ := st.sequence.detect_steady.of_run run
  have same : u.programs = st.programs := detected.programs_eq
  have suit := detected.suit (h.orderly.mono (by omega))
  refine ⟨h.after ?_ (Nat.le_trans later grows) (same ▸ suit), ?_, ?_, ?_⟩
  · rw [same]
    exact h.orderly.mono (Nat.le_trans later grows)
  · rw [after_programs, same]
  · rw [after_programs, same]
    exact .refl _
  · rw [after_programs, same]

/-- **What becomes of a suitable solution**: it is refused if it repeats a rule, and otherwise the
programs become heavier. -/
theorem Tidy.accept (h : st.Tidy) (suits : Suits LikeVersion st.next st.programs sol)
    (later : st.next ≤ g.nextId)
    (run : (st.sequence.accept (some sol)).run st.solver g = (((o, u), s), g')) :
    Leads st (st.after o u s g') ∧
      (sol.Repeats st.programs ∧ (∃ e, o = .ok (.failed (.solution e)) ∧ e.IsDuplicate) ∨
        ¬ sol.Repeats st.programs ∧ UpdateSequence.Accepted o ∧
          totalWeight st.programs < totalWeight u.programs) := by
  obtain ⟨-, grows⟩ := (st.sequence.accept_steady _).of_run run
  have grows := Nat.le_trans later grows
  cases UpdateSequence.accept_outcome run with
  | empty empty =>
      rw [suits.not_isEmpty] at empty
      cases empty
  | refused refusal =>
      refine ⟨⟨h.after (h.orderly.mono grows) grows fun c hc => absurd hc List.not_mem_nil, rfl,
        .refl _, Nat.le_refl _⟩, Or.inl ?_⟩
      cases suits.applied id h.orderly refusal with
      | refused repeats duplicate => exact ⟨repeats, _, rfl, duplicate⟩
  | @applied ps g₀ g₁ g₂ _ _ began application noted detected =>
      have applied := suits.applied id h.orderly application
      have taken := (sol.applyTo_grows st.programs).of_run application
      have same : u.programs = ps := detected.programs_eq
      have orderly := applied.orderly h.orderly
      have heavier := applied.totalWeight_lt h.orderly
      have suit := detected.suit (orderly.mono (by omega))
      have fresh : ¬ sol.Repeats st.programs := by
        cases applied with
        | modified _ fresh => exact fresh
        | added _ _ fresh => exact fresh
      refine ⟨⟨h.after ?_ grows ?_, ?_, ?_, ?_⟩, Or.inr ⟨fresh, detected.accepted, ?_⟩⟩
      · rw [same]
        exact orderly.mono grows
      · rw [same]
        exact suit
      · rw [after_programs, same]
        exact applied.length_eq
      · rw [after_programs, same]
        exact applied.allAmong
      · rw [after_programs, same]
        exact heavier.le
      · rw [same]
        exact heavier

/-- **Every move keeps a session tidy.** -/
theorem Move.leads (move : Move st o st') (h : st.Tidy) : Leads st st' := by
  cases move with
  | detect later run => exact h.detect later run
  | accept reported offered rechosen later run =>
      have suits := (h.suit _ reported _ offered).like.rechosen rechosen
      exact (h.accept suits later run).1

/-- **Accepted solutions make the programs heavier.** -/
theorem Resolves.heavier (resolves : Resolves st st') (h : st.Tidy) :
    totalWeight st.programs < totalWeight st'.programs := by
  obtain ⟨reported, offered, rechosen, later, run, accepted⟩ := resolves
  have suits := (h.suit _ reported _ offered).like.rechosen rechosen
  rcases (h.accept suits later run).2 with ⟨-, e, rfl, -⟩ | ⟨-, -, heavier⟩
  · exact absurd rfl (accepted _ rfl)
  · exact heavier

/-! ## Courses -/

lemma Leads.refl (h : st.Tidy) : Leads st st :=
  ⟨h, rfl, .refl _, Nat.le_refl _⟩

lemma Leads.trans (h : Leads st st₁) (k : Leads st₁ st₂) : Leads st st₂ :=
  ⟨k.tidy, k.length.trans h.length, k.allAmong.trans h.allAmong, h.heavier.trans k.heavier⟩

/-- Every accepted solution counts. -/
lemma Course.leads (course : Course st n st') (h : st.Tidy) :
    Leads st st' ∧ n + totalWeight st.programs ≤ totalWeight st'.programs := by
  induction course with
  | nil => exact ⟨.refl h, by omega⟩
  | move _ move ih =>
      have leads := move.leads ih.1.tidy
      exact ⟨ih.1.trans leads, Nat.le_trans ih.2 leads.heavier⟩
  | resolve _ resolves ih =>
      obtain ⟨_, move⟩ := resolves.move
      have heavier := resolves.heavier ih.1.tidy
      exact ⟨ih.1.trans (move.leads ih.1.tidy), by omega⟩

/-- What a session leads to can only be so heavy. -/
lemma Leads.bounded (h : Leads st st') : totalWeight st'.programs ≤
    weightBound st.programs.length (Program.literalBase st.programs).length := by
  rw [← h.length, ← card_classes_mentioned]
  exact totalWeight_le h.tidy.orderly.unrepeated h.allAmong

/-- **A contradiction that has one way out is offered it**, where solutions are not scored. -/
theorem Tidy.offers_version (h : st.Tidy) {older newer : Program} {a b v : Rule} {ls : List Literal}
    (contradiction : UpdateSequence.Contradiction st.mark older newer a b ls)
    (one : modifications a b.toClause = [v]) (none : modifications b a.toClause = [])
    (programs : st.programs = [older, newer])
    (strategies : st.sequence.strategies = Strategy.standard)
    (unscored : st.sequence.settings.scoreSolutions = false) (exact : st.solver.Exact) :
    ∃ st₁ c sol, Course st 0 st₁ ∧ st₁.programs = [older, newer] ∧ c ∈ st₁.offered ∧
      c.pair = (a.id, b.id) ∧ sol ∈ c.solutions ∧ sol.SameEdit { modifications := [v] } := by
  obtain ⟨f, u, s, g, run, same, c, hc, rfl, rfl, found⟩ := UpdateSequence.detect_offers
    (g := { nextId := st.next }) contradiction programs unscored exact h.orderly
  have automatic : (⟨.direct, false⟩ : Strategy) ∈ st.sequence.automatic := by
    rw [UpdateSequence.automatic, strategies]
    decide
  obtain ⟨sol, hs, edit⟩ := UpdateSequence.exists_version_of_found found automatic one none
  exact ⟨_, c, sol, .move .nil (.detect (Nat.le_refl _) run), same.trans programs, hc, rfl, hs,
    edit⟩

/-- **Only repetitions are refused.**  Let a session begin with programs that were read, and let it
take any course, with any solver.  Whatever is offered then, and whichever of its versions are
chosen, it can be taken, with one exception: if it would have a program say what the program says in
another rule, then it is refused as a duplicate.  Whatever else a solution could be refused for does
not happen. -/
theorem refused_iff_repeats (begun : st.Begun) (course : Course st n st₁)
    (reported : c ∈ st₁.offered) (offered : sol ∈ c.solutions) (rechosen : sol.Rechosen sol')
    (later : st₁.next ≤ g.nextId)
    (run : (st₁.sequence.accept (some sol')).run st₁.solver g = (((o, u), s), g')) :
    (sol'.Repeats st₁.programs → ∃ e, o = .ok (.failed (.solution e)) ∧ e.IsDuplicate) ∧
      (¬ sol'.Repeats st₁.programs → UpdateSequence.Accepted o) := by
  have tidy := (course.leads begun.tidy).1.tidy
  have suits := (tidy.suit c reported sol offered).like.rechosen rechosen
  rcases (tidy.accept suits later run).2 with ⟨repeats, refused⟩ | ⟨fresh, accepted, -⟩
  · exact ⟨fun _ => refused, fun fresh => absurd repeats fresh⟩
  · exact ⟨fun repeats => absurd repeats fresh, fun _ => accepted⟩

/-- A fact and an exception to it: the fact can be made to depend on what the exception assumes not
to hold. -/
theorem accepted_exception :
    let fly : Literal := ⟨⟨"fly", ["tweety"]⟩, false⟩
    let well : Literal := ⟨⟨"well", []⟩, false⟩
    let fact : Rule := { head := some fly, id := 1 }
    let exception : Rule := { head := some fly.complement, negBody := [well], id := 2 }
    let older : Program := { name := "older", rules := [fact] }
    let newer : Program := { name := "newer", rules := [exception] }
    let sequence : UpdateSequence :=
      { settings := { scoreSolutions := false }, programs := [older, newer] }
    let st : Session := { sequence, solver := Solver.exact, next := 3 }
    st.Begun ∧ ∃ st₁ c sol o u s g', Course st 0 st₁ ∧ c ∈ st₁.offered ∧ c.pair = (1, 2) ∧
      sol ∈ c.solutions ∧ ¬ sol.Repeats st₁.programs ∧
      (st₁.sequence.accept (some sol)).run st₁.solver { nextId := st₁.next } =
        (((o, u), s), g') ∧ UpdateSequence.Accepted o := by
  intro fly well fact exception older newer sequence st
  have begun : st.Begun := .pair rfl
    ⟨some "fly(tweety).", "older", older, { nextId := 1 }, { nextId := 2 }, rfl, by decide,
      by decide, rfl⟩
    ⟨some "-fly(tweety) :- not well.", "newer", newer, { nextId := 2 }, { nextId := 3 }, rfl,
      by decide, by decide, rfl⟩ (by decide) rfl
  have contradiction : UpdateSequence.Contradiction st.mark older newer fact exception
      [fly.complement] := by decide
  have one : modifications fact exception.toClause =
      [{ head := some fly, body := [well], id := 1 }] := by decide +kernel
  have none : modifications exception fact.toClause = [] := by decide +kernel
  obtain ⟨st₁, c, sol, course, same, reported, pair, offered, edit⟩ :=
    begun.tidy.offers_version contradiction one none rfl rfl rfl exact_exact
  have fresh : ¬ sol.Repeats st₁.programs := by
    rw [same, Solution.Repeats, edit.modifications, edit.additions]
    decide
  rcases run : (st₁.sequence.accept (some sol)).run st₁.solver { nextId := st₁.next } with
    ⟨⟨⟨o, u⟩, s⟩, g'⟩
  have accepted := (refused_iff_repeats begun course reported offered .refl (Nat.le_refl _) run).2
    fresh
  exact ⟨begun, st₁, c, sol, o, u, s, g', course, reported, pair, offered, fresh, run, accepted⟩

/-- A fact that is also derived from the lack of its exception: the version of the fact that is
offered is the other rule. -/
theorem offered_but_refused :
    let a : Literal := ⟨⟨"a", []⟩, false⟩
    let b : Literal := ⟨⟨"b", []⟩, false⟩
    let fact : Rule := { head := some a, id := 1 }
    let guarded : Rule := { head := some a, negBody := [b], label := 1, id := 2 }
    let exception : Rule := { head := some a.complement, body := [b], id := 3 }
    let reason : Rule := { head := some b, label := 1, id := 4 }
    let older : Program := { name := "older", rules := [fact, guarded] }
    let newer : Program := { name := "newer", rules := [exception, reason] }
    let sequence : UpdateSequence :=
      { settings := { scoreSolutions := false }, programs := [older, newer] }
    let st : Session := { sequence, solver := Solver.exact, next := 5 }
    st.Begun ∧ ∃ st₁ c sol e u s g', Course st 0 st₁ ∧ c ∈ st₁.offered ∧ c.pair = (1, 3) ∧
      sol ∈ c.solutions ∧
      (st₁.sequence.accept (some sol)).run st₁.solver { nextId := st₁.next } =
        (((.ok (.failed (.solution e)), u), s), g') ∧ e.IsDuplicate := by
  intro a b fact guarded exception reason older newer sequence st
  have begun : st.Begun := .pair rfl
    ⟨some "a. a :- not b.", "older", older, { nextId := 1 }, { nextId := 3 }, rfl, by decide,
      by decide, rfl⟩
    ⟨some "-a :- b. b.", "newer", newer, { nextId := 3 }, { nextId := 5 }, rfl, by decide,
      by decide, rfl⟩ (by decide) rfl
  let version : Rule := { head := some a, negBody := [b], id := 1 }
  have contradiction : UpdateSequence.Contradiction st.mark older newer fact exception
      [b, a.complement] := by decide
  have one : modifications fact exception.toClause = [version] := by decide +kernel
  have none : modifications exception fact.toClause = [] := by decide +kernel
  obtain ⟨st₁, c, sol, course, same, reported, pair, offered, edit⟩ :=
    begun.tidy.offers_version contradiction one none rfl rfl rfl exact_exact
  have repeats : sol.Repeats st₁.programs := by
    refine Or.inl ⟨version, by simp [edit.modifications], ?_⟩
    rw [same]
    decide
  have tidy := (course.leads begun.tidy).1.tidy
  rcases run : (st₁.sequence.accept (some sol)).run st₁.solver { nextId := st₁.next } with
    ⟨⟨⟨o, u⟩, s⟩, g'⟩
  rcases (tidy.accept (tidy.suit c reported sol offered).like (Nat.le_refl _) run).2 with
    ⟨-, e, rfl, duplicate⟩ | ⟨fresh, -⟩
  · exact ⟨begun, st₁, c, sol, e, u, s, g', course, reported, pair, offered, run, duplicate⟩
  · exact absurd repeats fresh

/-- **Conflicts are not resolved for ever.**  Let a session begin with programs that were read, with
any solver.  Whatever course it takes, every solution that is accepted adds to the weight of the
programs, which stays below a bound that is known from the outset, so that no more solutions can be
accepted than the bound says; and no endless course accepts solutions again and again. -/
theorem resolution_terminates (begun : st.Begun) :
    (∀ n st₁, Course st n st₁ →
      (∀ st₂, Resolves st₁ st₂ → totalWeight st₁.programs < totalWeight st₂.programs) ∧
      n + totalWeight st.programs ≤ totalWeight st₁.programs ∧
      totalWeight st₁.programs ≤
        weightBound st.programs.length (Program.literalBase st.programs).length) ∧
    ¬ ∃ sts : Nat → Session, sts 0 = st ∧ (∀ k, ∃ o, Move (sts k) o (sts (k + 1))) ∧
      ∀ k, ∃ m, k ≤ m ∧ Resolves (sts m) (sts (m + 1)) := by
  constructor
  · intro n st₁ course
    obtain ⟨leads, counted⟩ := course.leads begun.tidy
    exact ⟨fun st₂ resolves => resolves.heavier leads.tidy, counted, leads.bounded⟩
  · rintro ⟨sts, rfl, moves, again⟩
    -- the first moves of the course, up to some point
    have later : ∀ {n k m}, Course (sts 0) n (sts k) → k ≤ m → Course (sts 0) n (sts m) := by
      intro n k m course le
      induction m, le using Nat.le_induction with
      | base => exact course
      | succ m _ ih =>
          obtain ⟨o, move⟩ := moves m
          exact ih.move move
    have any : ∀ n, ∃ k, Course (sts 0) n (sts k) := by
      intro n
      induction n with
      | zero => exact ⟨0, .nil⟩
      | succ n ih =>
          obtain ⟨k, course⟩ := ih
          obtain ⟨m, le, resolves⟩ := again k
          exact ⟨m + 1, (later course le).resolve resolves⟩
    obtain ⟨k, course⟩ := any
      (weightBound (sts 0).programs.length (Program.literalBase (sts 0).programs).length + 1)
    obtain ⟨leads, counted⟩ := course.leads begun.tidy
    have bounded := leads.bounded
    omega

/-- A shop that is open, but not on holidays, and a holiday: the one solution that is accepted
counts, and all that follow it are bounded. -/
theorem resolution_terminates_holiday :
    let opened : Literal := ⟨⟨"open", ["shop"]⟩, false⟩
    let holiday : Literal := ⟨⟨"holiday", []⟩, false⟩
    let fact : Rule := { head := some opened, id := 1 }
    let exception : Rule := { head := some opened.complement, body := [holiday], id := 2 }
    let reason : Rule := { head := some holiday, label := 1, id := 3 }
    let older : Program := { name := "older", rules := [fact] }
    let newer : Program := { name := "newer", rules := [exception, reason] }
    let sequence : UpdateSequence :=
      { settings := { scoreSolutions := false }, programs := [older, newer] }
    let st : Session := { sequence, solver := Solver.exact, next := 4 }
    st.Begun ∧ ∃ st₁ st₂, Course st 0 st₁ ∧ Resolves st₁ st₂ ∧ Course st 1 st₂ ∧
      totalWeight st₁.programs < totalWeight st₂.programs ∧
      (∀ n st', Course st n st' → n + 4 ≤ weightBound 2 3) ∧
      ¬ ∃ sts : Nat → Session, sts 0 = st ∧ (∀ k, ∃ o, Move (sts k) o (sts (k + 1))) ∧
        ∀ k, ∃ m, k ≤ m ∧ Resolves (sts m) (sts (m + 1)) := by
  intro opened holiday fact exception reason older newer sequence st
  have begun : st.Begun := .pair rfl
    ⟨some "open(shop).", "older", older, { nextId := 1 }, { nextId := 2 }, rfl, by decide,
      by decide, rfl⟩
    ⟨some "-open(shop) :- holiday. holiday.", "newer", newer, { nextId := 2 }, { nextId := 4 }, rfl,
      by decide, by decide, rfl⟩ (by decide) rfl
  have contradiction : UpdateSequence.Contradiction st.mark older newer fact exception
      [holiday, opened.complement] := by decide
  have one : modifications fact exception.toClause =
      [{ head := some opened, negBody := [holiday], id := 1 }] := by decide +kernel
  have none : modifications exception fact.toClause = [] := by decide +kernel
  obtain ⟨st₁, c, sol, course, same, reported, pair, offered, edit⟩ :=
    begun.tidy.offers_version contradiction one none rfl rfl rfl exact_exact
  have fresh : ¬ sol.Repeats st₁.programs := by
    rw [same, Solution.Repeats, edit.modifications, edit.additions]
    decide
  have tidy := (course.leads begun.tidy).1.tidy
  rcases run : (st₁.sequence.accept (some sol)).run st₁.solver { nextId := st₁.next } with
    ⟨⟨⟨o, u⟩, s⟩, g'⟩
  rcases (tidy.accept (tidy.suit c reported sol offered).like (Nat.le_refl _) run).2 with
    ⟨repeats, -⟩ | ⟨-, accepted, -⟩
  · exact absurd repeats fresh
  have resolves : Resolves st₁ (st₁.after o u s g') :=
    ⟨reported, offered, .refl, Nat.le_refl _, run, accepted⟩
  obtain ⟨bounded, endless⟩ := resolution_terminates begun
  refine ⟨begun, st₁, _, course, resolves, course.resolve resolves,
    (bounded 0 st₁ course).1 _ resolves, fun n st' course' => ?_, endless⟩
  obtain ⟨-, counted, bound⟩ := bounded n st' course'
  rw [show totalWeight st.programs = 4 by decide] at counted
  rw [show (Program.literalBase st.programs).length = 3 by decide] at bound
  exact Nat.le_trans counted bound

end

end CausalUpdate.Session
