import CausalUpdate.Proofs.Program.Reading
import CausalUpdate.Proofs.UpdateSequence.Accepting
import CausalUpdate.Proofs.UpdateSequence.Agreement

/-!
# Sessions

A session goes on by detections and by accepting what has been offered, in any order.  All along,
the programs are at work, their rules are only ever extended, and what is offered suits them.  A
pair of rules that is settled at some time is therefore never reported again, and a direct solution
settles its pair.

* `UpdateSequence.addProgram_outcome` — how programs come in.
* `Session.Step`, `Session.Run` — how a session goes on.
* `Session.Sound`, `Step.keeps` — what holds all along.
* `Session.settled_for_good` — what a direct solution achieves.
-/

namespace CausalUpdate

/-! ## Programs that come in -/

namespace UpdateSequence

lemma sameRules_incoming (u : UpdateSequence) (p : Program) (relabel : Option Bool) :
    SameRules (u.incoming p relabel) p := by
  rw [incoming]
  split
  · exact sameRules_relabelled _ _ _
  · rfl

/-- How it ends that a program is to come in: one without rules is turned away, and any other one
goes to the end. -/
inductive Admission (u : UpdateSequence) (program : Option Program) (relabel : Option Bool) :
    Bool → UpdateSequence → Prop
  | refused (nothing : ∀ p, program = some p → p.isEmpty = true) :
      Admission u program relabel false u
  | admitted {p : Program} (given : program = some p) (rules : p.isEmpty = false) :
      Admission u program relabel true
        { u with
          programs := u.programs ++ [u.incoming p relabel]
          pristine := u.pristine ++ [u.incoming p relabel] }

/-- **The ways in which it ends that a program is to come in.**  Nothing is taken from the
supply. -/
theorem addProgram_outcome {u u' : UpdateSequence} {program : Option Program}
    {relabel : Option Bool} {added : Bool} {g g' : Ledger}
    (run : u.addProgram program relabel g = ((added, u'), g')) :
    Admission u program relabel added u' ∧ g'.nextId = g.nextId := by
  cases program with
  | none =>
      cases run
      exact ⟨.refused fun p given => absurd given (by simp), rfl⟩
  | some p =>
      rw [addProgram, Option.filter_some] at run
      cases empty : p.isEmpty with
      | true =>
          rw [if_neg (by simp [empty])] at run
          cases run
          exact ⟨.refused fun q given => Option.some.inj given ▸ empty, rfl⟩
      | false =>
          rw [if_pos (by simp [empty])] at run
          cases run
          exact ⟨.admitted rfl empty, rfl⟩

lemma addProgram_programs {u u' : UpdateSequence} {p : Program} {relabel : Option Bool}
    {added : Bool} {g g' : Ledger} (run : u.addProgram (some p) relabel g = ((added, u'), g')) :
    u'.programs = u.programs ∨ u'.programs = u.programs ++ [u.incoming p relabel] := by
  cases (addProgram_outcome run).1 with
  | refused _ => exact Or.inl rfl
  | admitted given _ =>
      cases given
      exact Or.inr rfl

end UpdateSequence

/-! ## Sessions -/

/-- An update under way: the sequence, the solver, the supply of identifiers, and the conflicts that
were last reported of the programs as they are. -/
structure Session where
  sequence : UpdateSequence
  solver : Solver
  next : Nat
  offered : List Conflict := []

namespace Session

/-- The programs of the session as they are. -/
abbrev programs (st : Session) : List Program :=
  st.sequence.programs

/-- The mark of the detector. -/
abbrev mark (st : Session) : Mark :=
  st.sequence.mark

/-- The session after a change.  A change that reports nothing leaves the earlier offers as they
were, unless it has changed the programs. -/
def after (st : Session) (o : Except UpdateError Detection) (u : UpdateSequence) (s : Solver)
    (g : Ledger) : Session where
  sequence := u
  solver := s
  next := g.nextId
  offered :=
    match o with
    | .ok (.completed f) => f.conflicts
    | _ => if u.programs = st.programs then st.offered else []

@[simp] lemma after_programs (st : Session) (o : Except UpdateError Detection) (u : UpdateSequence)
    (s : Solver) (g : Ledger) : (st.after o u s g).programs = u.programs :=
  rfl

/-- What is offered after a change was reported with it, or is left from before. -/
lemma forall_offered_after {st : Session} {o : Except UpdateError Detection} {u : UpdateSequence}
    {s : Solver} {g : Ledger} {P : Conflict → Prop}
    (left : u.programs = st.programs → ∀ c ∈ st.offered, P c) (reported : ∀ c ∈ reports o, P c) :
    ∀ c ∈ (st.after o u s g).offered, P c := by
  have stays : ∀ c ∈ (if u.programs = st.programs then st.offered else []), P c := by
    split
    · rename_i same
      exact left same
    · exact fun c hc => absurd hc List.not_mem_nil
  rcases o with e | f | cause
  · exact stays
  · exact reported
  · exact stays

/-- A detection, or the acceptance of a solution that has been offered, after any number of swaps.
Other work may have taken identifiers in between. -/
inductive Step (st : Session) : Except UpdateError Detection → Session → Prop
  | detect {o : Except UpdateError Detection} {u : UpdateSequence} {s : Solver} {g g' : Ledger}
      (later : st.next ≤ g.nextId) (run : st.sequence.detect.run st.solver g = (((o, u), s), g')) :
      Step st o (st.after o u s g')
  | accept {c : Conflict} {sol sol' : Solution} {o : Except UpdateError Detection}
      {u : UpdateSequence} {s : Solver} {g g' : Ledger} (reported : c ∈ st.offered)
      (offered : sol ∈ c.solutions) (swapped : sol.Swapped sol') (later : st.next ≤ g.nextId)
      (run : (st.sequence.accept (some sol')).run st.solver g = (((o, u), s), g')) :
      Step st o (st.after o u s g')

/-- Any number of steps, with what comes out of each. -/
inductive Run : Session → List (Except UpdateError Detection) → Session → Prop
  | nil {st : Session} : Run st [] st
  | cons {st st₁ st₂ : Session} {o : Except UpdateError Detection}
      {os : List (Except UpdateError Detection)} (step : Step st o st₁) (rest : Run st₁ os st₂) :
      Run st (o :: os) st₂

/-- The session begins with programs that were read, share no identifier and use no reserved
predicate, and its solver lists nothing but models. -/
structure Opened (st : Session) : Prop where
  read : ∀ p ∈ st.programs, IsRead st.next p
  disjoint : st.programs.Pairwise fun p q => p.ids.Disjoint q.ids
  unreserved : ∀ l ∈ mentioned st.programs, l.atom.predicate ∉ st.mark.reservedPredicates
  solver : st.solver.Sound
  offered : st.offered = []

/-- What holds of a session all along. -/
structure Sound (st : Session) : Prop where
  live : Live st.mark st.next st.programs
  solver : st.solver.Sound
  offered : ∀ c ∈ st.offered, Reported st.next st.programs c

lemma Opened.sound {st : Session} (h : st.Opened) : st.Sound :=
  ⟨live_of_isRead h.read h.disjoint h.unreserved, h.solver,
    fun _ hc => absurd (h.offered ▸ hc) List.not_mem_nil⟩

/-- Two programs may be read one after the other. -/
lemma Opened.pair {st : Session} {older newer : Program} (programs : st.programs = [older, newer])
    (read : IsRead st.next older) (read' : IsRead st.next newer)
    (disjoint : ∀ id ∈ older.ids, id ∉ newer.ids)
    (unreserved : ∀ l ∈ mentioned [older, newer], l.atom.predicate ∉ st.mark.reservedPredicates)
    (solver : st.solver.Sound) (offered : st.offered = []) : st.Opened := by
  refine ⟨?_, ?_, ?_, solver, offered⟩ <;> rw [programs]
  · exact List.forall_mem_cons.2 ⟨read, by simpa using read'⟩
  · exact List.pairwise_pair.2 fun id => disjoint id
  · exact unreserved

/-- What a change does to a session: it stays sound, with the same detector, its rules are only
extended, nothing new is mentioned, and what is reported can fire. -/
structure Keeps (st : Session) (o : Except UpdateError Detection) (st' : Session) : Prop where
  sound : st'.Sound
  mark : st'.mark = st.mark
  grown : Grown st.programs st'.programs
  mentions : ∀ l ∈ mentioned st'.programs, l ∈ mentioned st.programs
  unblocked : ∀ c ∈ reports o, Unblocked st'.programs c

section

variable {st st₁ st₂ st' : Session} {o : Except UpdateError Detection}
  {os os' : List (Except UpdateError Detection)} {c : Conflict} {sol sol' : Solution}
  {u : UpdateSequence} {s : Solver} {g g' : Ledger} {pair : Int × Int}

/-- Offers that are left stand for the programs as they are. -/
lemma Sound.after (h : st.Sound) (mark : u.mark = st.mark) (live : Live st.mark g.nextId u.programs)
    (reply : s.reply = st.solver.reply) (grows : st.next ≤ g.nextId)
    (grown : Grown st.programs u.programs)
    (mentions : ∀ l ∈ mentioned u.programs, l ∈ mentioned st.programs)
    (reported : ∀ c ∈ reports o, Reported g.nextId u.programs c) :
    st.Keeps o (st.after o u s g) := by
  have offered : ∀ c ∈ (st.after o u s g).offered, Reported g.nextId u.programs c := by
    refine forall_offered_after (fun same c hc => ?_) reported
    rw [same]
    exact (h.offered c hc).mono grows
  rw [← mark] at live
  exact ⟨⟨live, h.solver.of_reply reply, offered⟩, mark, grown, mentions,
    fun c hc => (reported c hc).unblocked⟩

lemma Sound.detect (h : st.Sound) (later : st.next ≤ g.nextId)
    (run : st.sequence.detect.run st.solver g = (((o, u), s), g')) :
    st.Keeps o (st.after o u s g') := by
  obtain ⟨g₀, began, detected⟩ := UpdateSequence.detect_outcome run
  obtain ⟨reply, grows⟩ := st.sequence.detect_steady.of_run run
  have live := h.live.mono later
  rw [← began] at live
  have reported := detected.reported live h.solver
  have same := detected.programs_eq
  refine h.after detected.mark_eq ?_ reply (Nat.le_trans later grows) ?_ ?_ (same ▸ reported)
  · rw [same]
    exact h.live.mono (Nat.le_trans later grows)
  · rw [same]
    exact .refl _
  · rw [same]
    exact fun _ => id

/-- **Accepting a suitable solution** keeps what holds of a session. -/
theorem Sound.accept (h : st.Sound) (suits : Suits IsVersion st.next st.programs sol)
    (later : st.next ≤ g.nextId)
    (run : (st.sequence.accept (some sol)).run st.solver g = (((o, u), s), g')) :
    st.Keeps o (st.after o u s g') := by
  obtain ⟨reply, grows⟩ := (st.sequence.accept_steady _).of_run run
  have grows := Nat.le_trans later grows
  cases UpdateSequence.accept_outcome run with
  | empty _ =>
      exact h.after rfl (h.live.mono grows) reply grows (.refl _) (fun _ => id)
        fun c hc => absurd hc List.not_mem_nil
  | refused _ =>
      exact h.after rfl (h.live.mono grows) reply grows (.refl _) (fun _ => id)
        fun c hc => absurd hc List.not_mem_nil
  | applied began run noted detected =>
      have applied := suits.applied IsVersion.like h.live.toOrderly run
      have live := applied.live h.live
      have grown := applied.grown h.live.toOrderly
      have taken := (sol.applyTo_grows st.programs).of_run run
      have reported := detected.reported (live.mono (by omega)) h.solver
      have same := detected.programs_eq
      refine h.after detected.mark_eq ?_ reply grows ?_ ?_ (same ▸ reported)
      · rw [same]
        exact live.mono grows
      · rw [same]
        exact grown
      · rw [same]
        exact applied.mentioned_subset

/-- **Every step keeps what holds of a session.** -/
theorem Step.keeps (step : Step st o st') (h : st.Sound) : st.Keeps o st' := by
  cases step with
  | detect later run => exact h.detect later run
  | accept reported offered swapped later run =>
      have suits := (h.offered _ reported).suit _ offered
      exact h.accept (suits.swapped swapped) later run

lemma Run.sound (run : Run st os st') (h : st.Sound) : st'.Sound := by
  induction run with
  | nil => exact h
  | cons step _ ih => exact ih (step.keeps h).sound

lemma Run.mark_eq (run : Run st os st') (h : st.Sound) : st'.mark = st.mark := by
  induction run with
  | nil => rfl
  | cons step _ ih =>
      have keeps := step.keeps h
      exact (ih keeps.sound).trans keeps.mark

lemma Run.mentions (run : Run st os st') (h : st.Sound) :
    ∀ l ∈ mentioned st'.programs, l ∈ mentioned st.programs := by
  induction run with
  | nil => exact fun _ => id
  | cons step _ ih =>
      have keeps := step.keeps h
      exact fun l hl => keeps.mentions l (ih keeps.sound l hl)

/-! ## Settled pairs -/

lemma Keeps.unreported (h : st.Keeps o st') (settled : Settled st'.programs pair) :
    ∀ c ∈ reports o, c.pair ≠ pair :=
  fun c hc => settled.unreported h.sound.live (h.unblocked c hc)

/-- **Settled pairs are never reported again.** -/
theorem Run.unreported (run : Run st os st') (h : st.Sound) (settled : Settled st.programs pair) :
    ∀ o ∈ os, ∀ c ∈ reports o, c.pair ≠ pair := by
  induction run with
  | nil => exact fun o ho => absurd ho List.not_mem_nil
  | cons step _ ih =>
      have keeps := step.keeps h
      have settled := settled.grown keeps.grown
      exact List.forall_mem_cons.2 ⟨keeps.unreported settled, ih keeps.sound settled⟩

/-- A direct solution that is accepted settles the two rules. -/
lemma Sound.settles (h : st.Sound) {rejected reference : Rule}
    (rejects : sol.Rejects rejected reference) (hrejected : rejected ∈ rulesOf st.programs)
    (hreference : reference ∈ rulesOf st.programs)
    (run : (st.sequence.accept (some sol)).run st.solver g = (((o, u), s), g'))
    (accepted : UpdateSequence.Accepted o) :
    Settled u.programs (rejected.id, reference.id) := by
  cases UpdateSequence.accept_outcome run with
  | empty _ => exact absurd rfl (accepted _ rfl)
  | refused _ => exact absurd rfl (accepted _ rfl)
  | applied began applied noted detected =>
      rw [detected.programs_eq]
      exact rejects.settles h.live hrejected hreference applied

/-- **Direct solutions settle their pair for good.**  Let a session begin with programs that were
read, and let a conflict be reported in it.  If a direct solution of it is accepted, whichever of
its versions has been swapped in, then neither the detection that follows nor any later one in the
session reports the two rules again. -/
theorem settled_for_good {found : List Solution} {scored : Solution} {g₀ g₁ : Ledger}
    (opened : st.Opened) (before : Run st os st₁) (reported : c ∈ st₁.offered)
    (direct : (directSolutions c).run g₀ = (.ok found, g₁)) (member : sol ∈ found)
    (same : scored.SameEdit sol) (swapped : scored.Swapped sol') (later : st₁.next ≤ g.nextId)
    (run : (st₁.sequence.accept (some sol')).run st₁.solver g = (((o, u), s), g'))
    (accepted : UpdateSequence.Accepted o) (onward : Run (st₁.after o u s g') os' st₂) :
    ∀ o' ∈ o :: os', ∀ c' ∈ reports o', c'.pair ≠ c.pair := by
  have sound := before.sound opened.sound
  obtain ⟨⟨ha, hb, -⟩, -⟩ := sound.offered c reported
  have final : ∀ {a b : Rule}, sol.Rejects a b → a ∈ rulesOf st₁.programs →
      b ∈ rulesOf st₁.programs →
      st₁.Keeps o (st₁.after o u s g') ∧ Settled u.programs (a.id, b.id) := by
    intro a b rejects ha hb
    have rejects := (rejects.of_sameEdit same).swapped swapped
    exact ⟨sound.accept (rejects.suits ha hb) later run,
      sound.settles rejects ha hb run accepted⟩
  have kept : st₁.Keeps o (st₁.after o u s g') ∧ Settled u.programs c.pair := by
    rcases directSolutions_rejects direct sol member with rejects | rejects
    · exact final rejects ha hb
    · exact (final rejects hb ha).imp id Settled.symm
  obtain ⟨keeps, settled⟩ := kept
  have settled : Settled (st₁.after o u s g').programs c.pair := settled
  exact List.forall_mem_cons.2 ⟨keeps.unreported settled, onward.unreported keeps.sound settled⟩

/-- Where solutions are not scored, a contradiction that an accepted solution leads to is reported,
with what the strategies find for it. -/
lemma Sound.accept_offers (h : st.Sound) {older newer : Program} {a b : Rule} {ls : List Literal}
    (suits : Suits IsVersion st.next st.programs sol)
    (applies : ∀ g, (sol.applyTo st.programs).run g = (.ok [older, newer], g))
    (contradiction : UpdateSequence.Contradiction st.mark older newer a b ls)
    (unscored : st.sequence.settings.scoreSolutions = false) (exact : st.solver.Exact)
    (later : st.next ≤ g.nextId)
    (run : (st.sequence.accept (some sol)).run st.solver g = (((o, u), s), g')) :
    ∃ f, o = .ok (.completed f) ∧ u.programs = [older, newer] ∧
      ∃ c ∈ f.conflicts, c.older = a ∧ c.newer = b ∧ ∀ strategy ∈ st.sequence.automatic,
        ∃ found g₁ g₂, (strategy.method.solutions [older, newer] c).run g₁ = (.ok found, g₂) ∧
          ∀ t ∈ found, ∃ sol ∈ c.solutions, sol.SameEdit t := by
  cases UpdateSequence.accept_outcome run with
  | empty empty =>
      rw [suits.not_isEmpty] at empty
      cases empty
  | refused refusal =>
      rw [applies] at refusal
      cases refusal
  | applied began application noted detected =>
      have applied := suits.applied IsVersion.like h.live.toOrderly application
      have orderly := applied.like.orderly h.live.toOrderly
      rw [applies] at application
      cases application
      obtain ⟨f, rfl, found⟩ :=
        detected.offers contradiction rfl unscored exact (orderly.mono (by omega))
      exact ⟨f, rfl, detected.programs_eq, found⟩

/-- Two facts with an exception to each of them.  Once the first fact has been settled, the session
goes on with the second one and then detects again. -/
theorem settled_for_good_exception :
    let fly : Literal := ⟨⟨"fly", ["tweety"]⟩, false⟩
    let sing : Literal := ⟨⟨"sing", ["tweety"]⟩, false⟩
    let well : Literal := ⟨⟨"well", []⟩, false⟩
    let flies : Rule := { head := some fly, id := 1 }
    let sings : Rule := { head := some sing, label := 1, id := 2 }
    let grounded : Rule := { head := some fly.complement, negBody := [well], id := 3 }
    let silent : Rule := { head := some sing.complement, negBody := [well], label := 1, id := 4 }
    let older : Program := { name := "older", rules := [flies, sings] }
    let newer : Program := { name := "newer", rules := [grounded, silent] }
    let sequence : UpdateSequence :=
      { settings := { scoreSolutions := false }, programs := [older, newer] }
    let st : Session := { sequence, solver := Solver.exact, next := 5 }
    st.Opened ∧ ∃ o₁ st₁ c found g₁ direct sol g o u s g', Run st [o₁] st₁ ∧ c ∈ st₁.offered ∧
      c.pair = (1, 3) ∧ (directSolutions c).run {} = (.ok found, g₁) ∧ direct ∈ found ∧
      sol ∈ c.solutions ∧ sol.SameEdit direct ∧ st₁.next ≤ g.nextId ∧
      (st₁.sequence.accept (some sol)).run st₁.solver g = (((o, u), s), g') ∧
      UpdateSequence.Accepted o ∧ ∃ c₂ sol₂ o₂ u₂ s₂ g₂ o₃ st₃,
        c₂ ∈ reports o ∧ c₂.pair = (2, 4) ∧ sol₂ ∈ c₂.solutions ∧
        (u.accept (some sol₂)).run s g' = (((o₂, u₂), s₂), g₂) ∧ UpdateSequence.Accepted o₂ ∧
        Run (st₁.after o u s g') [o₂, o₃] st₃ ∧
        ∀ o' ∈ [o, o₂, o₃], ∀ c' ∈ reports o', c'.pair ≠ (1, 3) := by
  intro fly sing well flies sings grounded silent older newer sequence st
  let healthy : Rule := { head := some fly, body := [well], id := 1 }
  let cheerful : Rule := { head := some sing, body := [well], label := 1, id := 2 }
  let older₂ : Program := { older with rules := [healthy, sings] }
  let older₃ : Program := { older with rules := [healthy, cheerful] }
  have opened : st.Opened := .pair rfl
    ⟨some "fly(tweety). sing(tweety).", "older", older, { nextId := 1 }, { nextId := 3 }, rfl,
      by decide, by decide, rfl⟩
    ⟨some "-fly(tweety) :- not well. -sing(tweety) :- not well.", "newer", newer, { nextId := 3 },
      { nextId := 5 }, rfl, by decide, by decide, rfl⟩
    (by decide) (by decide) exact_exact.sound rfl
  -- the first conflict, and what is offered for it
  have contradiction : UpdateSequence.Contradiction st.mark older newer flies grounded
      [fly.complement, sing.complement] := by decide
  obtain ⟨f, u₁, s₁, g₁, run₁, same, c, hc, ho, hn, found⟩ := UpdateSequence.detect_offers
    (u := sequence) (g := { nextId := 5 }) contradiction rfl rfl exact_exact
    opened.sound.live.toOrderly
  have one : modifications c.older c.newer.toClause = [healthy] := by
    rw [ho, hn]
    decide +kernel
  have none : modifications c.newer c.older.toClause = [] := by
    rw [ho, hn]
    decide +kernel
  obtain ⟨sol, hs, edit⟩ := UpdateSequence.exists_version_of_found found (by decide) one none
  obtain ⟨g₂, direct⟩ := directSolutions_of_one one none {}
  let st₁ := st.after (.ok (.completed f)) u₁ s₁ g₁
  have before : Run st [.ok (.completed f)] st₁ := .cons (.detect (Nat.le_refl _) run₁) .nil
  have sound₁ := before.sound opened.sound
  obtain ⟨_, -, detected⟩ := UpdateSequence.detect_outcome run₁
  have exact₁ : s₁.Exact := exact_exact.of_reply (sequence.detect_steady.of_run run₁).1
  -- it is accepted, and the second conflict is reported
  rcases accepting : (u₁.accept (some sol)).run s₁ g₁ with ⟨⟨⟨o, u⟩, s⟩, g'⟩
  have applies : ∀ g, (sol.applyTo st₁.programs).run g = (.ok [older₂, newer], g) := by
    intro g
    rw [edit.applyTo_eq, show st₁.programs = [older, newer] from same]
    rfl
  have contradiction₂ : UpdateSequence.Contradiction st₁.mark older₂ newer sings silent
      [fly.complement, sing.complement] := by
    rw [before.mark_eq opened.sound]
    decide
  have suits := (sound₁.offered c hc).suit sol hs
  obtain ⟨f₂, rfl, same₂, c₂, hc₂, ho₂, hn₂, found₂⟩ := sound₁.accept_offers suits applies
    contradiction₂ (congrArg UpdateSettings.scoreSolutions detected.settings_eq) exact₁
    (Nat.le_refl _) accepting
  have accepted := (UpdateSequence.accept_outcome accepting).accepted suits.not_isEmpty
    fun g => ⟨_, g, applies g⟩
  have automatic : (⟨.direct, false⟩ : Strategy) ∈ u₁.automatic := by
    rw [UpdateSequence.automatic, detected.strategies_eq]
    decide
  obtain ⟨sol₂, hs₂, edit₂⟩ := UpdateSequence.exists_version_of_found (v := cheerful) found₂
    automatic (by rw [ho₂, hn₂]; decide +kernel) (by rw [ho₂, hn₂]; decide +kernel)
  -- the session goes on with the second conflict
  rcases accepting₂ : (u.accept (some sol₂)).run s g' with ⟨⟨⟨o₂, u₂⟩, s₂⟩, g₃⟩
  have applies₂ : ∀ g, (sol₂.applyTo u.programs).run g = (.ok [older₃, newer], g) := by
    intro g
    rw [edit₂.applyTo_eq, same₂]
    rfl
  have sound₂ := (sound₁.accept suits (Nat.le_refl _) accepting).sound
  have suits₂ := (sound₂.offered c₂ hc₂).suit sol₂ hs₂
  have accepted₂ := (UpdateSequence.accept_outcome accepting₂).accepted suits₂.not_isEmpty
    fun g => ⟨_, g, applies₂ g⟩
  rcases again : u₂.detect.run s₂ g₃ with ⟨⟨⟨o₃, u₃⟩, s₃⟩, g₄⟩
  have onward : Run (st₁.after (.ok (.completed f₂)) u s g') [o₂, o₃] _ :=
    .cons (.accept hc₂ hs₂ .refl (Nat.le_refl _) accepting₂)
      (.cons (.detect (Nat.le_refl _) again) .nil)
  have final := settled_for_good opened before hc direct (List.mem_singleton.2 rfl)
    (edit.trans ⟨rfl, rfl, rfl, rfl⟩) .refl (Nat.le_refl _) accepting accepted onward
  have pair : c.pair = (1, 3) := by rw [Conflict.pair, ho, hn]
  rw [pair] at final
  exact ⟨opened, _, st₁, c, _, g₂, _, sol, g₁, _, u, s, g', before, hc, pair, direct,
    List.mem_singleton.2 rfl, hs, edit.trans ⟨rfl, rfl, rfl, rfl⟩, Nat.le_refl _, accepting,
    accepted, c₂, sol₂, o₂, u₂, s₂, g₃, o₃, _, hc₂, by rw [Conflict.pair, ho₂, hn₂], hs₂,
    accepting₂, accepted₂, onward, final⟩

end

end Session

end CausalUpdate
