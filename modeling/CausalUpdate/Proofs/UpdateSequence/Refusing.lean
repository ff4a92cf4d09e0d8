import CausalUpdate.Proofs.UpdateSequence.Session

/-!
# Refusals

Three requests would put a program into a sequence, and two would take a solution to it.  Each of
them can be refused, for reasons that come up at different depths.

* `Refuses` — what can be asked, and what is left when it is refused.
* `addProgram_refused`, `addByName_refused`, `accept_refused` — the requests one by one.
* `Refuses.eq_remains` — a refusal changes nothing, unless the sequence was to begin anew.
-/

namespace CausalUpdate.UpdateSequence

/-! ## Requests -/

/-- What can be asked of a sequence and may be refused. -/
inductive Request
  | add (program : Option Program) (relabel : Option Bool)
  | addByName (name : String)
  | setInitial (program : Option Program)
  | accept (solution : Option Solution)
  | preview (solution : Solution)

/-- The sequence without programs and without anything known about them. -/
def emptied (u : UpdateSequence) : UpdateSequence :=
  { u with programs := [], pristine := [], conflicts := [], answerSets := [], log := [] }

/-- The request is refused, and the sequence is then as it is said to be.  Looking ahead returns no
sequence at all. -/
inductive Refuses (u : UpdateSequence) : Request → UpdateSequence → Prop
  | add {program : Option Program} {relabel : Option Bool} {u' : UpdateSequence} {g g' : Ledger}
      (run : u.addProgram program relabel g = ((false, u'), g')) :
      Refuses u (.add program relabel) u'
  | addByName {name : String} {u' : UpdateSequence} {g g' : Ledger}
      (run : (u.addByName name).run g = (.ok (false, u'), g')) : Refuses u (.addByName name) u'
  | setInitial {program : Option Program} {u' : UpdateSequence} {g g' : Ledger}
      (run : u.setInitial program g = ((false, u'), g')) : Refuses u (.setInitial program) u'
  | accept {solution : Option Solution} {d : Detection} {u' : UpdateSequence} {s t : Solver}
      {g g' : Ledger} (run : (u.accept solution).run s g = (((.ok d, u'), t), g'))
      (invalid : d.status = "invalid_solution") : Refuses u (.accept solution) u'
  | preview {solution : Solution} {d : Detection} {s t : Solver} {g g' : Ledger}
      (run : (u.preview solution).run s g = ((.ok d, t), g'))
      (invalid : d.status = "invalid_solution") : Refuses u (.preview solution) u

/-- What a refused request leaves of a sequence. -/
def remains (u : UpdateSequence) : Request → UpdateSequence
  | .setInitial _ => u.emptied
  | _ => u

section

variable {u u' : UpdateSequence} {g g' : Ledger}

/-! ## Programs -/

lemma addProgram_refused {program : Option Program} {relabel : Option Bool}
    (run : u.addProgram program relabel g = ((false, u'), g')) :
    (∀ p, program = some p → p.isEmpty = true) ∧ u' = u := by
  cases (addProgram_outcome run).1 with
  | refused nothing => exact ⟨nothing, rfl⟩

lemma addByName_refused {name : String}
    (run : (u.addByName name).run g = (.ok (false, u'), g')) : u' = u := by
  rw [addByName] at run
  split at run
  · cases run
    rfl
  · obtain ⟨text, g₁, -, rest⟩ := Attempt.bind_ok run
    split at rest
    · cases rest
      rfl
    · obtain ⟨o, g₂, -, rest⟩ := Attempt.bind_ok rest
      split at rest
      · cases rest
        rfl
      · rename_i p
        have run : u.addProgram (some p) none g₂ = ((false, u'), g') := by
          rcases added : u.addProgram (some p) none g₂ with ⟨⟨b, v⟩, g₃⟩
          have rest : ((.ok (u.addProgram (some p) none g₂).1, (u.addProgram (some p) none g₂).2) :
              Except StoreFault _ × Ledger) = _ := rest
          rw [added] at rest
          cases rest
          rfl
        exact (addProgram_refused run).2

/-! ## Solutions -/

/-- An acceptance is refused before anything is changed. -/
lemma accept_refused {solution : Option Solution} {d : Detection} {s t : Solver}
    (run : (u.accept solution).run s g = (((.ok d, u'), t), g'))
    (invalid : d.status = "invalid_solution") : u' = u := by
  cases solution with
  | none =>
      obtain ⟨g₀, g₁, -, -, run⟩ := tracked_run run
      cases run
      rfl
  | some sol =>
      cases accept_outcome run with
      | empty _ => rfl
      | refused _ => rfl
      | applied _ _ _ detected => exact absurd invalid (detected.accepted d rfl)

/-- **A refusal changes nothing, unless the sequence was to begin anew.**  Whatever the sequence is
and whatever is asked of it, if the request is refused, then the sequence is what it was, with one
exception: a program that is refused as the first one is refused after the sequence has been
emptied. -/
theorem Refuses.eq_remains {r : Request} (refuses : u.Refuses r u') : u' = u.remains r := by
  cases refuses with
  | add run => exact (addProgram_refused run).2
  | addByName run => exact addByName_refused run
  | setInitial run => exact (addProgram_refused (u := u.emptied) run).2
  | accept run invalid => exact accept_refused run invalid
  | preview run invalid => rfl

/-- A sequence with one program, which is to begin anew with no rules: the program is lost.  If the
same program is to be added, it stays. -/
theorem eq_remains_of_fact :
    let fact : Program := { rules := [{ head := some ⟨⟨"a", []⟩, false⟩, id := 1 }] }
    let nothing : Program := { name := "empty" }
    let u : UpdateSequence := { programs := [fact], pristine := [fact] }
    u.Refuses (.setInitial (some nothing)) {} ∧ u.remains (.setInitial (some nothing)) = {} ∧
      u.Refuses (.add (some nothing) none) u ∧ u.remains (.add (some nothing) none) = u := by
  intro fact nothing u
  have initial : u.Refuses (.setInitial (some nothing)) {} := .setInitial (g := {}) rfl
  have added : u.Refuses (.add (some nothing) none) u := .add (g := {}) rfl
  exact ⟨initial, initial.eq_remains.symm, added, added.eq_remains.symm⟩

end

end CausalUpdate.UpdateSequence
