import CausalUpdate.Proofs.Solution.Placing
import CausalUpdate.Proofs.UpdateSequence.Session

/-!
# The tally of accepted operations

The programs are changed when a solution is accepted, and its operations are logged as the solution
gives them.  The tally is folded from the log alone, and so it tells what is in the programs only if
both have gone the same way.  They have for every identifier that is *free* whenever a rule is added
under it: the rule keeps the identifier, and it is the only one in the log that brings it in.

* `latest`, `Tally.listed` — what the log and the tally have under an identifier.
* `listed_tally` — the tally has what the log has last, but for deletions.
* `Mirrored`, `Reaches.mirrored` — what the log has last is in the programs.
* `tally_mirrors` — the rules of the tally are in the programs.
-/

namespace CausalUpdate.UpdateSequence

/-! ## Logs -/

/-- The latest of some operations on an identifier. -/
def latest (ops : List AppliedOperation) (id : Int) : Option AppliedOperation :=
  (ops.filter fun op => op.rule.id = id).getLast?

/-- The operations without deletions. -/
def bringing (ops : List AppliedOperation) : List AppliedOperation :=
  ops.filter fun op => op.kind ≠ .delete

section

variable {ops ops' : List AppliedOperation} {op o : AppliedOperation} {id : Int}

lemma latest_append (ops ops' : List AppliedOperation) (id : Int) :
    latest (ops ++ ops') id = (latest ops' id).or (latest ops id) := by
  rw [latest, List.filter_append, List.getLast?_append]
  rfl

lemma latest_singleton (op : AppliedOperation) (id : Int) :
    latest [op] id = if op.rule.id = id then some op else none := by
  by_cases same : op.rule.id = id <;> simp [latest, same]

lemma mem_of_latest (h : latest ops id = some op) : op ∈ ops ∧ op.rule.id = id := by
  have inside := List.mem_of_getLast? h
  simpa using inside

lemma latest_eq_none : latest ops id = none ↔ ∀ op ∈ ops, op.rule.id ≠ id := by
  rw [latest, List.getLast?_eq_none_iff, List.filter_eq_nil_iff]
  simp

/-- If the latest operation is no deletion, then it is also the latest without deletions. -/
lemma latest_bringing (h : latest ops id = some op) (brings : op.kind ≠ .delete) :
    latest (bringing ops) id = some op := by
  obtain ⟨front, split⟩ := List.getLast?_eq_some_iff.1 h
  have swap : (bringing ops).filter (fun op => op.rule.id = id) =
      bringing (ops.filter fun op => op.rule.id = id) := by
    simp only [bringing, List.filter_filter, Bool.and_comm]
  rw [latest, swap, split, bringing, List.filter_append]
  simp [brings]

/-- An operation that is not followed by deletions has left a rule under its identifier. -/
lemma exists_latest {before after : List AppliedOperation} (brings : op.kind ≠ .delete)
    (kept : ∀ o ∈ after, o.rule.id = op.rule.id → o.kind ≠ .delete) :
    ∃ o, latest (before ++ op :: after) op.rule.id = some o ∧ o.kind ≠ .delete := by
  have last : latest (before ++ op :: after) op.rule.id =
      (latest after op.rule.id).or (some op) := by
    rw [← List.singleton_append, latest_append, latest_append, latest_singleton, if_pos rfl]
    cases latest after op.rule.id <;> rfl
  cases later : latest after op.rule.id with
  | none => exact ⟨op, by rw [last, later]; rfl, brings⟩
  | some o =>
      obtain ⟨ho, same⟩ := mem_of_latest later
      exact ⟨o, by rw [last, later]; rfl, kept o ho same⟩

/-! ## Tallies -/

/-- The rules that the tally has under an identifier, other than deleted ones. -/
def Tally.listed (t : Tally) (id : Int) : List Rule :=
  t.additions.filter (fun r => r.id = id) ++ t.modifications.filter fun r => r.id = id

namespace Tally

variable {t : Tally} {r : Rule}

lemma mem_listed : r ∈ t.listed id ↔ (r ∈ t.additions ∨ r ∈ t.modifications) ∧ r.id = id := by
  simp [listed, or_and_right]

/-- A version goes to the place of the first addition with its identifier, or else behind the
modifications. -/
lemma record_modify (t : Tally) (modifies : op.kind = .modify) :
    (∃ before old after, t.additions = before ++ old :: after ∧ old.id = op.rule.id ∧
      t.record op = { t with additions := before ++ op.rule :: after }) ∨
    (∀ r ∈ t.additions, r.id ≠ op.rule.id) ∧ t.record op =
      { t with modifications :=
        (t.modifications.filter fun r => r.id ≠ op.rule.id) ++ [op.rule] } := by
  rw [record, modifies]
  cases found : t.additions.findIdx? fun r => r.id = op.rule.id with
  | none =>
      rw [List.findIdx?_eq_none_iff] at found
      exact Or.inr ⟨fun r hr => by simpa using found r hr, rfl⟩
  | some i =>
      obtain ⟨bound, same, -⟩ := List.findIdx?_eq_some_iff_getElem.1 found
      refine Or.inl ⟨t.additions.take i, t.additions[i], t.additions.drop (i + 1), ?_,
        by simpa using same, ?_⟩
      · rw [List.getElem_cons_drop, List.take_append_drop]
      · simp only
        rw [List.set_eq_take_append_cons_drop, if_pos bound]

lemma listed_record_of_delete (deletes : op.kind = .delete) :
    (t.record op).listed id = t.listed id := by
  rw [record, deletes]
  rfl

lemma listed_record_of_other (other : op.rule.id ≠ id) :
    (t.record op).listed id = t.listed id := by
  cases kind : op.kind with
  | add =>
      rw [record, kind]
      simp [listed, other]
  | modify =>
      rcases t.record_modify kind with ⟨before, old, after, split, same, e⟩ | ⟨-, e⟩
      · rw [e, listed, listed, split]
        simp [other, same]
      · have others : (t.modifications.filter fun r => r.id ≠ op.rule.id).filter
            (fun r => r.id = id) = t.modifications.filter fun r => r.id = id := by
          rw [List.filter_filter]
          refine List.filter_congr fun r _ => ?_
          by_cases same : r.id = id
          · simp [same, Ne.symm other]
          · simp [same]
        rw [e, listed, listed, List.filter_append, others]
        simp [other]
  | delete => exact listed_record_of_delete kind

lemma listed_record_of_add (none : t.listed id = []) (adds : op.kind = .add)
    (same : op.rule.id = id) : (t.record op).listed id = [op.rule] := by
  obtain ⟨additions, modifications⟩ := List.append_eq_nil_iff.1 none
  rw [record, adds, listed]
  simp [additions, modifications, same]

/-- If there is no more than one rule under the identifier, then a version takes its place. -/
lemma listed_record_of_modify {old? : Option Rule} (one : t.listed id = old?.toList)
    (modifies : op.kind = .modify) (same : op.rule.id = id) :
    (t.record op).listed id = [op.rule] := by
  rcases t.record_modify modifies with ⟨before, old, after, split, e, record⟩ | ⟨free, record⟩
  · rw [listed, split, List.filter_append, List.filter_cons_of_pos (by simp [e, same]),
      List.append_assoc] at one
    obtain ⟨front, rest⟩ : before.filter (fun r => r.id = id) = [] ∧
        after.filter (fun r => r.id = id) ++ t.modifications.filter (fun r => r.id = id) = [] := by
      cases old? with
      | none => simp at one
      | some r =>
          rcases List.append_eq_singleton_iff.1 one with ⟨front, rest⟩ | ⟨-, rest⟩
          · exact ⟨front, (List.cons.inj rest).2⟩
          · cases rest
    obtain ⟨back, modifications⟩ := List.append_eq_nil_iff.1 rest
    rw [record, listed]
    simp [front, back, modifications, same]
  · have additions : t.additions.filter (fun r => r.id = id) = [] :=
      List.filter_eq_nil_iff.2 fun r hr => by simpa [← same] using free r hr
    rw [record, listed]
    simp [additions, same, List.filter_filter]

end Tally

/-- Whenever a rule is added under the identifier, the operations before on the identifier are all
deletions. -/
def AddsOnce (id : Int) (ops : List AppliedOperation) : Prop :=
  ops.Pairwise fun o op => op.kind = .add → op.rule.id = id → o.rule.id = id → o.kind = .delete

/-- **The tally has what the log has last**, but for deletions. -/
theorem listed_tally (once : AddsOnce id ops) : (ops.foldl Tally.record {}).listed id =
    ((latest (bringing ops) id).map (·.rule)).toList := by
  induction ops using List.reverseRecOn with
  | nil => rfl
  | append_singleton ops op ih =>
      obtain ⟨once, -, first⟩ := List.pairwise_append.1 once
      have ih := ih once
      have last : latest (bringing (ops ++ [op])) id =
          (latest (bringing [op]) id).or (latest (bringing ops) id) := by
        rw [bringing, List.filter_append]
        exact latest_append _ _ id
      rw [List.foldl_append, List.foldl_cons, List.foldl_nil, last]
      by_cases same : op.rule.id = id
      · cases kind : op.kind with
        | add =>
            -- nothing has been brought in before
            have new : latest (bringing ops) id = none := by
              refine latest_eq_none.2 fun o ho e => ?_
              obtain ⟨ho, brings⟩ := List.mem_filter.1 ho
              exact of_decide_eq_true brings
                (first o ho op (List.mem_singleton.2 rfl) kind same e)
            rw [new] at ih
            rw [Tally.listed_record_of_add ih kind same]
            simp [bringing, kind, latest_singleton, same]
        | modify =>
            rw [Tally.listed_record_of_modify ih kind same]
            simp [bringing, kind, latest_singleton, same]
        | delete =>
            rw [Tally.listed_record_of_delete kind, ih]
            simp [bringing, kind, latest]
      · rw [Tally.listed_record_of_other same, ih]
        have none : latest (bringing [op]) id = none :=
          latest_eq_none.2 fun o ho => by
            rw [List.mem_singleton.1 (List.mem_of_mem_filter ho)]
            exact same
        rw [none]
        rfl

end

/-! ## Runs -/

variable {u u' : UpdateSequence} {id : Int}

/-- An addition under the identifier would keep it, and would be the first that the log has under
it, but for deletions. -/
def Free (u : UpdateSequence) (next : Nat) (sol : Solution) (id : Int) : Prop :=
  id ∉ sol.clashes next u.programs ∧
    ∀ r ∈ sol.additions, r.id = id → ∀ op ∈ u.log, op.rule.id = id → op.kind = .delete

instance (u : UpdateSequence) (next : Nat) (sol : Solution) (id : Int) :
    Decidable (u.Free next sol id) :=
  inferInstanceAs (Decidable (_ ∧ ∀ r ∈ sol.additions, _))

/-- The second sequence comes from the first one by adding programs, by detections, and by accepting
solutions that have been put together.  Whenever a rule is added under the identifier, this is
free.  An acceptance may be refused, and it may break off after the programs have been changed. -/
inductive Reaches (id : Int) (u : UpdateSequence) : UpdateSequence → Prop
  | refl : Reaches id u u
  | add {u₁ u₂ : UpdateSequence} {program : Option Program} {relabel : Option Bool} {added : Bool}
      {g g' : Ledger} (before : Reaches id u u₁)
      (run : u₁.addProgram program relabel g = ((added, u₂), g')) : Reaches id u u₂
  | detect {u₁ u₂ : UpdateSequence} {o : Except UpdateError Detection} {s t : Solver}
      {g g' : Ledger} (before : Reaches id u u₁) (run : u₁.detect.run s g = (((o, u₂), t), g')) :
      Reaches id u u₂
  | accept {u₁ u₂ : UpdateSequence} {sol : Solution} {o : Except UpdateError Detection}
      {s t : Solver} {g g' : Ledger} (before : Reaches id u u₁) (composed : sol.Composed)
      (free : u₁.Free g.nextId sol id)
      (run : (u₁.accept (some sol)).run s g = (((o, u₂), t), g')) : Reaches id u u₂

/-- Under the identifier, the log brings a rule in no more than once, and what it has last is in the
programs. -/
structure Mirrored (id : Int) (u : UpdateSequence) : Prop where
  once : AddsOnce id u.log
  live : ∀ op, latest u.log id = some op → op.kind ≠ .delete → op.rule ∈ rulesOf u.programs

namespace Mirrored

lemma of_rules (h : Mirrored id u) (log : u'.log = u.log)
    (rules : ∀ r ∈ rulesOf u.programs, r ∈ rulesOf u'.programs) : Mirrored id u' := by
  refine ⟨log ▸ h.once, fun op last brings => rules _ (h.live op ?_ brings)⟩
  rwa [← log]

lemma addProgram {program : Option Program} {relabel : Option Bool} {added : Bool} {g g' : Ledger}
    (h : Mirrored id u) (run : u.addProgram program relabel g = ((added, u'), g')) :
    Mirrored id u' := by
  cases (addProgram_outcome run).1 with
  | refused _ => exact h
  | admitted _ _ => exact h.of_rules rfl fun r hr => by simp [hr]

lemma of_mem_operationsOf {sol : Solution} {op : AppliedOperation} (h : op ∈ operationsOf sol) :
    (op.kind = .add ∧ op.rule ∈ sol.additions) ∨ (op.kind = .modify ∧ op.rule ∈ sol.modifications) ∨
      (op.kind = .delete ∧ op.rule ∈ sol.deletions) := by
  obtain ⟨⟨kind, r⟩, hr, rfl⟩ := List.mem_map.1 h
  cases kind <;>
    simpa [Solution.operations, OperationKind.all, Solution.chosenFor] using hr

/-- Applying a solution changes the programs as its operations say. -/
lemma apply {sol : Solution} {ps : List Program} {g g' : Ledger} (h : Mirrored id u)
    (composed : sol.Composed) (free : u.Free g.nextId sol id)
    (run : (sol.applyTo u.programs).run g = (.ok ps, g')) :
    Mirrored id { u with programs := ps, log := u.log ++ operationsOf sol } := by
  have distinct := composed.nodup_touched
  have touched : sol.touched = (operationsOf sol).map (·.rule.id) := by
    rw [Solution.touched, operationsOf, List.map_map]
    rfl
  obtain ⟨old, modified, added⟩ := Solution.applyTo_placed distinct run
  obtain ⟨own, first⟩ := free
  refine ⟨List.pairwise_append.2 ⟨h.once, ?_, fun o ho op hop adds e e' => ?_⟩,
    fun op last brings => ?_⟩
  · -- a solution has no two operations on one rule
    rw [touched] at distinct
    refine (List.pairwise_map.1 distinct).imp fun different _ e e' => ?_
    exact absurd (e'.trans e.symm) different
  · rcases of_mem_operationsOf hop with ⟨-, hr⟩ | ⟨kind, -⟩ | ⟨kind, -⟩
    · exact first _ hr e o ho e'
    · rw [kind] at adds
      cases adds
    · rw [kind] at adds
      cases adds
  · rw [show UpdateSequence.log _ = u.log ++ operationsOf sol from rfl, latest_append] at last
    cases new : latest (operationsOf sol) id with
    | some o =>
        rw [new] at last
        obtain rfl : o = op := Option.some.inj last
        obtain ⟨ho, rfl⟩ := mem_of_latest new
        rcases of_mem_operationsOf ho with ⟨-, hr⟩ | ⟨-, hr⟩ | ⟨kind, -⟩
        · exact added _ hr own
        · exact modified _ hr
        · exact absurd kind brings
    | none =>
        rw [new] at last
        obtain ⟨-, rfl⟩ := mem_of_latest last
        refine old _ (h.live op last brings) fun named => ?_
        rw [touched] at named
        obtain ⟨o, ho, e⟩ := List.mem_map.1 named
        exact latest_eq_none.1 new o ho e

end Mirrored

/-- What the log has last is in the programs, all along a run. -/
theorem Reaches.mirrored (h : Reaches id u u') (begun : u.log = []) : Mirrored id u' := by
  induction h with
  | refl =>
      refine ⟨begun ▸ List.Pairwise.nil, fun op last => ?_⟩
      rw [begun] at last
      cases last
  | add _ run ih => exact ih.addProgram run
  | detect _ run ih =>
      obtain ⟨_, -, detected⟩ := detect_outcome run
      exact ih.of_rules detected.log_eq fun r hr => detected.programs_eq ▸ hr
  | accept _ composed free run ih =>
      cases accept_outcome run with
      | empty _ => exact ih
      | refused _ => exact ih
      | applied began application _ detected =>
          rw [← began] at free
          refine (ih.apply composed free application).of_rules detected.log_eq fun r hr => ?_
          exact detected.programs_eq ▸ hr

/-- **The rules of the tally are in the programs.**  Begin with a sequence that has accepted
nothing, add programs to it, and accept solutions, whatever these add, modify and delete.  Let the
tally list a rule under its additions or modifications, and let the rule not have been deleted since
an operation brought it.  Then it is a rule of the programs as it stands, provided that its
identifier was free whenever a rule was added under it. -/
theorem tally_mirrors {r : Rule} {op : AppliedOperation} {before after : List AppliedOperation}
    (begun : u.log = []) (reaches : Reaches r.id u u')
    (listed : r ∈ u'.applied.additions ∨ r ∈ u'.applied.modifications)
    (logged : u'.log = before ++ op :: after) (brought : op.rule = r) (brings : op.kind ≠ .delete)
    (kept : ∀ o ∈ after, o.rule.id = r.id → o.kind ≠ .delete) : r ∈ rulesOf u'.programs := by
  subst brought
  have mirrored := reaches.mirrored begun
  obtain ⟨o, last, stays⟩ : ∃ o, latest (before ++ op :: after) op.rule.id = some o ∧
      o.kind ≠ .delete := exists_latest brings kept
  rw [← logged] at last
  have only : op.rule ∈ u'.applied.listed op.rule.id := Tally.mem_listed.2 ⟨listed, rfl⟩
  rw [applied, listed_tally mirrored.once, latest_bringing last stays] at only
  have same : op.rule = o.rule := by simpa using only
  rw [same]
  exact mirrored.live o last stays

/-- A rule is added to the only program and gets another version, which the tally lists under the
additions. -/
theorem tally_mirrors_version :
    let a : Literal := ⟨⟨"a", []⟩, false⟩
    let b : Literal := ⟨⟨"b", []⟩, false⟩
    let fact : Rule := { head := some a, id := 1 }
    let first : Rule := { head := some b, id := 2 }
    let version : Rule := { head := some b, negBody := [a], id := 2 }
    let u : UpdateSequence := {}
    let u' : UpdateSequence :=
      { programs := [{ rules := [fact, version] }], pristine := [{ rules := [fact] }],
        log := [⟨.add, first⟩, ⟨.modify, version⟩] }
    u.log = [] ∧ Reaches 2 u u' ∧ version ∈ u'.applied.additions ∧
      u'.log = [⟨.add, first⟩] ++ ⟨.modify, version⟩ :: [] ∧ version ∈ rulesOf u'.programs := by
  intro a b fact first version u u'
  let u₁ : UpdateSequence :=
    { programs := [{ rules := [fact] }], pristine := [{ rules := [fact] }] }
  let u₂ : UpdateSequence :=
    { u₁ with programs := [{ rules := [fact, first] }], log := [⟨.add, first⟩] }
  let addition : Solution := { additions := [first] }
  let modification : Solution := { modifications := [version] }
  have composed : addition.Composed := .choose (.begun (s := {}) rfl)
    (show Solution.choose {} .add first = .ok addition from rfl)
  have composed' : modification.Composed := .choose (.begun (s := {}) rfl)
    (show Solution.choose {} .modify version = .ok modification from rfl)
  have come : Reaches 2 u u₁ := .add .refl
    (show u.addProgram (some { rules := [fact] }) (some false) { nextId := 3 } =
      ((true, u₁), _) from rfl)
  have added : Reaches 2 u u₂ := .accept come composed (by decide)
    (show (u₁.accept (some addition)).run Solver.exact { nextId := 3 } = (((_, u₂), _), _) from rfl)
  have reaches : Reaches 2 u u' := .accept added composed' (by decide)
    (show (u₂.accept (some modification)).run Solver.exact { nextId := 3 } =
      (((_, u'), _), _) from rfl)
  have listed : version ∈ u'.applied.additions := by decide
  have logged : u'.log = [⟨.add, first⟩] ++ ⟨.modify, version⟩ :: [] := rfl
  exact ⟨rfl, reaches, listed, logged, tally_mirrors rfl reaches (Or.inl listed) logged rfl
    (by decide) fun _ ho => absurd ho List.not_mem_nil⟩

end CausalUpdate.UpdateSequence
