import CausalUpdate.Conflict.Extract
import CausalUpdate.Detection.Basic
import CausalUpdate.Program.Parse
import CausalUpdate.Proofs.Work
import CausalUpdate.Solution.Apply
import CausalUpdate.Strategy.Basic

/-!
# The supply of identifiers

An identifier that has been handed out is never handed out again, whatever becomes of the work that
took it.  Work *grows* if the supply does not run back, and nearly all work does: it is enough to
look at its parts.
-/

namespace CausalUpdate

variable {ε ε' α β : Type}

/-! ## Work -/

/-- No identifier is given back. -/
def Work.Grows (x : Work α) : Prop :=
  ∀ g, g.nextId ≤ (x g).2.nextId

namespace Work.Grows

lemma pure (a : α) : Grows (Pure.pure a) :=
  fun g => Nat.le_refl g.nextId

lemma bind {x : Work α} {f : α → Work β} (hx : Grows x) (hf : ∀ a, Grows (f a)) :
    Grows (x >>= f) :=
  fun g => Nat.le_trans (hx g) (hf _ _)

lemma note (level : Level) (component message : String) :
    Grows (Work.note level component message) :=
  fun g => Nat.le_refl g.nextId

lemma began (component operation : String) : Grows (Work.began component operation) :=
  note _ _ _

lemma completed (component operation : String) : Grows (Work.completed component operation) :=
  note _ _ _

lemma failed (component operation : String) : Grows (Work.failed component operation) :=
  note _ _ _

lemma mint (c : Clause) (label : Int) : Grows (Rule.mint c label) :=
  fun g => Nat.le_succ g.nextId

lemma renumbered (r : Rule) : Grows r.renumbered :=
  fun g => Nat.le_succ g.nextId

end Work.Grows

/-! ## Work that may fail -/

/-- No identifier is given back, also not after a failure. -/
def Attempt.Grows (x : Attempt ε α) : Prop :=
  Work.Grows x.run

namespace Attempt.Grows

lemma of_run {x : Attempt ε α} (h : Grows x) {g g' : Ledger} {o : Except ε α}
    (run : x.run g = (o, g')) : g.nextId ≤ g'.nextId := by
  have grows := h g
  rwa [run] at grows

lemma pure (a : α) : Grows (Pure.pure a : Attempt ε α) :=
  Work.Grows.pure _

lemma throw (e : ε) : Grows (MonadExcept.throw e : Attempt ε α) :=
  Work.Grows.pure _

lemma bind {x : Attempt ε α} {f : α → Attempt ε β} (hx : Grows x) (hf : ∀ a, Grows (f a)) :
    Grows (x >>= f) := by
  intro g
  rw [run_bind]
  rcases h : x.run g with ⟨e | a, g'⟩
  · exact hx.of_run h
  · exact Nat.le_trans (hx.of_run h) (hf a g')

lemma lift {x : Work α} (hx : x.Grows) : Grows (liftM x : Attempt ε α) :=
  hx

lemma outcome {x : Attempt ε α} (hx : Grows x) :
    Grows (Attempt.outcome x : Attempt ε' (Except ε α)) :=
  hx

lemma of (x : Except ε α) : Grows (Attempt.of x) := by
  cases x <;> exact fun g => Nat.le_refl g.nextId

lemma adapt {x : Attempt ε α} (hx : Grows x) (wrap : ε → ε') : Grows (Attempt.adapt wrap x) :=
  hx

lemma mapM {f : α → Attempt ε β} (hf : ∀ a, Grows (f a)) (as : List α) : Grows (as.mapM f) := by
  induction as with
  | nil => exact pure _
  | cons a as ih =>
      rw [List.mapM_cons]
      exact (hf a).bind fun _ => ih.bind fun _ => pure _

end Attempt.Grows

/-! ## Programs -/

lemma mintAll_grows (label : Nat) (cs : List Clause) : (mintAll label cs).Grows := by
  induction cs generalizing label with
  | nil => exact .pure _
  | cons c cs ih => exact (Work.Grows.mint c label).bind fun _ => (ih _).bind fun _ => .pure _

namespace Program

lemma add_grows (p : Program) (r : Rule) : (p.add r).Grows := by
  unfold add
  split
  · exact .throw _
  · split
    · exact (Attempt.Grows.lift (.renumbered r)).bind fun _ => .pure _
    · exact .pure _

lemma addAll_grows (p : Program) (rs : List Rule) : (p.addAll rs).Grows := by
  induction rs generalizing p with
  | nil => exact .pure _
  | cons r rs ih => exact (p.add_grows r).bind fun q => ih q

lemma addPossible_grows (p : Program) (rs : List Rule) : (p.addPossible rs).Grows := by
  induction rs generalizing p with
  | nil => exact .pure _
  | cons r rs ih =>
      refine Work.Grows.bind (p.add_grows r) fun o => ?_
      split
      · exact ih _
      · exact (Work.Grows.note _ _ _).bind fun _ => ih _

lemma addUnrepeated_grows (p : Program) (rs : List Rule) : (p.addUnrepeated rs).Grows := by
  induction rs generalizing p with
  | nil => exact .pure _
  | cons r rs ih =>
      refine Work.Grows.bind (p.add_grows r) fun o => ?_
      split
      · exact ih _
      · exact (Work.Grows.note _ _ _).bind fun _ => ih _

lemma parse_grows (text : Option String) (name : String) : (parse text name).Grows := by
  have rules : ∀ t, (parseRules t).Grows := by
    intro t
    refine Attempt.Grows.bind (.lift (mintAll_grows 0 _)) fun _ => ?_
    split
    · exact .throw _
    · exact .pure _
  unfold parse
  split
  · exact .throw _
  · split
    · exact .throw _
    · refine (rules _).bind fun rs => ?_
      split
      · exact .throw _
      · exact .lift (addUnrepeated_grows _ _)

lemma absorb_grows (p : Program) (source : String) (rs : List Rule) :
    (p.absorb source rs).Grows := by
  induction rs generalizing p with
  | nil => exact .pure _
  | cons r rs ih =>
      refine (p.add_grows r).outcome.bind fun o => ?_
      split
      · exact ih _
      · exact (Attempt.Grows.lift (.note _ _ _)).bind fun _ => ih _
      · exact .throw _

lemma mergeInto_grows (p : Program) (qs : List Program) : (p.mergeInto qs).Grows := by
  induction qs generalizing p with
  | nil => exact .pure _
  | cons q qs ih => exact (p.absorb_grows q.name q.rules).bind fun m => ih m

lemma merge_grows (ps : List Program) (name : Option String) : (merge ps name).Grows := by
  cases ps with
  | nil => exact .throw _
  | cons p qs => exact mergeInto_grows _ qs

end Program

lemma buildUpdateProgram_grows (mark : Mark) (older newer : Program) :
    (buildUpdateProgram older newer mark).Grows := by
  refine (Work.Grows.began _ _).bind fun _ => Work.Grows.bind ?_ fun _ =>
    (Work.Grows.note _ _ _).bind fun _ => (Work.Grows.completed _ _).bind fun _ => .pure _
  exact (mintAll_grows _ _).bind fun _ => (Program.addPossible_grows _ _).bind fun _ => .pure _

/-! ## Answer sets and conflicts -/

lemma AnswerSet.parseAll_grows (models : List String) : (AnswerSet.parseAll models).Grows := by
  induction models with
  | nil => exact .pure _
  | cons m models ih =>
      unfold AnswerSet.parseAll
      split
      · exact ih.bind fun _ => .pure _
      · exact (Work.Grows.note _ _ _).bind fun _ => ih

lemma recordWitness_grows (older newer : Program) (cs : List Conflict) (l : Literal)
    (pair : Int × Int) (w : AnswerSet) : (recordWitness older newer cs l pair w).Grows := by
  unfold recordWitness
  split
  · exact .pure _
  · split
    · exact .pure _
    · exact (Work.Grows.note _ _ _).bind fun _ => .pure _

lemma recordAll_grows (mark : Mark) (older newer : Program) (cs : List Conflict)
    (xs : List (Literal × AnswerSet)) : (recordAll mark older newer cs xs).Grows := by
  induction xs generalizing cs with
  | nil => exact .pure _
  | cons x xs ih =>
      refine (Attempt.Grows.of _).bind fun o => ?_
      split
      · exact ih _
      · exact (Attempt.Grows.lift (recordWitness_grows _ _ _ _ _ _)).bind fun _ => ih _

lemma extractConflicts_grows (mark : Mark) (older newer : Program) (answerSets : List AnswerSet) :
    (extractConflicts older newer answerSets mark).Grows :=
  (recordAll_grows mark older newer [] _).bind fun _ =>
    (Attempt.Grows.lift (.note _ _ _)).bind fun _ => .pure _

/-! ## Solutions -/

lemma addToNewest_grows (rs : List Rule) (ps : List Program) : (addToNewest rs ps).Grows := by
  induction ps with
  | nil => exact .throw _
  | cons p ps ih =>
      cases ps with
      | nil => exact (p.addAll_grows rs).bind fun _ => .pure _
      | cons q ps => exact ih.bind fun _ => .pure _

lemma Solution.applyTo_grows (s : Solution) (ps : List Program) : (s.applyTo ps).Grows :=
  (addToNewest_grows s.additions ps).bind fun _ => (Attempt.Grows.of _).bind fun _ => .of _

/-! ## Strategies -/

lemma Attempt.Grows.collect {f : α → Attempt ε (Option β)} (hf : ∀ a, Grows (f a)) (as : List α) :
    Grows (Attempt.collect f as) := by
  induction as with
  | nil => exact pure _
  | cons a as ih => exact (hf a).bind fun _ => ih.bind fun _ => pure _

lemma findModifications_grows (rejected : Rule) (reference : Clause) :
    (findModifications rejected reference).Grows :=
  (Work.Grows.note _ _ _).bind fun _ => .pure _

lemma directSolution?_grows (rejected reference : Rule) :
    (directSolution? rejected reference).Grows := by
  refine (Attempt.Grows.lift (findModifications_grows _ _)).bind fun versions => ?_
  split
  · exact .pure _
  · exact ((Attempt.Grows.of _).adapt _).bind fun _ => .pure _

lemma excludeAll_grows (reference : Clause) (l : Literal) (s : Solution) (rs : List Rule) :
    (excludeAll reference l s rs).Grows := by
  induction rs generalizing s with
  | nil => exact .pure _
  | cons r rs ih =>
      refine (Attempt.Grows.lift (findModifications_grows _ _)).bind fun versions => ?_
      split
      · exact (Attempt.Grows.lift (.note _ _ _)).bind fun _ => .pure _
      · exact ((Attempt.Grows.of _).adapt _).bind fun _ => ih _

lemma indirectSolution?_grows (merged : Program) (c : Conflict) (rejected reference : Rule)
    (l : Literal) : (indirectSolution? merged c rejected reference l).Grows := by
  unfold indirectSolution?
  split
  · exact .pure _
  · exact excludeAll_grows _ _ _ _

lemma rejectionSolution?_grows (merged : Program) (rejected reference : Rule) (l : Literal) :
    (rejectionSolution? merged rejected reference l).Grows := by
  unfold rejectionSolution?
  split
  · exact .pure _
  · refine (Attempt.Grows.lift (.mint _ _)).bind fun _ => ?_
    exact ((Attempt.Grows.of _).adapt _).bind fun _ => .pure _

lemma Method.solutions_grows (ps : List Program) (c : Conflict) (m : Method) :
    (m.solutions ps c).Grows := by
  cases m with
  | direct => exact .collect (fun _ => directSolution?_grows _ _) _
  | indirect =>
      refine ((Program.merge_grows ps none).adapt _).bind fun merged => ?_
      exact (Attempt.Grows.mapM (fun _ => .collect (indirectSolution?_grows _ _ _ _) _) _).bind
        fun _ => .pure _
  | rejectionRule =>
      refine ((Program.merge_grows ps none).adapt _).bind fun merged => ?_
      exact (Attempt.Grows.mapM (fun _ => .collect (rejectionSolution?_grows _ _ _) _) _).bind
        fun _ => .pure _

lemma Strategy.apply_grows (s : Strategy) (ps : List Program) (c : Conflict) :
    (s.apply ps c).Grows :=
  (s.method.solutions_grows ps c).bind fun _ =>
    (Attempt.Grows.lift (.note _ _ _)).bind fun _ => .pure _

lemma Strategy.applyAll_grows (ps : List Program) (c : Conflict) (ss : List Strategy) :
    (Strategy.applyAll ps c ss).Grows := by
  induction ss generalizing c with
  | nil => exact .pure _
  | cons s ss ih => exact (s.apply_grows ps c).bind fun _ => ih _

end CausalUpdate
