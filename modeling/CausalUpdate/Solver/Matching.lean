import CausalUpdate.Solver.Term

/-!
# Matching terms

A simplified term can be matched with a ground term, which binds its variables.  A linear
calculation is solved for its variable.  Any other calculation is put off until its variables are
bound by other terms.

* `Term.match?` — matching a term with a ground term.
* `Term.bindable` — the variables that are bound by matching.
-/

namespace CausalUpdate

namespace Term

/-! ## What is found -/

/-- What matching has found: a binding, and the values that calculations still have to have. -/
structure Found where
  binding : Binding := []
  pending : List (Term × GroundTerm) := []

/-- A variable bound to a ground term, unless it is bound to another one. -/
def Found.bind? (f : Found) (name : Slot) (t : GroundTerm) : Option Found :=
  match f.binding.lookup name with
  | none => some { f with binding := (name, t) :: f.binding }
  | some bound => if bound == t then some f else none

/-- Everything that was put off holds. -/
def Found.holds (f : Found) : Bool :=
  f.pending.all fun (t, g) => (t.values f.binding).contains g

/-! ## Matching -/

mutual

/-- A term matched with a ground term. -/
def match? (f : Found) (t : Term) (g : GroundTerm) : Option Found :=
  match t, g with
  | value v, g => if v == g then some f else none
  | place name, g => f.bind? name g
  | anonymous, _ => some f
  | compound name arguments, .compound false other items =>
    if name = other then matchAll? f arguments items else none
  | compound _ _, _ => none
  | opposite t, g => g.opposite?.bind fun g => match? f t g
  | linear l, g => (g.number?.bind l.solve?).bind fun n => f.bind? l.place (.number n)
  | t, g => some { f with pending := (t, g) :: f.pending }

/-- Terms matched with ground terms, one by one. -/
def matchAll? (f : Found) : List Term → List GroundTerm → Option Found
  | [], [] => some f
  | t :: ts, g :: gs => (match? f t g).bind fun f => matchAll? f ts gs
  | _, _ => none

end

mutual

def bindable : Term → List Slot
  | place name => [name]
  | linear l => [l.place]
  | compound _ arguments => bindableOfAll arguments
  | opposite t => bindable t
  | _ => []

/-- The variables that matching binds in some of the terms. -/
def bindableOfAll : List Term → List Slot
  | [] => []
  | t :: ts => bindable t ++ bindableOfAll ts

end

end Term

end CausalUpdate
