import CausalUpdate.Solver.GroundTerm

/-!
# Terms with variables

A term with variables stands for the ground terms that come from it by putting ground terms for its
variables.  Calculations are carried out on the way, and an interval stands for each of its numbers,
so that a term can have any number of values under one binding: none if a calculation has no result.

* `Linear` — a variable times a factor, plus an offset.
* `Term.values` — the values of a term.
* `Term.patterns` — the values of a term with parts that stand for anything.
-/

namespace CausalUpdate

/-! ## Variables -/

/-- A variable.  A part of a term that is left unnamed is one as well, and is known by the way to
it. -/
inductive Slot
  | named (name : String)
  | unnamed (trail : List Nat)
deriving DecidableEq, Repr, Inhabited

/-- Ground terms by the variables that they are put for. -/
abbrev Binding := List (Slot × GroundTerm)

/-! ## Linear calculations -/

/-- A variable times a factor that is not zero, plus an offset. -/
structure Linear where
  place : Slot
  factor : Int
  offset : Int
deriving DecidableEq, Repr, Inhabited

namespace Linear

/-- The variable itself, as a number. -/
def ofSlot (place : Slot) : Linear :=
  ⟨place, 1, 0⟩

/-- The linear calculation times a number. -/
def scaled (l : Linear) (k : Int) : Linear :=
  { l with factor := wrapped (k * l.factor), offset := wrapped (k * l.offset) }

/-- The linear calculation with a number added. -/
def moved (l : Linear) (k : Int) : Linear :=
  { l with offset := wrapped (l.offset + k) }

/-- The result for a value of the variable. -/
def result (l : Linear) (n : Int) : Int :=
  wrapped (l.factor * n + l.offset)

/-- The value of the variable at which the calculation has some result. -/
def solve? (l : Linear) (n : Int) : Option Int :=
  let rise := wrapped (n - l.offset)
  if rise % l.factor = 0 then some (wrapped (rise / l.factor)) else none

end Linear

/-! ## Terms -/

inductive Term
  /-- A term without variables. -/
  | value (g : GroundTerm)
  /-- A variable. -/
  | place (name : Slot)
  /-- A term that stands for anything. -/
  | anonymous
  /-- A function with its arguments; a tuple has no name. -/
  | compound (name : String) (arguments : List Term)
  /-- A number or a function under the opposite sign. -/
  | opposite (t : Term)
  /-- A number with all its bits flipped. -/
  | flipped (t : Term)
  /-- A number without its sign. -/
  | magnitude (t : Term)
  | calculated (op : Operation) (left right : Term)
  /-- The numbers from one to another. -/
  | interval (first last : Term)
  /-- A linear calculation on a number. -/
  | linear (form : Linear)
  /-- The results of a function that is called.  There are no functions to call, and so there are no
  results either. -/
  | called (arguments : List Term)
deriving Repr, Inhabited

namespace Term

def number (n : Int) : Term :=
  value (.number n)

/-- The ground term that a term without variables is. -/
def ground? : Term → Option GroundTerm
  | value g => some g
  | _ => none

/-- A function with its arguments, as one value if the arguments are values. -/
def assembled (name : String) (arguments : List Term) : Term :=
  match arguments.mapM ground? with
  | some items => value (.compound false name items)
  | none => compound name arguments

/-! ## Values -/

/-- Every way of taking one item from each list. -/
def choices {α : Type} : List (List α) → List (List α)
  | [] => [[]]
  | items :: rest => items.flatMap fun a => (choices rest).map (a :: ·)

/-- The numbers from one to another. -/
def numbersFrom (first last : Int) : List Int :=
  (List.range (last + 1 - first).toNat).map fun (i : Nat) => first + i

def numbersOf (ts : List GroundTerm) : List Int :=
  ts.filterMap GroundTerm.number?

mutual

/-- The values of a term under a binding. -/
def values (b : Binding) : Term → List GroundTerm
  | value g => [g]
  | place name => (b.lookup name).toList
  | anonymous => []
  | compound name arguments =>
    (choices (valueLists b arguments)).map (GroundTerm.compound false name)
  | opposite t => (values b t).filterMap GroundTerm.opposite?
  | flipped t => (numbersOf (values b t)).map fun n => .number (bitsFlipped n)
  | magnitude t => (numbersOf (values b t)).map fun n => .number (withoutSign n)
  | calculated op left right =>
    (numbersOf (values b left)).flatMap fun m =>
      (numbersOf (values b right)).filterMap fun n => (op.result? m n).map .number
  | interval first last =>
    (numbersOf (values b first)).flatMap fun m =>
      (numbersOf (values b last)).flatMap fun n => (numbersFrom m n).map .number
  | linear l => (numbersOf (b.lookup l.place).toList).map fun n => .number (l.result n)
  | called _ => []

/-- The values of terms under a binding, one list for each. -/
def valueLists (b : Binding) : List Term → List (List GroundTerm)
  | [] => []
  | t :: ts => values b t :: valueLists b ts

end

mutual

/-- The values of a term under a binding, where parts of functions that stand for anything are
kept. -/
def patterns (b : Binding) : Term → List Term
  | anonymous => [anonymous]
  | compound name arguments => (choices (patternLists b arguments)).map (assembled name)
  | t => (values b t).map value

/-- The patterns of terms under a binding, one list for each. -/
def patternLists (b : Binding) : List Term → List (List Term)
  | [] => []
  | t :: ts => patterns b t :: patternLists b ts

end

/-! ## The variables of a term -/

mutual

def places : Term → List Slot
  | place name => [name]
  | linear l => [l.place]
  | compound _ arguments | called arguments => placesOfAll arguments
  | opposite t | flipped t | magnitude t => places t
  | calculated _ left right | interval left right => places left ++ places right
  | value _ | anonymous => []

def placesOfAll : List Term → List Slot
  | [] => []
  | t :: ts => places t ++ placesOfAll ts

end

end Term

end CausalUpdate
