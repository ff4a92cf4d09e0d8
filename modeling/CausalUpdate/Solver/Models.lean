import CausalUpdate.Solver.Instances
import CausalUpdate.StableModel.Search

/-!
# The answer sets of a program

The program is read as its text: literals are told apart by how they are written.  A plain program
is taken as it stands; of any other one the rules stand for their instances.  A model is written as
the texts of its literals in order, separated by a comma and a blank, and the models are listed in
order.

* `Program.ground` — the rules of a plain program.
* `Program.grounding` — the rules of any program, or why there are none.
-/

namespace CausalUpdate

/-! ## Grounding -/

/-- Why a program cannot be grounded. -/
inductive GroundingFault
  /-- The text of the program cannot be read. -/
  | unreadable
  /-- The program has unbound variables. -/
  | unbound
deriving DecidableEq, Repr

def GroundingFault.message : GroundingFault → String
  | .unreadable => "parsing failed"
  | .unbound => "grounding stopped because of errors"

/-- The clause over the texts of its literals. -/
def Clause.ground (c : Clause) : GroundRule :=
  ⟨c.head.map Literal.text, c.body.map Literal.text, c.negBody.map Literal.text⟩

/-- The rules of a program over the texts of their literals. -/
def Program.ground (p : Program) : List GroundRule :=
  p.rules.map fun r => r.toClause.ground

/-- The ground rules that a program stands for. -/
def Program.grounding (p : Program) : Except GroundingFault (List GroundRule) :=
  if p.isPlain then .ok p.ground
  else
    match p.schemas? with
    | none => .error .unreadable
    | some rules =>
      let rules := rules.filterMap Schema.simplified?
      if rules.all Schema.isSafe then .ok (instancesOf rules) else .error .unbound

/-! ## Models -/

def sortTexts (texts : List String) : List String :=
  texts.mergeSort fun a b => a ≤ b

/-- A model as it is written. -/
def modelText (atoms : List String) : String :=
  String.intercalate ", " (sortTexts atoms)

/-- The answer sets of ground rules as they are written, in order. -/
def modelsOf (rules : List GroundRule) : List String :=
  sortTexts ((stableSets rules).map modelText)

end CausalUpdate
