import CausalUpdate.Rule.Basic
import CausalUpdate.Text.Quoted

/-!
# Solutions

A solution is an edit that may settle a conflict: rules to be added, new versions of rules, and
rules to be deleted.  Every rule identifier it touches has one *chosen* version, which belongs to
one of these three kinds; further versions of the same rule are kept as *variants*, and a variant
can take the place of the chosen version.

* `Solution.choose`, `Solution.addVariant`, `Solution.chooseVariant` — how one is built and changed.
* `Solution.operations` — the chosen versions with their kinds, in order.
-/

namespace CausalUpdate

/-! ## Kinds -/

inductive OperationKind
  | add
  | modify
  | delete
deriving DecidableEq, Repr, Inhabited

namespace OperationKind

/-- All kinds, in the order in which they are applied. -/
def all : List OperationKind :=
  [.add, .modify, .delete]

def name : OperationKind → String
  | .add => "add"
  | .modify => "modify"
  | .delete => "delete"

end OperationKind

/-! ## Failures -/

/-- Why a solution cannot be changed in some way. -/
inductive SolutionError
  /-- The rule has a chosen version. -/
  | alreadyChosen (id : Int)
  /-- The rule has no chosen version. -/
  | notChosen (id : Int)
  /-- No variant of the rule is equivalent to the clause. -/
  | notVariant (rule : Clause) (id : Int)
  /-- There is no kind of that name. -/
  | unknownKind (name : String)
deriving DecidableEq, Repr

def SolutionError.message : SolutionError → String
  | .alreadyChosen id => s!"Rule {id} already has a chosen version"
  | .notChosen id => s!"Rule {id} has no chosen version"
  | .notVariant rule id => s!"'{rule.text}' is not a variant of rule {id}"
  | .unknownKind name => s!"{Text.quoted name} is not a valid OperationType"

def OperationKind.ofName (name : String) : Except SolutionError OperationKind :=
  match all.find? fun k => k.name = name with
  | some k => .ok k
  | none => .error (.unknownKind name)

/-! ## Solutions -/

/-- How far a solution is from what it changes; a distance that cannot be computed is missing. -/
structure Score where
  /-- The distance between the answer sets before and after. -/
  answerSets : Option Nat := none
  /-- The number of literals that are changed. -/
  rules : Option Nat := none
deriving DecidableEq, Repr, Inhabited

structure Solution where
  /-- The rules that are added. -/
  additions : List Rule := []
  /-- The new versions of rules. -/
  modifications : List Rule := []
  /-- The rules that are deleted. -/
  deletions : List Rule := []
  /-- The versions that are not chosen, by rule identifier, in the order of their first arrival. -/
  variants : List (Int × List Rule) := []
  /-- The name of the strategy that found the solution. -/
  strategy : String := ""
  /-- The identifier of the rule of the conflict that the solution disables. -/
  rootRule : Option Int := none
  /-- The literal by which it is disabled, if there is one. -/
  target : Option Literal := none
  score : Option Score := none
deriving DecidableEq, Repr, Inhabited

namespace Solution

/-! ### Views -/

/-- The chosen versions of a kind. -/
def chosenFor (s : Solution) : OperationKind → List Rule
  | .add => s.additions
  | .modify => s.modifications
  | .delete => s.deletions

/-- The chosen versions with their kinds, in order. -/
def operations (s : Solution) : List (OperationKind × Rule) :=
  OperationKind.all.flatMap fun k => (s.chosenFor k).map fun r => (k, r)

def isEmpty (s : Solution) : Bool :=
  s.operations.isEmpty

/-- The identifiers of the chosen versions, in order. -/
def touched (s : Solution) : List Int :=
  s.operations.map fun o => o.2.id

/-- The chosen version of a rule, with its kind. -/
def operation? (s : Solution) (id : Int) : Option (OperationKind × Rule) :=
  s.operations.find? fun o => o.2.id = id

def variantsOf (s : Solution) (id : Int) : List Rule :=
  (s.variants.lookup id).getD []

/-- The solution as it is written. -/
def text (s : Solution) : String :=
  if s.isEmpty then "(no operations)"
  else String.intercalate "; " (s.operations.map fun (k, r) => k.name ++ " " ++ r.text)

/-! ### Building -/

/-- The solution with one more chosen version, whatever it touches already. -/
def push (s : Solution) (kind : OperationKind) (r : Rule) : Solution :=
  match kind with
  | .add => { s with additions := s.additions ++ [r] }
  | .modify => { s with modifications := s.modifications ++ [r] }
  | .delete => { s with deletions := s.deletions ++ [r] }

/-- Choose a version of a rule that has no chosen version yet. -/
def choose (s : Solution) (kind : OperationKind) (r : Rule) : Except SolutionError Solution :=
  if r.id ∈ s.touched then .error (.alreadyChosen r.id) else .ok (s.push kind r)

/-- Lists by identifier with one more rule in the list of its identifier. -/
def pushVariant (r : Rule) : List (Int × List Rule) → List (Int × List Rule)
  | [] => [(r.id, [r])]
  | (id, rs) :: rest =>
    if id = r.id then (id, rs ++ [r]) :: rest else (id, rs) :: pushVariant r rest

/-- Keep another version of a rule that has a chosen version. -/
def addVariant (s : Solution) (r : Rule) : Except SolutionError Solution :=
  if r.id ∈ s.touched then .ok { s with variants := pushVariant r s.variants }
  else .error (.notChosen r.id)

def addVariants (s : Solution) : List Rule → Except SolutionError Solution
  | [] => .ok s
  | r :: rs => do
    let s ← s.addVariant r
    s.addVariants rs

/-- Choose the first of several versions of a rule and keep the others as variants. -/
def chooseAmong (s : Solution) (kind : OperationKind) (first : Rule) (others : List Rule) :
    Except SolutionError Solution := do
  let s ← s.choose kind first
  s.addVariants others

/-! ### Swapping -/

/-- The rules with another version in the place of the one with the same identifier. -/
def replaceVersion (r : Rule) (rs : List Rule) : List Rule :=
  rs.map fun s => if s.id = r.id then r else s

/-- The solution with another chosen version of a rule that it touches. -/
def withChosen (s : Solution) (r : Rule) : Solution :=
  { s with
    additions := replaceVersion r s.additions
    modifications := replaceVersion r s.modifications
    deletions := replaceVersion r s.deletions }

/-- The solution with another list of variants of a rule. -/
def withVariantsOf (s : Solution) (id : Int) (rs : List Rule) : Solution :=
  { s with variants := s.variants.map fun v => if v.1 = id then (id, rs) else v }

/-- Let a version take the place of the chosen one.  The version that was chosen takes the place of
the first variant equivalent to the new one. -/
def chooseVariant (s : Solution) (r : Rule) : Except SolutionError Solution :=
  let alternatives := s.variantsOf r.id
  match alternatives.findIdx? fun v => v.toClause ≈ r.toClause, s.operation? r.id with
  | some i, some (_, old) => .ok ((s.withVariantsOf r.id (alternatives.set i old)).withChosen r)
  | _, _ => .error (.notVariant r.toClause r.id)

end Solution

end CausalUpdate
