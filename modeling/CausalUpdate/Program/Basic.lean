import CausalUpdate.Rule.Basic

/-!
# Programs

A program is a named, ordered list of rules.  Nothing about the list is assumed here: the operations
of `CausalUpdate.Program.Edit` are what keep identifiers distinct and equivalent rules out.

* `nextFreeLabel`, `Program.relabelled` — labels that nobody uses yet.
* `LiteralIndex`, `Program.index` — which rules mention which literals.
* `Program.find?`, `Program.findEqual?`, `Program.rulesWithHead` — queries.
* `Program.source`, `Program.listing` — the two ways a program is written.
-/

namespace CausalUpdate

/-- A named, ordered list of rules. -/
structure Program where
  name : String := "program"
  rules : List Rule := []
deriving DecidableEq, Repr, Inhabited

/-! ## Labels -/

/-- The taken labels without one of them. -/
def releaseLabel (taken : List Int) (label : Int) : List Int :=
  taken.filter fun l => l ≠ label

theorem length_releaseLabel_lt {taken : List Int} {label : Int} (h : label ∈ taken) :
    (releaseLabel taken label).length < taken.length :=
  List.length_filter_lt_length_iff_exists.2 ⟨label, h, by simp⟩

/-- The first label from `start` upwards that is not taken.  A label that has been passed need not
be looked at again, so the taken labels become fewer with every step. -/
def nextFreeLabel (taken : List Int) (start : Int) : Int :=
  if h : start ∈ taken then nextFreeLabel (releaseLabel taken start) (start + 1) else start
termination_by taken.length
decreasing_by exact length_releaseLabel_lt h

/-- Rules under the first free labels from `start` upwards, each above the one before. -/
def relabel (taken : List Int) (start : Int) : List Rule → List Rule
  | [] => []
  | r :: rs =>
    let label := nextFreeLabel taken start
    r.withLabel label :: relabel (label :: taken) label rs

/-! ## Mentions of literals -/

/-- Literals with the identifiers of rules that mention them.  Equivalent literals share an entry,
which has the literal that came first. -/
abbrev LiteralIndex := List (Literal × List Int)

namespace LiteralIndex

/-- The identifiers with one more at their end, unless it is there. -/
def withId (ids : List Int) (id : Int) : List Int :=
  if id ∈ ids then ids else ids ++ [id]

/-- The index with one more mention; a literal that is new to it gets an entry at the end. -/
def note (id : Int) (l : Literal) : LiteralIndex → LiteralIndex
  | [] => [(l, [id])]
  | (m, ids) :: entries =>
    if l ≈ m then (m, withId ids id) :: entries else (m, ids) :: note id l entries

/-- The index with the mentions of one more rule. -/
def noteRule (index : LiteralIndex) (r : Rule) : LiteralIndex :=
  r.literals.foldl (fun index l => note r.id l index) index

/-- The index of rules, taken in one pass over them. -/
def ofRules (rs : List Rule) : LiteralIndex :=
  rs.foldl noteRule []

/-- The identifiers in the entry of a literal, none if it has no entry. -/
def idsOf (index : LiteralIndex) (l : Literal) : List Int :=
  match index.find? fun entry => l ≈ entry.1 with
  | some entry => entry.2
  | none => []

end LiteralIndex

namespace Program

/-! ## Queries -/

def size (p : Program) : Nat :=
  p.rules.length

def isEmpty (p : Program) : Bool :=
  p.rules.isEmpty

/-- The identifiers of the rules, in order. -/
def ids (p : Program) : List Int :=
  p.rules.map Rule.id

/-- The first rule with an identifier. -/
def find? (p : Program) (id : Int) : Option Rule :=
  p.rules.find? fun r => r.id = id

/-- The first rule with a label. -/
def findLabel? (p : Program) (label : Int) : Option Rule :=
  p.rules.find? fun r => r.label = label

/-- The first rule equivalent to a clause. -/
def findEqual? (p : Program) (c : Clause) : Option Rule :=
  p.rules.find? fun r => r.toClause ≈ c

/-- The rules whose head is equivalent to a literal, in order. -/
def rulesWithHead (p : Program) (l : Literal) : List Rule :=
  p.rules.filter fun r => r.Derives l

/-- The literals of the program in order of first appearance, the first of equivalent ones. -/
def literals (p : Program) : List Literal :=
  Literal.distinct (p.rules.flatMap fun r => r.literals)

/-- Every literal of the program with the identifiers of the rules that mention it. -/
def index (p : Program) : LiteralIndex :=
  LiteralIndex.ofRules p.rules

/-- The identifiers of the rules that mention a literal, in order and without repetition. -/
def mentioning (p : Program) (l : Literal) : List Int :=
  p.index.idsOf l

/-- The literals of several programs in order of first appearance. -/
def literalBase (ps : List Program) : List Literal :=
  Literal.distinct (ps.flatMap literals)

/-- The programs have the same name and equivalent rules in the same order. -/
def Equiv (p q : Program) : Prop :=
  p.name = q.name ∧ p.rules.length = q.rules.length ∧
    ∀ rs ∈ p.rules.zip q.rules, rs.1.toClause ≈ rs.2.toClause

instance (p q : Program) : Decidable (p.Equiv q) :=
  inferInstanceAs (Decidable (_ ∧ _ ∧ _))

/-! ## Names and labels -/

def renamed (p : Program) (name : String) : Program :=
  { p with name }

/-- The program with new labels, from `start` upwards, that no reserved rule has. -/
def relabelled (p : Program) (start : Int) (reserved : List Rule) : Program :=
  { p with rules := relabel (reserved.map Rule.label) start p.rules }

/-- The program with one more rule at its end. -/
def push (p : Program) (r : Rule) : Program :=
  { p with rules := p.rules ++ [r] }

/-! ## Text -/

/-- The rules as they are written, one to a line. -/
def source (p : Program) : String :=
  String.intercalate "\n" (p.rules.map fun r => r.text)

/-- The name as a comment, and every rule behind its label. -/
def listing (p : Program) : String :=
  String.intercalate "\n"
    (("% " ++ p.name) :: p.rules.map fun r => "r" ++ toString r.label ++ ": " ++ r.text)

end Program

end CausalUpdate
