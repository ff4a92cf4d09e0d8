import CausalUpdate.Program.Parse

/-!
# The update program

An older and a newer program are compiled into one program whose answer sets tell which rules of the
older one give way to the newer one.  Every literal has two copies, and each program derives into
the copy of its own: what holds in the newer copy holds in the older one, and what holds there
holds.  A rule of the older program is *rejected*, and so cannot fire, while a rule of the newer
program with the complementary head is *active*, that is, while its bodies hold.  Every rejection is
recorded together with its *cause*, the pair of rules.  The predicates that say so end in the mark
of the detector, which is a parameter throughout.

* `Mark` — the marks that a detector can have.
* `updateClauses` — what the update program says, in the order in which its rules are numbered.
* `updateProgram` — the update program itself.
-/

namespace CausalUpdate

/-! ## Reserved predicates -/

/-- What a detector keeps its reserved predicates apart from others with: eight hexadecimal digits,
drawn when the detector is made. -/
structure Mark where
  text : String
  length_text : text.length = 8
  digits : ∀ c ∈ text.toList, c ∈ "0123456789abcdef".toList
deriving DecidableEq, Repr

namespace Mark

/-- No mark is preferred to another one; this one serves where none was drawn. -/
instance : Inhabited Mark :=
  ⟨"0a1b2c3d", by decide, by simp⟩

/-- The predicate of rejected rules. -/
def rejectedPredicate (mark : Mark) : String :=
  "rej_" ++ mark.text

/-- The predicate of pairs of an older rule that would fire and a newer rule that rejects it. -/
def causePredicate (mark : Mark) : String :=
  "rej_cause_" ++ mark.text

/-- The predicate of newer rules whose bodies hold. -/
def activePredicate (mark : Mark) : String :=
  "active_" ++ mark.text

end Mark

/-- What stands behind the predicates of the older copy. -/
def olderSuffix : String := "_1"

/-- What stands behind the predicates of the newer copy. -/
def newerSuffix : String := "_2"

namespace Rule

/-- The literal that says that the rule is rejected. -/
def rejected (mark : Mark) (a : Rule) : Literal :=
  ⟨⟨mark.rejectedPredicate, [a.constant]⟩, false⟩

/-- The literal that says that the rule is active. -/
def active (mark : Mark) (b : Rule) : Literal :=
  ⟨⟨mark.activePredicate, [b.constant]⟩, false⟩

/-- The literal that says that the rule would fire but for the newer rule `b`. -/
def rejectedBy (mark : Mark) (a b : Rule) : Literal :=
  ⟨⟨mark.causePredicate, [a.constant, b.constant]⟩, false⟩

end Rule

/-! ## Clauses -/

def constraintClauses (p : Program) : List Clause :=
  (p.rules.filter fun r => r.isConstraint).map Rule.toClause

/-- A rule of the older program derives into the older copy, unless it is rejected. -/
def olderClauses (mark : Mark) (a : Rule) : List Clause :=
  match a.head with
  | none => []
  | some h => [⟨some (h.withSuffix olderSuffix), a.body, a.negBody ++ [a.rejected mark]⟩]

/-- A rule of the newer program derives into the newer copy, and is active whenever it does. -/
def newerClauses (mark : Mark) (b : Rule) : List Clause :=
  match b.head with
  | none => []
  | some h =>
    [⟨some (h.withSuffix newerSuffix), b.body, b.negBody⟩,
     ⟨some (b.active mark), b.body, b.negBody⟩]

/-- An older rule is rejected when its bodies hold while the newer rule is active. -/
def rejectionClauses (mark : Mark) (a b : Rule) : List Clause :=
  [⟨some (a.rejectedBy mark b), a.body ++ [b.active mark], a.negBody⟩,
   ⟨some (a.rejected mark), [a.rejectedBy mark b], []⟩]

/-- What holds in the newer copy holds in the older copy, and what holds there holds. -/
def copyClauses (l : Literal) : List Clause :=
  [⟨some (l.withSuffix olderSuffix), [l.withSuffix newerSuffix], []⟩,
   ⟨some l, [l.withSuffix olderSuffix], []⟩]

/-- The pairs of an older and a newer rule with complementary heads, in order. -/
def opposedPairs (older newer : Program) : List (Rule × Rule) :=
  older.rules.flatMap fun a =>
    (newer.rules.filter fun b => a.Opposed b.toClause).map fun b => (a, b)

/-- What the update program of two programs says. -/
def updateClauses (mark : Mark) (older newer : Program) : List Clause :=
  constraintClauses older ++ constraintClauses newer ++
    older.rules.flatMap (olderClauses mark) ++
    newer.rules.flatMap (newerClauses mark) ++
    (opposedPairs older newer).flatMap (fun (a, b) => rejectionClauses mark a b) ++
    (Program.literalBase [older, newer]).flatMap copyClauses

/-! ## The program -/

/-- The update program of two programs, with its rules labelled from zero. -/
def updateProgram (mark : Mark) (older newer : Program) : Work Program := do
  let rules ← mintAll 0 (updateClauses mark older newer)
  let p ← Program.ofRules s!"mup({older.name},{newer.name})" rules
  return p.relabelled 0 []

/-- Build the update program and write down that it was built. -/
def buildUpdateProgram (older newer : Program) (mark : Mark := default) : Work Program := do
  Work.began "detection" "build_update_program"
  let p ← updateProgram mark older newer
  Work.note .info "detection"
    s!"Built update program for '{older.name}' <- '{newer.name}' with {p.size} rules"
  Work.completed "detection" "build_update_program"
  return p

/-- Causal rejection compares two programs; any other number of them is refused. -/
structure PairError where
  count : Nat
deriving DecidableEq, Repr

def PairError.message (e : PairError) : String :=
  s!"Causal rejection compares exactly two programs, got {e.count}"

/-- The only two items of a list. -/
def pairOf {α : Type} : List α → Except PairError (α × α)
  | [older, newer] => .ok (older, newer)
  | ps => .error ⟨ps.length⟩

end CausalUpdate
