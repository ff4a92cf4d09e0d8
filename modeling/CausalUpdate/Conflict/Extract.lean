import CausalUpdate.Conflict.Basic
import CausalUpdate.Text.Digit
import CausalUpdate.UpdateProgram.Basic

/-!
# Conflicts in the answer sets of an update program

Every literal that records a cause of rejection names two rules by their constants.  The conflicts
are the named pairs, in the order in which the answer sets and, inside an answer set, the texts of
its literals show them.  A witness of a conflict is an answer set without the literals that only the
update program knows.

* `readConstant` — the identifier that a constant names.
* `extractConflicts` — the conflicts that a list of answer sets shows.
-/

namespace CausalUpdate

open CausalUpdate.Text

/-! ## Constants -/

/-- An identifier is written with more digits than a whole number may have. -/
structure LongIdentifier where
  digits : Nat
deriving DecidableEq, Repr

def LongIdentifier.message (e : LongIdentifier) : String :=
  tooLongMessage e.digits

/-- The text without a line feed at its end. -/
def dropLineFeed (cs : List Char) : List Char :=
  if cs.getLast? = some '\n' then cs.dropLast else cs

/-- The identifier that a constant names: the number behind the letter `r`, in digits of any script.
One line feed may follow it. -/
def readConstant (cs : List Char) : Except LongIdentifier (Option Int) :=
  match dropLineFeed cs with
  | 'r' :: digits =>
    if digits.isEmpty || !digits.all isDecimal then .ok none
    else if digitLimit < digits.length then .error ⟨digits.length⟩
    else .ok (some (ofDigits (digits.filterMap digitValue?)))
  | _ => .ok none

/-- The identifiers of the rules that a literal names, if it records a cause of rejection. -/
def Literal.causePair (mark : Mark) (l : Literal) : Except LongIdentifier (Option (Int × Int)) :=
  if l.negated || l.atom.predicate ≠ mark.causePredicate then .ok none
  else
    match l.atom.terms with
    | [older, newer] => do
      let a ← readConstant older.toList
      let b ← readConstant newer.toList
      return a.bind fun a => b.map fun b => (a, b)
    | _ => .ok none

/-! ## Extraction -/

/-- The conflicts with one more witness for a pair of rules.  A pair that is new has to name a rule
of each program. -/
def recordWitness (older newer : Program) (conflicts : List Conflict) (l : Literal)
    (pair : Int × Int) (witness : AnswerSet) : Work (List Conflict) :=
  if conflicts.any fun c => c.pair = pair then
    return conflicts.map fun c => if c.pair = pair then c.addWitness witness else c
  else
    match older.find? pair.1, newer.find? pair.2 with
    | some a, some b => return conflicts ++ [{ older := a, newer := b, answerSets := [witness] }]
    | _, _ => do
      Work.note .warning "detection" s!"Rejection literal {l.text} references unknown rules"
      return conflicts

/-- The conflicts after further literals, each with the witness it belongs to. -/
def recordAll (mark : Mark) (older newer : Program) (conflicts : List Conflict) :
    List (Literal × AnswerSet) → Attempt LongIdentifier (List Conflict)
  | [] => pure conflicts
  | (l, witness) :: rest => do
    match ← Attempt.of (l.causePair mark) with
    | none => recordAll mark older newer conflicts rest
    | some pair => do
      let conflicts ← recordWitness older newer conflicts l pair witness
      recordAll mark older newer conflicts rest

/-- The literals of an answer set in order, each with what the programs see of the set. -/
def sightings (base : List Literal) (s : AnswerSet) : List (Literal × AnswerSet) :=
  let witness := s.restrictedTo base
  s.sorted.map fun l => (l, witness)

/-- The conflicts between two programs that answer sets of their update program show. -/
def extractConflicts (older newer : Program) (answerSets : List AnswerSet)
    (mark : Mark := default) : Attempt LongIdentifier (List Conflict) := do
  let base := Program.literalBase [older, newer]
  let conflicts ← recordAll mark older newer [] (answerSets.flatMap (sightings base))
  Work.note .info "detection"
    s!"Extracted {conflicts.length} conflict(s) from {answerSets.length} answer set(s)"
  return conflicts

end CausalUpdate
