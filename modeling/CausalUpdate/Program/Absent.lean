import CausalUpdate.Distance.Basic
import CausalUpdate.Solution.Apply

/-!
# Absent programs

A sequence may have gaps, places where a program is absent.  Work on such a sequence goes on as long
as nothing is asked of an absent program, and fails with what was asked of it.

* `Gapped.merge`, `Gapped.apply`, `Gapped.ruleDistance` — the work on a sequence with gaps; without
  gaps it is that on a sequence of programs.
-/

namespace CausalUpdate

/-- What cannot be done with an absent value. -/
inductive AbsenceError
  /-- It is asked for a part of that name. -/
  | asked (name : String)
  /-- Its items are gone through. -/
  | listed
  /-- Its items are counted. -/
  | counted
deriving DecidableEq, Repr

def AbsenceError.message : AbsenceError → String
  | .asked name => s!"'NoneType' object has no attribute '{name}'"
  | .listed => "'NoneType' object is not iterable"
  | .counted => "object of type 'NoneType' has no len()"

/-- Why work on a sequence with gaps fails. -/
inductive GapError
  | absent (error : AbsenceError)
  | program (error : ProgramError)
deriving DecidableEq, Repr

/-- A value that has to be there when it is asked for a part. -/
def present {α : Type} (name : String) : Option α → Except AbsenceError α
  | some a => .ok a
  | none => .error (.asked name)

/-- A sequence of programs some of which may be absent. -/
abbrev Gapped := List (Option Program)

namespace Gapped

/-- The programs before the first gap. -/
def known (ps : Gapped) : List Program :=
  (ps.takeWhile Option.isSome).filterMap id

def isComplete (ps : Gapped) : Bool :=
  ps.all Option.isSome

def fail {α : Type} (e : AbsenceError) : Attempt GapError α :=
  throw (.absent e)

/-- An absent program with the rules of others at its end: it stays absent if they have none. -/
def absorbed : Gapped → Attempt GapError (Option Program)
  | [] => pure none
  | none :: _ => fail .listed
  | some p :: ps => if p.isEmpty then absorbed ps else fail (.asked "with_rule")

/-- The programs folded into the first of them, possibly under another name. -/
def merge (ps : Gapped) (name : Option String := none) : Attempt GapError (Option Program) :=
  match ps with
  | none :: rest => if name.isSome then fail (.asked "renamed") else absorbed rest
  | ps => do
    let p ← Attempt.adapt .program (Program.merge ps.known name)
    if ps.isComplete then return some p else fail .listed

def both (e : AbsenceError) :
    Option Program × Option Program → Except AbsenceError (Program × Program)
  | (some older, some newer) => .ok (older, newer)
  | _ => .error e

/-- The sequence after rules are added to the newest program. -/
def add (rs : List Rule) (ps : Gapped) : Attempt GapError Gapped :=
  match ps.getLast?.join, rs with
  | _, [] => pure ps
  | none, _ => fail (.asked "with_rule")
  | some newest, rs => do
    let newest ← Attempt.adapt .program (newest.addAll rs)
    return ps.dropLast ++ [some newest]

def apply (s : Solution) (ps : Gapped) : Attempt GapError Gapped := do
  if ps.isComplete then
    let ps ← Attempt.adapt .program (s.applyTo ps.known)
    return ps.map some
  else
    let ps ← ps.add s.additions
    if s.modifications.isEmpty && s.deletions.isEmpty then return ps
    else fail (.asked "contains_rule_id")

/-- The number of literals that a solution changes. -/
def ruleDistance (s : Solution) (ps : Gapped) : Except AbsenceError (Option Nat) :=
  match s.ruleDistance ps.known with
  | none => if ps.isComplete then .ok none else .error (.asked "get_rule")
  | found => .ok found

end Gapped

end CausalUpdate
