import CausalUpdate.Program.Edit
import CausalUpdate.Rule.Parse

/-!
# Reading programs

The rules of a program text are numbered by position, which gives their labels, and take identifiers
in that order.  A text with a fault gives no rules, but the rules in front of the fault have taken
their identifiers.  A program leaves out repeated rules, each with a warning.
-/

namespace CausalUpdate

open CausalUpdate.Text

/-- New rules for clauses, labelled from `label` upwards. -/
def mintAll (label : Nat) : List Clause → Work (List Rule)
  | [] => pure []
  | c :: cs => do
    let r ← Rule.mint c label
    let rs ← mintAll (label + 1) cs
    return r :: rs

/-- A new rule from its text, without the dot. -/
def Rule.parse (text : String) (label : Int := 0) : Attempt ParseError Rule :=
  match Clause.parse text.toList with
  | .error e => throw e
  | .ok c => Rule.mint c label

/-- New rules from a sequence of rule texts. -/
def parseRules (text : String) : Attempt ParseError (List Rule) := do
  let (clauses, fault) := readClauses text.toList
  let rules ← mintAll 0 clauses
  match fault with
  | some e => throw e
  | none => return rules

namespace Program

/-- The program with those rules at its end that it does not have yet. -/
def addUnrepeated (p : Program) : List Rule → Work Program
  | [] => pure p
  | r :: rs => do
    match ← (p.add r).run with
    | .ok p => p.addUnrepeated rs
    | .error _ => do
      Work.note .warning systemComponent s!"Skipping duplicate rule in '{p.name}': {r.text}"
      p.addUnrepeated rs

/-- The program that a text writes, if there is a text. -/
def parse (text : Option String) (name : String := "program") : Attempt ParseError Program :=
  match text with
  | none => throw ⟨.emptyText, none⟩
  | some text =>
    if blankOnly (stripComments false text.toList) then throw ⟨.emptyText, none⟩
    else do
      let rules ← parseRules text
      if rules.isEmpty then throw ⟨.noRules, none⟩
      else addUnrepeated { name } rules

end Program

end CausalUpdate
