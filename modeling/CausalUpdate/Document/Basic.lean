import CausalUpdate.Detection.Basic
import CausalUpdate.Text.Json

/-!
# Documents

How literals, rules, solutions, conflicts and detections are laid out as JSON documents, and how a
literal is taken from one.
-/

namespace CausalUpdate

open CausalUpdate.Text

/-! ## Literals and rules -/

def Literal.document (l : Literal) : Json :=
  .obj
    [("predicate", .str l.atom.predicate), ("terms", .strings l.atom.terms),
     ("negated", .bool l.negated)]

/-- The document of a rule, with its text. -/
def Rule.document (r : Rule) : Json :=
  .obj
    [("rule_id", .int r.id), ("label", .int r.label), ("head", .optional Literal.document r.head),
     ("body", .arr (r.body.map Literal.document)),
     ("neg_body", .arr (r.negBody.map Literal.document)), ("text", .str r.text)]

/-- The texts of rules as a document. -/
def ruleTexts (rs : List Rule) : Json :=
  .strings (rs.map fun r => r.text)

/-- The texts of the literals of an answer set as a document. -/
def AnswerSet.document (s : AnswerSet) : Json :=
  .strings s.texts

/-! ## Solutions and conflicts -/

/-- The names of the distances and their values. -/
def Score.measures (s : Score) : List (String × Option Nat) :=
  [("answer_set_distance", s.answerSets), ("rule_distance", s.rules)]

def Score.document (s : Score) : Json :=
  .obj (s.measures.map fun (name, value) => (name, .optional (fun n => .int n) value))

def Solution.document (s : Solution) : Json :=
  .obj
    [("strategy", .str s.strategy), ("root_rule", .optional .int s.rootRule),
     ("target_literal", .optional (fun l => .str l.text) s.target),
     ("operations", .obj (OperationKind.all.map fun k => (k.name, ruleTexts (s.chosenFor k)))),
     ("variants", .obj (s.variants.map fun (id, rs) => (toString id, ruleTexts rs))),
     ("measures", (s.score.map Score.document).getD (.obj []))]

def Conflict.document (c : Conflict) : Json :=
  .obj
    [("rules", .arr [c.older.document, c.newer.document]),
     ("answer_sets", .arr (c.answerSets.map AnswerSet.document)),
     ("solutions", .arr (c.solutions.map Solution.document))]

/-! ## Detections -/

def Detection.document (d : Detection) : Json :=
  .obj
    [("status", .str d.status), ("consistent", .bool d.findings.consistent),
     ("message", .str d.message), ("conflicts", .arr (d.findings.conflicts.map Conflict.document)),
     ("answer_sets", .arr (d.findings.answerSets.map AnswerSet.document))]

/-! ## Reading -/

structure MissingField where
  name : String
deriving DecidableEq, Repr

/-- A field that a document must have. -/
def requireField {α : Type} (name : String) : Option α → Except MissingField α
  | some a => .ok a
  | none => .error ⟨name⟩

/-- The literal that the fields of a document describe; nothing but their presence is checked. -/
def Literal.ofFields (predicate : Option String) (terms : Option (List String))
    (negated : Option Bool) : Except MissingField Literal := do
  let predicate ← requireField "predicate" predicate
  let negated ← requireField "negated" negated
  return ⟨⟨predicate, terms.getD []⟩, negated⟩

end CausalUpdate
