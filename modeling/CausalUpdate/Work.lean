import CausalUpdate.Journal.Basic
import CausalUpdate.Rule.Basic

/-!
# Work with identifiers and a journal

Two things outlive every operation, also one that fails: the supply of rule identifiers, from which
a number is taken once and never given back, and the journal.  `Work` threads both.

* `Work.freshId` — the next identifier.
* `Work.note` — one more entry.
* `Work.began`, `Work.completed`, `Work.failed` — the entries of an operation that is tracked.
* `Attempt` — work that may fail; what it has taken and written so far stays taken and written.
-/

namespace CausalUpdate

structure Ledger where
  /-- The identifier that is handed out next. -/
  nextId : Nat := 1
  /-- The journal, the newest entry first. -/
  journal : List Entry := []
deriving Repr, Inhabited

/-- The entries of the journal, the oldest first. -/
def Ledger.entries (g : Ledger) : List Entry :=
  g.journal.reverse

/-- Work that takes identifiers and writes entries. -/
abbrev Work := StateM Ledger

abbrev Attempt (ε α : Type) := ExceptT ε Work α

namespace Work

def freshId : Work Int :=
  fun g => (g.nextId, { g with nextId := g.nextId + 1 })

def note (level : Level) (component message : String) : Work Unit :=
  modify fun g => { g with journal := ⟨level, component, message⟩ :: g.journal }

def began (component operation : String) : Work Unit :=
  note .debug component ("Update operation: " ++ operation)

/-- Write that an operation is complete. -/
def completed (component operation : String) : Work Unit :=
  began component (operation ++ "_complete")

def failed (component operation : String) : Work Unit :=
  began component (operation ++ "_error")

end Work

/-- Work that may fail, as work that reports how it went. -/
def Attempt.outcome {ε ε' α : Type} (x : Attempt ε α) : Attempt ε' (Except ε α) :=
  ExceptT.lift x.run

/-- A result as work that takes no identifier and writes nothing. -/
def Attempt.of {ε α : Type} (x : Except ε α) : Attempt ε α :=
  liftExcept x

def Attempt.adapt {ε ε' α : Type} (wrap : ε → ε') (x : Attempt ε α) : Attempt ε' α :=
  ExceptT.adapt wrap x

namespace Rule

/-- A new rule that says a clause. -/
def mint (c : Clause) (label : Int := 0) : Work Rule := do
  let id ← Work.freshId
  return { c with label, id }

/-- The rule under a new identifier. -/
def renumbered (r : Rule) : Work Rule := do
  let id ← Work.freshId
  return r.withId id

end Rule

end CausalUpdate
