/-!
# The journal

What happens during an update is written down as a list of entries: a level, the component that
speaks, and a message.  Components are plain names; an entry of no particular component belongs to
`system`.
-/

namespace CausalUpdate

inductive Level
  | trace
  | debug
  | info
  | success
  | warning
  | error
  | critical
deriving DecidableEq, Repr, Inhabited

/-- A name that no level has. -/
structure UnknownLevel where
  name : String
deriving DecidableEq, Repr

def UnknownLevel.message (e : UnknownLevel) : String :=
  s!"Level '{e.name}' does not exist"

namespace Level

/-- All levels, the least important first. -/
def all : List Level :=
  [.trace, .debug, .info, .success, .warning, .error, .critical]

/-- The rank of a level; a higher rank matters more. -/
def severity : Level → Nat
  | .trace => 5
  | .debug => 10
  | .info => 20
  | .success => 25
  | .warning => 30
  | .error => 40
  | .critical => 50

def name : Level → String
  | .trace => "TRACE"
  | .debug => "DEBUG"
  | .info => "INFO"
  | .success => "SUCCESS"
  | .warning => "WARNING"
  | .error => "ERROR"
  | .critical => "CRITICAL"

def ofName? (s : String) : Option Level :=
  all.find? fun l => l.name = s

/-- The level with a name, or the failure that there is none. -/
def ofName (s : String) : Except UnknownLevel Level :=
  match ofName? s with
  | some l => .ok l
  | none => .error ⟨s⟩

theorem ofName?_name (l : Level) : ofName? l.name = some l := by
  cases l <;> decide

end Level

/-- The component of entries that name none. -/
def systemComponent : String := "system"

structure Entry where
  level : Level
  component : String := systemComponent
  message : String
deriving DecidableEq, Repr, Inhabited

/-- The entry matters at least as much as a level. -/
def Entry.atLeast (e : Entry) (level : Level) : Bool :=
  level.severity ≤ e.level.severity

end CausalUpdate
