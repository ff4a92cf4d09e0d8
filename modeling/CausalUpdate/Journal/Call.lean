import CausalUpdate.Journal.Basic
import CausalUpdate.Journal.Template
import CausalUpdate.Text.Json

/-!
# Tracked calls

A function can be tracked: its calls are written down when they begin and when they end, with their
arguments and with how they ended.  It can be monitored as well, and then a call that takes longer
than a threshold is written down as a warning.

* `Signature.bind` — the arguments of a call by name.
* `Call.track`, `Monitor.watch` — what is written down about a call, and how it ends.

The name of the tracked operation is a template over the fields of the record it is written into; a
template that cannot be filled in makes the call fail at that point.
-/

namespace CausalUpdate

open CausalUpdate.Text

/-! ## Arguments -/

structure Parameter where
  name : String
  /-- The value of an argument that is not given; without one the argument is required. -/
  default : Option Json := none
  /-- The argument has to be given by name. -/
  byName : Bool := false

/-- The parameters of a function in order, those that are given by name at the end. -/
abbrev Signature := List Parameter

/-- Why arguments do not fit a signature. -/
inductive BindError
  | missing (name : String)
  | tooMany
  /-- An argument is given by position and by name. -/
  | repeated (name : String)
  /-- No parameter has the name. -/
  | unexpected (name : String)
deriving DecidableEq, Repr

def BindError.message : BindError → String
  | .missing name => s!"missing a required argument: {quoted name}"
  | .tooMany => "too many positional arguments"
  | .repeated name => s!"multiple values for argument {quoted name}"
  | .unexpected name => s!"got an unexpected keyword argument {quoted name}"

namespace Signature

/-- The values of parameters that get no argument by position. -/
def bindNamed (named : List (String × Json)) :
    Signature → Except BindError (List (String × Json))
  | [] => .ok []
  | p :: ps => do
    match (named.lookup p.name).or p.default with
    | none => throw (.missing p.name)
    | some value =>
      let rest ← bindNamed named ps
      return (p.name, value) :: rest

/-- The values of parameters from arguments by position and by name. -/
def bindAll (named : List (String × Json)) :
    Signature → List Json → Except BindError (List (String × Json))
  | ps, [] => bindNamed named ps
  | [], _ :: _ => .error .tooMany
  | p :: ps, value :: positional => do
    if p.byName then throw .tooMany
    if (named.lookup p.name).isSome then throw (.repeated p.name)
    let rest ← bindAll named ps positional
    return (p.name, value) :: rest

/-- The values of all parameters; a name that no parameter has is refused. -/
def bind (ps : Signature) (positional : List Json) (named : List (String × Json)) :
    Except BindError (List (String × Json)) := do
  let bound ← bindAll named ps positional
  match named.find? fun n => !ps.any fun p => p.name = n.1 with
  | some n => throw (.unexpected n.1)
  | none => return bound

end Signature

/-- The most characters of an argument that a record shows. -/
def argumentLimit : Nat := 100

/-- An argument as a record shows it. -/
def shownArgument (value : Json) : Json :=
  .str (String.ofList ((displayed value).toList.take argumentLimit))

/-! ## Records -/

/-- An entry of the journal with the fields it was written with. -/
structure Record where
  level : Level
  message : String
  fields : List (String × Json)

/-- The failure of a function: its kind, and what it says. -/
structure Failure where
  kind : String
  message : String
deriving DecidableEq, Repr

inductive CallError
  | binding (error : BindError)
  | template (error : TemplateError)
  /-- The function itself fails. -/
  | raised (failure : Failure)
deriving DecidableEq, Repr

/-- A clock reading, in the two forms in which records have it. -/
structure Moment where
  timestamp : String := ""
  operationId : Float := 0

/-- How a call ends, and the records it leaves. -/
abbrev Ending := Except CallError Json × List Record

structure Call where
  function : String
  signature : Signature
  positional : List Json
  named : List (String × Json)

namespace Call

/-- The record of a tracked operation. -/
def record (now : Moment) (component operation : String) (fields : List (String × Json)) :
    Except TemplateError Record := do
  let fields := ("operation", .str operation) :: fields
  let known :=
    (("timestamp", .str now.timestamp) :: ("operation_id", .decimal now.operationId) :: fields).map
      fun (name, value) => (name, FieldValue.data value)
  let message ← Template.fill known ("Update operation: " ++ operation)
  return { level := .debug, message, fields := ("component", .str component) :: fields }

/-- The fields of the record of how a call ended. -/
def endFields (c : Call) : Except Failure Json → List (String × Json)
  | .ok _ => [("function", .str c.function), ("success", .bool true)]
  | .error failure =>
    [("function", .str c.function), ("error", .str failure.message),
     ("error_type", .str failure.kind), ("success", .bool false)]

/-- What is added to the name of an operation when it ends. -/
def endMark : Except Failure Json → String
  | .ok _ => "_complete"
  | .error _ => "_error"

/-- Track a call of a function with a given outcome on the values of its parameters. -/
def track (c : Call) (now : Moment) (component operation : String)
    (body : List (String × Json) → Except Failure Json) : Ending :=
  match c.signature.bind c.positional c.named with
  | .error e => (.error (.binding e), [])
  | .ok bound =>
    let arguments := Json.obj (bound.map fun (name, value) => (name, shownArgument value))
    let outcome := body bound
    match record now component operation
        [("function", .str c.function), ("arguments", arguments)] with
    | .error e => (.error (.template e), [])
    | .ok first =>
      match record now component (operation ++ endMark outcome) (c.endFields outcome) with
      | .error e => (.error (.template e), [first])
      | .ok last => (outcome.mapError .raised, [first, last])

end Call

/-! ## Monitoring -/

/-- A function whose calls are timed, and the milliseconds that a call may take. -/
structure Monitor where
  function : String
  threshold : Json
  component : String := systemComponent

namespace Monitor

/-- The fields that every record of a monitor has. -/
def fields (m : Monitor) : List (String × Json) :=
  [("component", .str m.component), ("function", .str m.function)]

/-- So many milliseconds are more than a call may take. -/
def isExceeded (m : Monitor) (elapsed : Int) : Bool :=
  match m.threshold with
  | .int limit => limit < elapsed
  | .decimal limit => limit < Float.ofInt elapsed
  | _ => false

/-- The record of a call that took so many milliseconds. -/
def record (m : Monitor) (elapsed : Int) : Except CallError Json → Record
  | .error _ => ⟨.debug, "Function failed: " ++ m.function, m.fields⟩
  | .ok _ =>
    if m.isExceeded elapsed then
      ⟨.warning, "Performance threshold exceeded: " ++ m.function,
        m.fields ++ [("threshold_ms", m.threshold)]⟩
    else ⟨.debug, "Function executed: " ++ m.function, m.fields⟩

/-- Add the record of a monitor to what a call leaves. -/
def watch (m : Monitor) (elapsed : Int) (ending : Ending) : Ending :=
  (ending.1, ending.2 ++ [m.record elapsed ending.1])

end Monitor

end CausalUpdate
