import CausalUpdate.Journal.Basic
import CausalUpdate.UpdateSequence.Basic

/-!
# Settings

The settings of the solver, of update sequences, of the store and of the journal, with what they are
if nothing else is asked for.  Numbers and names that make no sense are refused, all faults of one
group of settings together.
-/

namespace CausalUpdate

/-! ## Faults -/

/-- What is wrong with a setting. -/
inductive SettingFault
  /-- The time limit is not above zero. -/
  | timeLimit
  /-- The number of models is below zero. -/
  | modelCount
  /-- The journal knows no such level. -/
  | level
deriving DecidableEq, Repr

namespace SettingFault

def field : SettingFault → String
  | .timeLimit => "timeout_seconds"
  | .modelCount => "max_models"
  | .level => "level"

def condition : SettingFault → String
  | .timeLimit => "greater_than"
  | .modelCount => "greater_than_equal"
  | .level => "literal_error"

end SettingFault

/-! ## Groups -/

structure SolverSettings where
  /-- The time limit of a call. -/
  timeoutSeconds : Float := 30.0
  /-- The most models that are wanted; zero for all of them. -/
  maxModels : Nat := 0
  /-- Further arguments. -/
  arguments : List String := []
deriving Inhabited

/-- The settings of a solver, if its time limit is above zero and its number of models not below. -/
def SolverSettings.checked (timeoutSeconds : Float) (maxModels : Int) (arguments : List String) :
    Except (List SettingFault) SolverSettings :=
  let faults :=
    (if 0 < timeoutSeconds then [] else [SettingFault.timeLimit]) ++
      (if maxModels < 0 then [SettingFault.modelCount] else [])
  if faults.isEmpty then .ok { timeoutSeconds, maxModels := maxModels.toNat, arguments }
  else .error faults

/-- What is left of an answer if only so many models are wanted. -/
def SolverSettings.limit (s : SolverSettings) (solved : Solved) : Solved :=
  if s.maxModels = 0 then solved else { solved with models := solved.models.take s.maxModels }

structure StoreSettings where
  directory : String := "programs"
  suffix : String := ".lp"
deriving DecidableEq, Repr, Inhabited

structure JournalSettings where
  level : Level := .info
  format : String :=
    "<green>\x7btime:YYYY-MM-DD HH:mm:ss\x7d</green> | <level>\x7blevel: <8\x7d</level> | " ++
      "<cyan>\x7bextra[component]\x7d</cyan> | <level>\x7bmessage\x7d</level>"
  rotation : String := "50 MB"
  retention : String := "2 weeks"
  directory : String := "logs"
  toFiles : Bool := false
  toConsole : Bool := true
deriving Repr, Inhabited

/-- The levels at which a journal can be kept. -/
def JournalSettings.levels : List Level :=
  [.trace, .debug, .info, .warning, .error, .critical]

/-- The level of a name, if a journal can be kept at it. -/
def JournalSettings.level? (name : String) : Except (List SettingFault) Level :=
  match JournalSettings.levels.find? fun l => l.name = name with
  | some l => .ok l
  | none => .error [.level]

structure Settings where
  solver : SolverSettings := {}
  update : UpdateSettings := {}
  store : StoreSettings := {}
  journal : JournalSettings := {}
deriving Inhabited

end CausalUpdate
