import Ladybug.Budget
import Ladybug.Intake.Basic
import Ladybug.Path
import Ladybug.Text.Blank
import Ladybug.Text.Case

/-!
# Settings

* `Settings`            where data is kept, what is logged, and the limits of runs
* `Settings.read`       settings from values and an environment
* `defaultDataRoot`     where data is kept when nothing is said
* `levelNumber`         the number of a logging level
-/

namespace Ladybug

/-- the variables of an environment; a name may come again, and its last value counts -/
abbrev Environment := List (String × String)

namespace Environment

def get? (env : Environment) (name : String) : Option String :=
  (env.reverse.find? fun e => e.1 == name).map Prod.snd

/-- the same, whatever the case of the name -/
def getAnyCase? (env : Environment) (name : String) : Option String :=
  (env.reverse.find? fun e => Text.lower e.1 == name).map Prod.snd

end Environment

/-- what the names of the program's own variables begin with -/
def variableStem : String := "KARASIM_"

def progressFile : String := "progress.json"

/-- the directory of the user, the administrator's if nothing is said -/
def homeDirectory (env : Environment) : Path := Path.ofText ((env.get? "HOME").getD "/root")

/-- where programs keep the data of the user -/
def userDataRoot (env : Environment) : Path :=
  match env.get? "XDG_DATA_HOME" with
  | some s =>
    if (Text.trimBlanks s).isEmpty then usualDataRoot else Path.ofText s
  | none => usualDataRoot
where
  usualDataRoot : Path := ((homeDirectory env).child ".local").child "share"

/-- The directory for data: named by a variable, or in the user's data directory. -/
def defaultDataRoot (env : Environment) : Path :=
  let usual := (userDataRoot env).child "karasim"
  match env.get? (variableStem ++ "DATA_ROOT") with
  | some s => if s.isEmpty then usual else Path.ofText s
  | none => usual

def progressPath (root : Path) : Path := root.child progressFile

structure Settings where
  dataRoot : Path
  logLevel : String := "WARNING"
  maxAutomatonSteps : Nat := defaultLimit
  maxScriptSteps : Nat := defaultLimit
  maxIdleIterations : Nat := defaultLimit
  limitStreaming : Bool := false
deriving DecidableEq, Repr

namespace Settings

def path : Datum → Intake Path
  | .text s => .ok (Path.ofText s)
  | _ => Intake.fail "Input is not a valid path for <class 'pathlib.Path'>"

/-- the value of a field: one given directly, or else a variable of the environment -/
def given (env : Environment) (values : Intake.Entries) (name : String) : Option Datum :=
  match Datum.find? values name with
  | some d => some d
  | none => (env.getAnyCase? (Text.lower variableStem ++ name)).map Datum.text

def setting {α : Type} (env : Environment) (values : Intake.Entries) (name : String) (default : α)
    (read : Datum → Intake α) : Intake α :=
  match given env values name with
  | some d => Intake.under name (read d)
  | none => .ok default

def limit (d : Datum) : Intake Nat := do return (← Intake.intFrom 1 d).toNat

def read (env : Environment) (values : Intake.Entries) : Intake Settings := do
  let dataRoot ← setting env values "data_root" (defaultDataRoot env) path
  let logLevel ← setting env values "log_level" "WARNING" Intake.text
  let maxAutomatonSteps ← setting env values "max_fsm_steps" defaultLimit limit
  let maxScriptSteps ← setting env values "max_interpreter_steps" defaultLimit limit
  let maxIdleIterations ← setting env values "max_idle_iterations" defaultLimit limit
  let limitStreaming ← setting env values "limit_streaming" false Intake.bool
  return { dataRoot, logLevel, maxAutomatonSteps, maxScriptSteps, maxIdleIterations,
           limitStreaming }

end Settings

/-- the variables that count, written as usual -/
def Settings.variables : List String :=
  ["HOME", "XDG_DATA_HOME"] ++ ["DATA_ROOT", "LOG_LEVEL", "MAX_FSM_STEPS", "MAX_INTERPRETER_STEPS",
    "MAX_IDLE_ITERATIONS", "LIMIT_STREAMING"].map (variableStem ++ ·)

def levels : List (String × Int) :=
  [("CRITICAL", 50), ("FATAL", 50), ("ERROR", 40), ("WARN", 30), ("WARNING", 30), ("INFO", 20),
    ("DEBUG", 10), ("NOTSET", 0)]

/-- The number of a logging level, blanks and case not counting; an unknown one is a warning. -/
def levelNumber (name : String) : Int :=
  let name := Text.upper (Text.trimBlanks name)
  ((levels.find? fun l => l.1 == name).map Prod.snd).getD 30

end Ladybug
