import Ladybug.Automaton.Run
import Ladybug.Console.Request
import Ladybug.Exchange.Detect
import Ladybug.Progress.Store
import Ladybug.Runner
import Ladybug.Scenario.Builtin
import Ladybug.Script.Interpreter
import Ladybug.Settings
import Ladybug.World.Picture
import Ladybug.World.Template

/-!
# Answering a command line

* `Reply`     what is printed, and how the run ends
* `Failure`   why a run ends without a reply of its own
* `answer`    the reply to a command line, and the files after it
-/

namespace Ladybug.Console
open Ladybug

inductive Failure where
  | issue (issue : Issue)
  | notText
  | tooLarge
  | tooLong (digits : Nat)
  | nullByte
  | limit (message : String)
deriving DecidableEq, Repr

structure Reply where
  out : String := ""
  err : String := ""
  exit : Nat := 0
  failure : Option Failure := none
deriving DecidableEq, Repr

namespace Reply

def line (s : String) : String := s ++ "\n"

/-- a command line that makes no request -/
def usage (what : String := "") : Reply :=
  { err := line (if what.isEmpty then "usage" else "usage: " ++ what), exit := 2 }

def wrong (message : String) : Reply := { err := line ("Error: " ++ message), exit := 1 }

def failed (f : Failure) : Reply := { exit := 1, failure := some f }

def faultLine (f : Fault) : String := line ("Error (" ++ f.kind.name ++ "): " ++ f.message)

end Reply

/-! ### input -/

def readFile (fs : Files) (path : Path) : Except Reply String :=
  match fs.readText path with
  | .ok s => .ok s
  | .error .notText => .error (.failed .notText)
  | .error _ => .error .usage

/-- what a file holds, or how its refusal is reported -/
def inFile {α : Type} (path : Path) : Except Exchange.Refusal α → Except Reply α
  | .ok a => .ok a
  | .error (.fault f) => .error (.wrong (path.text ++ ": " ++ f.message))
  | .error .tooLarge => .error (.failed .tooLarge)
  | .error .half => .error (.failed .notText)
  | .error (.tooLong digits) => .error (.failed (.tooLong digits))

def loadWorld (fs : Files) (path : Path) : Except Reply World := do
  inFile path (Exchange.readAnyWorld (← readFile fs path))

def loadCommands (fs : Files) (path : Path) : Except Reply (List Command) := do
  inFile path (Exchange.readCommands (← readFile fs path))

def loadAutomaton (fs : Files) (path : Path) : Except Reply Automaton := do
  inFile path (Exchange.readAnyAutomaton (← readFile fs path))

/-- the limit asked for, or that of the settings -/
def limit (asked : Int) (default : Nat) : Except Reply (Option Nat) :=
  if asked = 0 then .ok (some default)
  else match Budget.ofLimit? (some asked) "steps" with
    | .ok b => .ok b.limit
    | .error m => .error (.failed (.limit m))

/-! ### output -/

def World.printed (w : World) : Output → String
  | .text => w.picture
  | .json => Exchange.writeWorld w
  | .xml => Exchange.writeWorldXml w

/-- A world at the end of a run, and what ended it. -/
def finish (w : World) (fault : Option Fault) (output : Output) : Reply :=
  let out := Reply.line (World.printed w output)
  match fault with
  | none => { out }
  | some f => { out, err := Reply.faultLine f, exit := 1 }

/-! ### the requests -/

def runCommands (fs : Files) (world commands : Path) (output : Output) : Except Reply Reply := do
  let w ← loadWorld fs world
  let cs ← loadCommands fs commands
  let (_, r) := (Runner.mk cs 0 none).skip w
  return finish r.world r.fault output

def runAutomaton (s : Settings) (fs : Files) (world automaton : Path) (asked : Int)
    (output : Output) : Except Reply Reply := do
  let w ← loadWorld fs world
  let a ← loadAutomaton fs automaton
  match a.validate with
  | some f => .error (.wrong f.message)
  | none =>
    let r := a.run w none (← limit asked s.maxAutomatonSteps)
    return finish r.world r.fault output

def runCode (s : Settings) (fs : Files) (world source : Path) (dialect : Option Dialect)
    (asked : Int) (output : Output) : Except Reply Reply := do
  match dialect <|> Dialect.ofFile? source.name with
  | none => .error (.usage ("cannot tell the language of " ++ source.name))
  | some dialect =>
    let w ← loadWorld fs world
    match Script.compile (← readFile fs source) dialect.name with
    | .error m => return finish w (some m.fault) output
    | .ok p =>
      let steps ← limit asked s.maxScriptSteps
      let limits := { steps, idle := some s.maxIdleIterations }
      let r := Script.extractProgram p limits w
      return finish r.world r.fault output

def padTo (width : Nat) (s : String) : String :=
  s ++ String.ofList (List.replicate (width - s.length) ' ')

def scenarioLine (s : Scenario) : String :=
  Reply.line (padTo 24 s.id ++ " " ++ padTo 7 s.difficulty.name ++ " " ++ s.title)

def scenarios : Reply := { out := String.join (Scenario.builtin.map scenarioLine) }

/-- what a store could not do, after a solution has been shown -/
def unsaved (out : String) : StoreError → Reply
  | .fault f => { Reply.wrong f.message with out }
  | .issue i => { Reply.failed (.issue i) with out }
  | .tooLong digits => { Reply.failed (.tooLong digits) with out }
  | .nullByte => { Reply.failed .nullByte with out }
  | _ => { Reply.failed .notText with out }

/-- A solution that reached the goal is recorded. -/
def record (s : Settings) (fs : Files) (now : Instant) (scenario : Scenario) (commands : Nat)
    (out : String) : Files × Reply :=
  match (Store.file fs (progressPath s.dataRoot)).complete scenario.id commands now with
  | (store, .error e) => (store.files, unsaved out e)
  | (store, .ok p) =>
    (store.files,
      { out := out ++ Reply.line ("Solved " ++ scenario.title ++ " with " ++ toString commands
          ++ " commands: " ++ toString p.stars ++ " stars") })

/-- A list of commands tried on a scenario. -/
def attempt (s : Settings) (fs : Files) (now : Instant) (scenario : Scenario) (w : World)
    (cs : List Command) : Files × Reply :=
  let (_, r) := (Runner.mk cs 0 none).skip w
  let shown := finish r.world r.fault .text
  if r.fault.isSome then (fs, shown)
  else if !scenario.solvedBy r.world then
    (fs, { shown with
      err := Reply.line ("Goal not reached: " ++ scenario.goal.description), exit := 1 })
  else record s fs now scenario cs.length shown.out

def onlyAllows (scenario : Scenario) : String :=
  "This scenario only allows: " ++ String.intercalate ", " (scenario.allowed.map Command.name)

/-- The commands and the world of an attempt. -/
def prepare (fs : Files) (scenario : Scenario) (commands : Path) :
    Except Reply (List Command × World) := do
  let cs ← loadCommands fs commands
  if !scenario.allows cs then .error (.wrong (onlyAllows scenario))
  else match scenario.start with
    | .ok w => return (cs, w)
    | .error .rowTooLong => .error (.failed .tooLarge)
    | .error (.misfit m) => .error (.failed (.issue m.issue))

def solve (s : Settings) (fs : Files) (now : Instant) (id : String) (commands : Path) :
    Files × Reply :=
  match Scenario.named? Scenario.builtin id with
  | none => (fs, .usage ("unknown scenario " ++ Text.quote id))
  | some scenario =>
    match prepare fs scenario commands with
    | .error r => (fs, r)
    | .ok (cs, w) => attempt s fs now scenario w cs

def helpText : String :=
  "run-commands WORLD COMMANDS, run-fsm WORLD PROGRAM, run-code WORLD SOURCE, template NAME, "
    ++ "scenarios, solve SCENARIO COMMANDS"

/-- a reply, whichever way it was reached -/
def settle : Except Reply Reply → Reply
  | .ok r => r
  | .error r => r

def fulfil (s : Settings) (fs : Files) (now : Instant) : Request → Files × Reply
  | .help => (fs, { out := Reply.line helpText })
  | .runCommands world commands output => (fs, settle (runCommands fs world commands output))
  | .runAutomaton world automaton asked output =>
    (fs, settle (runAutomaton s fs world automaton asked output))
  | .runCode world source dialect asked output =>
    (fs, settle (runCode s fs world source dialect asked output))
  | .template name output =>
    (fs, { out := Reply.line (World.printed (World.template name) output) })
  | .scenarios => (fs, scenarios)
  | .solve id commands => solve s fs now id commands

/-- The reply to a command line. The name of the request is looked at first, then the settings,
then the rest. -/
def answer (env : Environment) (fs : Files) (now : Instant) (args : List String) : Files × Reply :=
  match Request.opening? args with
  | none => (fs, .usage)
  | some .help => (fs, { out := Reply.line helpText })
  | some (.request read args) =>
    match Settings.read env [] with
    | .error i => (fs, .failed (.issue i))
    | .ok s =>
      match read fs args with
      | .error .usage => (fs, .usage)
      | .error .nullByte => (fs, .failed .nullByte)
      | .ok r => fulfil s fs now r

end Ladybug.Console
