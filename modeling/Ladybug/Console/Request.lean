import Ladybug.Console.Arguments
import Ladybug.Decimal.Whole
import Ladybug.Files
import Ladybug.Script.Dialect

/-!
# Requests: what a command line asks for

* `Request`         the requests and their details
* `Misuse`          why a command line is no request
* `Request.opening?`   the beginning of a command line, up to the name of the request
-/

namespace Ladybug.Console
open Ladybug

/-- the form in which a world is printed -/
inductive Output where
  | text
  | json
  | xml
deriving DecidableEq, Repr

def Output.all : List Output := [.text, .json, .xml]

def Output.name : Output → String
  | .text => "text"
  | .json => "json"
  | .xml => "xml"

/-- A file name with a null character is reported in a way of its own. -/
inductive Misuse where
  | usage
  | nullByte
deriving DecidableEq, Repr

/-- A limit of zero stands for none given. -/
inductive Request where
  | help
  | runCommands (world commands : Path) (output : Output)
  | runAutomaton (world automaton : Path) (limit : Int) (output : Output)
  | runCode (world source : Path) (dialect : Option Dialect) (limit : Int) (output : Output)
  | template (name : String) (output : Output)
  | scenarios
  | solve (scenario : String) (commands : Path)
deriving DecidableEq, Repr

namespace Request

def outputOption : String := "--output"
def limitOption : String := "--max-steps"
def dialectOption : String := "--dialect"
def levelOption : String := "--log-level"

def templates : List String := ["Empty Grid", "Garden", "Maze", "Obstacle Course"]

def orUsage {α : Type} (r : Option α) : Except Misuse α := r.elim (.error .usage) .ok

/-- A name that ends with a slash, or with a point after it, is none of a file. -/
def endsOpen (name : String) : Bool :=
  match (name.toList.splitOn '/').getLast? with
  | some last => last == [] || last == ['.']
  | none => true

/-- a file that is there -/
def file (fs : Files) (name : String) : Except Misuse Path :=
  let path := Path.ofText name
  if path.hasNull then .error .nullByte
  else match fs.entry? path with
    | some (.file _) => if endsOpen name then .error .usage else .ok path
    | _ => .error .usage

/-- Just one file. What comes after it is looked at last. -/
def oneFile (fs : Files) : List String → Except Misuse Path
  | [] => .error .usage
  | a :: rest => do
    let a ← file fs a
    if rest.isEmpty then return a else .error .usage

/-- just two files -/
def twoFiles (fs : Files) : List String → Except Misuse (Path × Path)
  | [] => .error .usage
  | a :: rest => do return (← file fs a, ← oneFile fs rest)

def output? (a : Arguments) (default : Output) : Option Output :=
  match a.value? outputOption with
  | none => some default
  | some s => Output.all.find? fun o => o.name == s

def limit? (a : Arguments) : Option Int :=
  match a.value? limitOption with
  | none => some 0
  | some s => (Decimal.whole 10 s.toList).toOption

def dialect? (a : Arguments) : Option (Option Dialect) :=
  match a.value? dialectOption with
  | none => some none
  | some s => (Dialect.ofName? s).map some

/-- The request that some arguments make, or that its help is asked for. Options are looked at
before words. -/
def details (options : List String) (args : List String)
    (request : Arguments → Except Misuse Request) : Except Misuse Request :=
  match Arguments.read options true args with
  | none => .error .usage
  | some a => if a.help then .ok .help else request a

def readRunCommands (fs : Files) (args : List String) : Except Misuse Request :=
  details [outputOption] args fun a => do
    let output ← orUsage (output? a .text)
    let (world, commands) ← twoFiles fs a.words
    return .runCommands world commands output

def readRunAutomaton (fs : Files) (args : List String) : Except Misuse Request :=
  details [limitOption, outputOption] args fun a => do
    let limit ← orUsage (limit? a)
    let output ← orUsage (output? a .text)
    let (world, automaton) ← twoFiles fs a.words
    return .runAutomaton world automaton limit output

def readRunCode (fs : Files) (args : List String) : Except Misuse Request :=
  details [dialectOption, limitOption, outputOption] args fun a => do
    let dialect ← orUsage (dialect? a)
    let limit ← orUsage (limit? a)
    let output ← orUsage (output? a .text)
    let (world, source) ← twoFiles fs a.words
    return .runCode world source dialect limit output

def readTemplate (args : List String) : Except Misuse Request :=
  details [outputOption] args fun a => do
    let output ← orUsage (output? a .xml)
    match a.words with
    | [name] => if templates.contains name then return .template name output else .error .usage
    | _ => .error .usage

def readScenarios (args : List String) : Except Misuse Request :=
  details [] args fun a => if a.words.isEmpty then .ok .scenarios else .error .usage

def readSolve (fs : Files) (args : List String) : Except Misuse Request :=
  details [] args fun a =>
    match a.words with
    | [] => .error .usage
    | scenario :: words => do return .solve scenario (← oneFile fs words)

/-- the requests by their names -/
def named : List (String × (Files → List String → Except Misuse Request)) :=
  [("run-commands", readRunCommands),
   ("run-fsm", readRunAutomaton),
   ("run-code", readRunCode),
   ("template", fun _ => readTemplate),
   ("scenarios", fun _ => readScenarios),
   ("solve", readSolve)]

/-- What is left of a command line when its first word has named a request. -/
inductive Opening where
  | help
  | request (read : Files → List String → Except Misuse Request) (args : List String)

def opening? (args : List String) : Option Opening := do
  let a ← Arguments.read [levelOption] false args
  if a.help then return .help
  match a.words with
  | [] => none
  | name :: args =>
    let (_, read) ← named.find? fun r => r.1 == name
    return .request read args

end Request

end Ladybug.Console
