import Ladybug.Fault
import Ladybug.Files
import Ladybug.Intake.Progress
import Ladybug.Json.Reader
import Ladybug.Json.Writer

/-!
# Stores of progress

* `Store`            records kept in memory, or in a file among others
* `Store.load`       all records
* `Store.get`        the first record of a scenario
* `Store.save`       one more record, in place of those of its scenario
* `Store.complete`   records a solution

In memory a record keeps its place; in a file the record saved last comes last. A file is written
under another name first and then takes the place of the old one.
-/

namespace Ladybug

inductive Store where
  | memory (records : List Progress)
  | file (files : Files) (path : Path)
deriving Repr

/-- Why a store could not answer. -/
inductive StoreError where
  | fault (f : Fault)
  | issue (i : Issue)
  | notText
  | tooLong (digits : Nat)
  | nullByte
  | noName
  | emptyScenario
  | negativeCount
deriving DecidableEq, Repr

namespace Store

def ofScenario? (records : List Progress) (scenario : String) : Option Progress :=
  records.find? fun p => p.scenario == scenario

/-- The records with one more, in the place of the first one of its scenario. -/
def put (p : Progress) : List Progress → List Progress
  | [] => [p]
  | q :: qs => if q.scenario == p.scenario then p :: qs else q :: put p qs

/-- The records with one more at the end. -/
def putLast (p : Progress) (records : List Progress) : List Progress :=
  records.filter (fun q => q.scenario != p.scenario) ++ [p]

/-! ### files -/

def unreadable (path : Path) : Fault := .storage ("Could not read " ++ path.text) "io"
def unwritable (path : Path) : Fault := .storage ("Could not write " ++ path.text) "io"

def malformed (path : Path) (line : Nat) : Fault :=
  .storage ("Progress file " ++ path.text ++ " is not valid JSON") "corrupt" (some line)

def misshapen (path : Path) : Fault :=
  .storage ("Progress file " ++ path.text ++ " has an unexpected shape") "corrupt"

/-- The records of a document. An entry that is none is left out. -/
def recordsOf? (d : Datum) : Option (List Progress) :=
  match d with
  | .map es =>
    match (Datum.find? es "progress").getD (.list []) with
    | .list ds => some (ds.filterMap fun d => (Intake.progress d).toOption)
    | _ => none
  | _ => none

def readRecords (path : Path) (text : String) : Except StoreError (List Progress) :=
  match Json.read text with
  | .error ⟨.tooLong digits, _⟩ => .error (.tooLong digits)
  | .error m => .error (.fault (malformed path m.line))
  | .ok d => match recordsOf? d with
    | some ps => .ok ps
    | none => .error (.fault (misshapen path))

def read (fs : Files) (path : Path) : Except StoreError (List Progress) :=
  match fs.readText path with
  | .error .missing | .error .nullByte => .ok []
  | .error .directory => .error (.fault (unreadable path))
  | .error .notText => .error .notText
  | .ok text => readRecords path text

def version : Int := 1

def fileDatum (records : List Progress) : Datum :=
  .map [("version", .int version), ("progress", .list (records.map Progress.datum))]

def fileText (records : List Progress) : String := Json.indented Json.ascii (fileDatum records)

/-- what the file is called while it is written -/
def temporary (path : Path) : Path := path.withSuffix ".tmp"

/-- Each step of writing needs the one before it; what was done before a failure stays. -/
def write (fs : Files) (path : Path) (records : List Progress) : Files × Bool :=
  let (fs, made) := fs.makeDirectories path.parent
  if !made then (fs, false)
  else
    let (fs, written) := fs.write (temporary path) (Text.encode (fileText records).toList)
    if !written then (fs, false)
    else fs.rename (temporary path) path

/-- A null character in the name is met only when the directories have been made. -/
def writeFile (fs : Files) (path : Path) (records : List Progress) :
    Store × Except StoreError Unit :=
  if path.name.isEmpty then (.file fs path, .error .noName)
  else if path.parent.hasNull then (.file fs path, .error .nullByte)
  else if path.hasNull then
    match fs.makeDirectories path.parent with
    | (fs, true) => (.file fs path, .error .nullByte)
    | (fs, false) => (.file fs path, .error (.fault (unwritable path)))
  else match write fs path records with
    | (fs, true) => (.file fs path, .ok ())
    | (fs, false) => (.file fs path, .error (.fault (unwritable path)))

/-! ### the operations -/

def load : Store → Except StoreError (List Progress)
  | .memory records => .ok records
  | .file fs path => read fs path

def get (s : Store) (scenario : String) : Except StoreError (Option Progress) :=
  s.load.map fun records => ofScenario? records scenario

def save (s : Store) (p : Progress) : Store × Except StoreError Unit :=
  match s with
  | .memory records => (.memory (put p records), .ok ())
  | .file fs path =>
    match read fs path with
    | .error e => (s, .error e)
    | .ok records => writeFile fs path (putLast p records)

def clear : Store → Store × Except StoreError Unit
  | .memory _ => (.memory [], .ok ())
  | .file fs path => writeFile fs path []

/-- The record of a scenario after a solution, which is saved. The name of the scenario must be one
that can be read again. -/
def complete (s : Store) (scenario : String) (commands : Int) (at_ : Instant) :
    Store × Except StoreError Progress :=
  if scenario.isEmpty then (s, .error .emptyScenario)
  else if commands < 0 then (s, .error .negativeCount)
  else match s.get scenario, Intake.under "scenario_id" (Intake.someText (.text scenario)) with
    | .error e, _ => (s, .error e)
    | .ok _, .error i => (s, .error (.issue i))
    | .ok previous, .ok _ =>
      let p := Progress.completed scenario commands.toNat at_ previous
      let (s, r) := s.save p
      (s, r.map fun _ => p)

def files : Store → Files
  | .memory _ => {}
  | .file fs _ => fs

end Store

end Ladybug
