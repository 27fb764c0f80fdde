import Ladybug.Exchange.Refusal
import Ladybug.Intake.Automaton
import Ladybug.Intake.World
import Ladybug.Json.Reader
import Ladybug.Json.Writer

/-!
# Worlds, automata and command lists as JSON

* `worldDatum`, `automatonDatum`     the shapes in which they are saved
* `worldOfDatum`, `automatonOfDatum` reading those shapes
* `writeWorld`, `readWorld` and so on        the same with texts

In a world that is read a cell may be a name or an object with a `type`, and a wall is a tree.
-/

namespace Ladybug.Exchange
open Ladybug

def parseJson (what content : String) : Except Refusal Datum :=
  match Json.read content with
  | .ok d => .ok d
  | .error ⟨.tooLong digits, _⟩ => .error (.tooLong digits)
  | .error m =>
    .error (.fault (.parse ("Invalid JSON in " ++ what) (some m.line) (some m.cause.message)))

def accept {α : Type} (what : String) : Intake α → Except Fault α
  | .ok a => .ok a
  | .error i => .error (.parse ("Invalid " ++ what ++ ": " ++ i.textIn))

/-! ### worlds -/

def worldDatum (w : World) : Datum :=
  .map
    [("width", .int w.width),
     ("height", .int w.height),
     ("grid", .list (w.grid.map fun row =>
        .list (row.map fun c => .map [("type", .text c.name)]))),
     ("character", .map
        [("position", .map
            [("x", .int w.character.position.x), ("y", .int w.character.position.y)]),
         ("direction", .text w.character.direction.name),
         ("inventory", .int w.character.inventory)])]

def writeWorld (w : World) : String := Json.indented Json.ascii (worldDatum w)

/-- A cell given by its name, or by an object that holds the name. -/
def readCell (d : Datum) : Except Fault Cell :=
  let value := match d with
    | .map es => (Datum.find? es "type").getD .null
    | d => d
  match value with
  | .text s =>
    match Cell.read? s with
    | some c => .ok c
    | none => .error (.parse ("Invalid world: unknown cell type " ++ Text.quote s))
  | _ => .error (.parse ("Invalid world: unknown cell " ++ d.inner))

def readRow : Datum → Except Fault (List Cell)
  | .list ds => ds.mapM readCell
  | _ => .error (.parse "Invalid world: grid must be a list of rows")

def isList : Datum → Bool
  | .list _ => true
  | _ => false

def readGrid : Option Datum → Except Fault Grid
  | some (.list rows) =>
    if rows.all isList then rows.mapM readRow
    else .error (.parse "Invalid world: grid must be a list of rows")
  | _ => .error (.parse "Invalid world: grid must be a list of rows")

def worldOfDatum (d : Datum) : Except Fault World :=
  match d with
  | .map es =>
    match readGrid (Datum.find? es "grid") with
    | .error f => .error f
    | .ok g => accept "world" (Intake.worldWith (fun _ => .ok g) d)
  | _ => .error (.parse "Invalid world: expected a JSON object")

def readWorld (content : String) : Except Refusal World :=
  match parseJson "world" content with
  | .error r => .error r
  | .ok d => orRefusal (worldOfDatum d)

/-! ### automata -/

def triState : Option Bool → Datum
  | none => .null
  | some b => .bool b

def optionalText : Option String → Datum
  | none => .null
  | some s => .text s

def transitionDatum (t : Automaton.Transition) : Datum :=
  .map
    [("id", .text t.id),
     ("targetStateId", .text t.target),
     ("detectorConditions", .map (t.conditions.map fun e => (e.1.name, triState e.2))),
     ("actions", .list (t.actions.map fun c => .map [("type", .text c.actionName)]))]

def stateDatum (s : Automaton.State) : Datum :=
  .map
    [("id", .text s.id),
     ("name", .text s.name),
     ("x", .float s.x),
     ("y", .float s.y),
     ("transitions", .list (s.transitions.map transitionDatum)),
     ("activeDetectors", .list (s.detectors.map fun d => .text d.name))]

def automatonDatum (a : Automaton) : Datum :=
  .map
    [("states", .list (a.states.map stateDatum)),
     ("startStateId", optionalText a.start),
     ("stopStateId", .text a.stop)]

def writeAutomaton (a : Automaton) : String := Json.indented Json.unicode (automatonDatum a)

def automatonOfDatum (d : Datum) : Except Fault Automaton :=
  accept "FSM program" (Intake.automaton d)

def readAutomaton (content : String) : Except Refusal Automaton :=
  match parseJson "FSM program" content with
  | .error r => .error r
  | .ok d => orRefusal (automatonOfDatum d)

/-! ### commands -/

def writeCommands (cs : List Command) : String :=
  Json.indented Json.ascii (.list (cs.map fun c => .text c.name))

def readCommands (content : String) : Except Refusal (List Command) :=
  match parseJson "command list" content with
  | .error r => .error r
  | .ok d => orRefusal <| accept "command list" (Intake.list Intake.command d)

end Ladybug.Exchange
