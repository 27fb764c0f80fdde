import Ladybug.Decimal.Binary
import Ladybug.Text.Quoted
import Ladybug.World.Command
import Ladybug.World.Sensor

/-!
# Automata: programs of states and guarded transitions

* `Automaton`                states, a start state perhaps, and the state in which a run ends
* `Automaton.Transition`     conditions on readings, actions, and the state to go to
* `Automaton.state?`         the first state with an id
* `Automaton.displayName`    the name of a state in messages
* `Automaton.WellFormed`     the stop state exists and has no transitions
-/

namespace Ladybug

namespace Command

/-- the name of a command as an action of an automaton -/
def actionName : Command → String
  | .moveForward => "move"
  | .turnLeft => "turnLeft"
  | .turnRight => "turnRight"
  | .pickClover => "pickClover"
  | .placeClover => "placeClover"

def ofActionName? (s : String) : Option Command := all.find? fun c => c.actionName == s

end Command

namespace Automaton

/-- what is asked of readings; a reading under `none` may be anything -/
abbrev Conditions := List (Detector × Option Bool)

/-- A detector that the conditions do not name is not asked. Each detector has one entry. -/
structure Transition where
  id : String
  target : String
  conditions : Conditions := []
  actions : List Command := []
deriving DecidableEq, Repr

/-- A state has a place in the drawing, and the detectors that an editor offers for it. -/
structure State where
  id : String
  name : String
  x : Binary := .zero
  y : Binary := .zero
  transitions : List Transition := []
  detectors : List Detector := []
deriving DecidableEq, Repr

end Automaton

structure Automaton where
  states : List Automaton.State
  start : Option String := none
  stop : String := "stop"
deriving DecidableEq, Repr

namespace Automaton

def stopId : String := "stop"
def stopName : String := "Stop"

/-- where an editor puts the stop state of a new program -/
def stopState : State :=
  { id := stopId, name := stopName, x := .ofInt 300, y := .ofInt 100 }

/-- The conditions that ask for something. -/
def Conditions.required (c : Conditions) : List (Detector × Bool) :=
  c.filterMap fun e => e.2.map fun b => (e.1, b)

def Transition.matches (t : Transition) (w : World) : Bool :=
  t.conditions.required.all fun e => e.1.read w == e.2

def state? (a : Automaton) (id : String) : Option State := a.states.find? fun s => s.id == id

def named? (a : Automaton) (name : String) : Option State :=
  a.states.find? fun s => s.name == name

def displayName (a : Automaton) (id : String) : String :=
  match a.state? id with
  | none => "unknown state (" ++ id ++ ")"
  | some s =>
    if id = a.stop then "STOP"
    else if some id = a.start then s.name ++ " (Start)"
    else s.name

/-- What is wrong with a program whatever it does. -/
inductive Flaw where
  | noStop (stop : String)
  | stopTransitions
deriving DecidableEq, Repr

def Flaw.message : Flaw → String
  | .noStop stop => "stop state " ++ Text.quote stop ++ " is not among the states"
  | .stopTransitions => "the stop state cannot have transitions"

def flaw? (a : Automaton) : Option Flaw :=
  match a.state? a.stop with
  | none => some (.noStop a.stop)
  | some s => if s.transitions.isEmpty then none else some .stopTransitions

def WellFormed (a : Automaton) : Prop :=
  ∃ s, a.state? a.stop = some s ∧ s.transitions = []

/-- The transition to take: the first one of the state that matches, none for the stop state. -/
def transition? (a : Automaton) (w : World) (id : String) : Option Transition :=
  if id = a.stop then none
  else (a.state? id).bind fun s => s.transitions.find? fun t => t.matches w

/-- A program with nothing but the stop state. -/
def empty : Automaton := { states := [stopState] }

end Automaton

end Ladybug
