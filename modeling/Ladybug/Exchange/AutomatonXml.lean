import Ladybug.Automaton.Basic
import Ladybug.Decimal.Shortest
import Ladybug.Exchange.Xml
import Ladybug.Ident

/-!
# Automata as XML

A `.kara` document knows states by their names. It has no value for a condition that does not
matter; such a condition is left out.

* `automatonElement`     the document of a program
* `automatonOfElement`   the program of a document, with new ids
-/

namespace Ladybug.Exchange
open Ladybug

/-- the name of a command in a document -/
def commandTag : Command → String
  | .moveForward => "move"
  | .turnLeft => "turnLeft"
  | .turnRight => "turnRight"
  | .pickClover => "removeLeaf"
  | .placeClover => "putLeaf"

def commandOfTag? (s : String) : Option Command := Command.all.find? fun c => commandTag c == s

def yes : String := "1"
def no : String := "2"

/-- a detector as a question -/
def question : Detector → String
  | .treeFront => "tree in front?"
  | .treeLeft => "tree to the left?"
  | .treeRight => "tree to the right?"
  | .mushroomFront => "mushroom in front?"
  | .onLeaf => "leaf on the ground?"

/-! ### writing -/

/-- The detectors of a state, then those that its conditions ask in addition. -/
def stateSensors (s : Automaton.State) : List Detector :=
  (s.transitions.flatMap fun t => t.conditions.required.map Prod.fst).foldl
    (fun ds d => if ds.contains d then ds else ds ++ [d]) s.detectors

def stateElement (a : Automaton) (s : Automaton.State) : Xml.Element :=
  .plain "XmlState"
    [("finalstate", if s.id = a.stop then "true" else "false"), ("name", s.name),
     ("x", Decimal.oneDecimal s.x), ("y", Decimal.oneDecimal s.y)]
    [.plain "XmlSensors" []
      ((stateSensors s).map fun d => .plain "XmlSensor" [("name", d.name)] [])]

def conditionElement (c : Detector × Bool) : Xml.Element :=
  .plain "XmlSensorValue" [("name", c.1.name), ("value", if c.2 then yes else no)] []

/-- A transition between states that exist. -/
def transitionElement? (a : Automaton) (s : Automaton.State) (t : Automaton.Transition) :
    Option Xml.Element :=
  (a.state? t.target).map fun target =>
    .plain "XmlTransition" [("from", s.name), ("to", target.name)]
      [.plain "XmlSensorValues" [] (t.conditions.required.map conditionElement),
       .plain "XmlCommands" []
        (t.actions.map fun c => .plain "XmlCommand" [("name", commandTag c)] [])]

def definitionElement (d : Detector) : Xml.Element :=
  .plain "XmlSensorDefinition"
    [("description", question d), ("identifier", d.name), ("name", d.name)] []

def automatonElement (a : Automaton) : Xml.Element :=
  let start := ((a.start.bind a.state?).map Automaton.State.name).getD ""
  .plain "XmlStateMachines" [("version", formatVersion)]
    (.plain "XmlStateMachine" [("actor", actorName), ("startState", start)]
        (a.states.map (stateElement a)
          ++ a.states.flatMap fun s => s.transitions.filterMap (transitionElement? a s))
      :: Detector.all.map definitionElement)

def writeAutomatonXml (a : Automaton) : String := Xml.document (automatonElement a)

/-! ### reading -/

/-- The states so far with the last one first, the id of the final one and of the one to start in,
and where ids come from. -/
structure StateReading where
  states : List Automaton.State := []
  stop : Option String := none
  start : Option String := none
  ids : Ids := {}

def stateName (e : Xml.Element) : String :=
  match e.attribute? "name" with
  | none | some "" => "Unnamed"
  | some name => name

/-- the place of a state that has none -/
def defaultPlace : Binary := .ofInt 100

def sensorsOf (e : Xml.Element) : List Detector :=
  (e.allNamed "XmlSensor").filterMap fun s => (s.attribute? "name").bind Detector.ofName?

/-- One more state. A name that is there already is passed over. The first final state is the stop
state, with an id of its own. -/
def addState (startName : String) (r : StateReading) (e : Xml.Element) :
    Except Fault StateReading := do
  let name := stateName e
  if r.states.any fun s => s.name == name then return r
  let final := e.attribute? "finalstate" == some "true"
  let (id, stop, ids) :=
    if final && r.stop.isNone then (Automaton.stopId, some Automaton.stopId, r.ids)
    else
      let (id, ids) := r.ids.draw ("state-" ++ slug name)
      (id, r.stop, ids)
  let x ← numberAttribute e "x" defaultPlace
  let y ← numberAttribute e "y" defaultPlace
  return {
    states := { id, name, x, y, detectors := sensorsOf e } :: r.states
    stop
    start := if name == startName then some id else r.start
    ids }

/-- The conditions of a transition, a repeated detector in its first place with its last value. -/
def conditionsOf (e : Xml.Element) : Automaton.Conditions :=
  (e.allNamed "XmlSensorValue").foldl (fun cs v =>
    match (v.attribute? "name").bind Detector.ofName?, v.attribute? "value" with
    | some d, some value =>
      if value == yes || value == no then setCondition cs d (value == yes) else cs
    | _, _ => cs) []
where
  setCondition : Automaton.Conditions → Detector → Bool → Automaton.Conditions
    | [], d, b => [(d, some b)]
    | c :: cs, d, b => if c.1 = d then (d, some b) :: cs else c :: setCondition cs d b

def actionsOf (e : Xml.Element) : List Command :=
  (e.allNamed "XmlCommand").filterMap fun c => (c.attribute? "name").bind commandOfTag?

def idOfName? (states : List Automaton.State) (name : String) : Option String :=
  (states.find? fun s => s.name == name).map Automaton.State.id

/-- A transition between two states, which goes to the end of those of its source. Transitions of
the stop state and those that name no state are passed over. -/
def addTransition (stop : Option String) (r : List Automaton.State × Ids) (e : Xml.Element) :
    List Automaton.State × Ids :=
  let (states, ids) := r
  match idOfName? states ((e.attribute? "from").getD ""),
      idOfName? states ((e.attribute? "to").getD "") with
  | some source, some target =>
    if some source = stop then r
    else
      let (id, ids) := ids.draw "transition"
      let t : Automaton.Transition := ⟨id, target, conditionsOf e, actionsOf e⟩
      (states.map fun s =>
        if s.id = source then { s with transitions := s.transitions ++ [t] } else s, ids)
  | _, _ => r

/-- The program of a document. One without a final state gets a stop state. -/
def automatonOfElement (root : Xml.Element) : Except Fault Automaton := do
  let some machine := findElement root "XmlStateMachine"
    | throw (.parse "Missing XmlStateMachine element in .kara file")
  let startName := (machine.attribute? "startState").getD ""
  let r ← (machine.allNamed "XmlState").foldlM (addState startName) {}
  let (states, _) :=
    (machine.allNamed "XmlTransition").foldl (addTransition r.stop) (r.states.reverse, r.ids)
  match r.stop with
  | some stop => return ⟨states, r.start, stop⟩
  | none => return ⟨states ++ [Automaton.stopState], r.start, Automaton.stopId⟩

def readAutomatonXml (content : String) : Except Refusal Automaton :=
  match parseXml ".kara" content with
  | .error r => .error r
  | .ok root => orRefusal (automatonOfElement root)

end Ladybug.Exchange
