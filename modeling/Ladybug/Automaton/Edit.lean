import Ladybug.Automaton.Basic
import Ladybug.Ident

/-!
# Editing automata

Each operation gives a new program or says why it cannot. Those that draw an id give the source of
ids back as well, and an id that was drawn stays drawn.
-/

namespace Ladybug.Automaton

inductive EditError where
  | unknownState (id : String)
  | unknownTransition (id : String)
  | startAtStop
  | stopTransition
deriving DecidableEq, Repr

def EditError.message : EditError → String
  | .unknownState id => "Unknown state: " ++ id
  | .unknownTransition id => "Unknown transition: " ++ id
  | .startAtStop => "The STOP state cannot be the start state"
  | .stopTransition => "The STOP state cannot have transitions"

def require (a : Automaton) (id : String) : Except EditError State :=
  match a.state? id with
  | some s => .ok s
  | none => .error (.unknownState id)

def mapState (a : Automaton) (id : String) (f : State → State) : Automaton :=
  { a with states := a.states.map fun s => if s.id = id then f s else s }

/-- Changes every state with an id. -/
def change (a : Automaton) (id : String) (f : State → State) : Except EditError Automaton :=
  match a.require id with
  | .error e => .error e
  | .ok _ => .ok (a.mapState id f)

/-- One more state. Without coordinates it takes its place in a cascade. -/
def addState (a : Automaton) (ids : Ids) (name : String) (x y : Option Binary) :
    Automaton × Ids :=
  let n := a.states.length
  let (id, ids) := ids.draw "state"
  let s : State :=
    { id, name
      x := x.getD (.ofInt (150 + n * 50))
      y := y.getD (.ofInt (100 + n * 20)) }
  ({ a with states := a.states ++ [s] }, ids)

/-- A program without a state and without all transitions to it. The stop state stays. -/
def deleteState (a : Automaton) (id : String) : Automaton :=
  if id = a.stop then a
  else
    { a with
      states := (a.states.filter fun s => s.id != id).map fun s =>
        { s with transitions := s.transitions.filter fun t => t.target != id }
      start := if a.start = some id then none else a.start }

def renameState (a : Automaton) (id name : String) : Except EditError Automaton :=
  a.change id fun s => { s with name }

def moveState (a : Automaton) (id : String) (x y : Binary) : Except EditError Automaton :=
  a.change id fun s => { s with x, y }

def setStart (a : Automaton) (id : Option String) : Except EditError Automaton :=
  match id with
  | none => .ok { a with start := none }
  | some s =>
    match a.require s with
    | .error e => .error e
    | .ok _ => if s = a.stop then .error .startAtStop else .ok { a with start := some s }

/-- The detectors that an editor offers, each of them once. -/
def setDetectors (a : Automaton) (id : String) (ds : List Detector) :
    Except EditError Automaton :=
  a.change id fun s => { s with detectors := ds.eraseDups }

/-- One more transition, tried after those that are there. -/
def addTransition (a : Automaton) (ids : Ids) (source target : String)
    (conditions : Conditions) (actions : List Command) : Except EditError Automaton × Ids :=
  if source = a.stop then (.error .stopTransition, ids)
  else match a.require target with
    | .error e => (.error e, ids)
    | .ok _ =>
      let (id, ids) := ids.draw "transition"
      let t : Transition := ⟨id, target, conditions, actions⟩
      (a.change source fun s => { s with transitions := s.transitions ++ [t] }, ids)

/-- What an update leaves alone is `none`. -/
structure Update where
  target : Option String := none
  conditions : Option Conditions := none
  actions : Option (List Command) := none
deriving DecidableEq, Repr

def Transition.update (t : Transition) (u : Update) : Transition where
  id := t.id
  target := u.target.getD t.target
  conditions := u.conditions.getD t.conditions
  actions := u.actions.getD t.actions

def requireTarget (a : Automaton) : Option String → Except EditError Unit
  | none => .ok ()
  | some id => (a.require id).map fun _ => ()

def updateTransition (a : Automaton) (source id : String) (u : Update) :
    Except EditError Automaton :=
  match a.requireTarget u.target with
  | .error e => .error e
  | .ok _ =>
    match a.require source with
    | .error e => .error e
    | .ok s =>
      if s.transitions.any fun t => t.id == id then
        let ts := s.transitions.map fun t => if t.id = id then t.update u else t
        .ok (a.mapState source fun s => { s with transitions := ts })
      else .error (.unknownTransition id)

def deleteTransition (a : Automaton) (source id : String) : Except EditError Automaton :=
  a.change source fun s => { s with transitions := s.transitions.filter fun t => t.id != id }

end Ladybug.Automaton
