import Ladybug.Automaton.Basic

/-!
# What can be said of a program before a run

* `undefinedFault`      there is no program at all
* `structuralFault?`    the program or the current state cannot be executed
* `validate`            the program is not ready to run
* `validateStart`       a run cannot begin in a state
-/

namespace Ladybug.Automaton

def undefinedFault : Fault :=
  .structural "The FSM program is not properly defined. Please create some states first."

def noStopFault : Fault := .structural "The FSM program has no STOP state."

def lostFault (id : Option String) : Fault :=
  .structural ("Cannot find the current state. This might happen if you deleted a state "
    ++ "while the program was running. Try resetting the program.") id

/-- Why nothing can be done in a state, if so. -/
def structuralFault? (a : Automaton) (id : Option String) : Option Fault :=
  if a.states.isEmpty then some undefinedFault
  else if (a.state? a.stop).isNone then some noStopFault
  else if (id.bind a.state?).isNone then some (lostFault id)
  else none

def startNotFound (id : String) : Fault :=
  { Fault.validation "Start state not found" with stateId := some id }

/-- Why a program cannot be started, if so. -/
def validate (a : Automaton) : Option Fault :=
  match a.start with
  | none | some "" =>
    some (.validation "No start state set. Click \"Set as Start\" on a state to begin.")
  | some s =>
    if (a.state? s).isNone then some (startNotFound s)
    else if a.states.any fun s => s.id != a.stop && !s.transitions.isEmpty then none
    else some (.validation "No transitions defined. Add at least one transition to a state.")

/-- Why a run cannot begin in a state, if so. -/
def validateStart (a : Automaton) (id : String) : Option Fault :=
  if (a.state? id).isNone then some (startNotFound id)
  else if id = a.stop then
    some { Fault.validation "A run cannot start in the STOP state." with stateId := some id }
  else none

end Ladybug.Automaton
