import Ladybug.Automaton.Basic
import Ladybug.Intake.Basic

/-!
# Intake of automata

`Intake.automaton` reads a program from a document. Fields have a name in camel case and one with
underscores; where both stand, the first one counts.
-/

namespace Ladybug.Intake
open Ladybug

def detector : Datum → Intake Detector := choice Detector.all Detector.name

/-- An entry of the conditions: a detector, and yes, no or nothing. -/
def condition (e : String × Datum) : Intake (Detector × Option Bool) := do
  let name := Text.mended e.1
  let detector ← under name (under "[key]" (detector (.text e.1)))
  let value ← under name (optional bool e.2)
  return (detector, value)

def conditions (d : Datum) : Intake Automaton.Conditions :=
  match entries? d with
  | some es => es.mapM condition
  | none => fail "Input should be a valid dictionary"

def action (d : Datum) : Intake Command := do
  let es ← record "FSMAction" d
  field es ["type"] (choice Command.all Command.actionName)

def transition (d : Datum) : Intake Automaton.Transition := do
  let es ← record "FSMTransition" d
  let id ← field es ["id"] text
  let target ← field es ["targetStateId", "target_state_id"] text
  let conditions ← fieldOr es ["detectorConditions", "detector_conditions"] [] conditions
  let actions ← fieldOr es ["actions"] [] (list action)
  return { id, target, conditions, actions }

def state (d : Datum) : Intake Automaton.State := do
  let es ← record "FSMState" d
  let id ← field es ["id"] text
  let name ← field es ["name"] text
  let x ← fieldOr es ["x"] .zero float
  let y ← fieldOr es ["y"] .zero float
  let transitions ← fieldOr es ["transitions"] [] (list transition)
  let detectors ← fieldOr es ["activeDetectors", "active_detectors"] [] (list detector)
  return { id, name, x, y, transitions, detectors }

def automaton (d : Datum) : Intake Automaton := do
  let es ← record "FSMProgram" d
  let states ← field es ["states"] (list state)
  let start ← fieldOr es ["startStateId", "start_state_id"] none (optional text)
  let stop ← fieldOr es ["stopStateId", "stop_state_id"] Automaton.stopId text
  let a : Automaton := { states, start, stop }
  match a.flaw? with
  | some f => unfit f.message
  | none => return a

end Ladybug.Intake
