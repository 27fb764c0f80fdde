import Ladybug.Fault
import Ladybug.Intake.Basic

/-!
# Intake of faults

`Intake.fault` reads a report that was stored or sent.
-/

namespace Ladybug.Intake
open Ladybug

def faultKind : Datum → Intake FaultKind := choice FaultKind.all FaultKind.name

def fault (d : Datum) : Intake Fault := do
  let es ← record "KaraError" d
  let kind ← field es ["kind"] faultKind
  let message ← field es ["message"] text
  let stateId ← fieldOr es ["state_id"] none (optional text)
  let action ← fieldOr es ["action"] none (optional text)
  let detectors ← fieldOr es ["detectors"] [] (list text)
  let line ← fieldOr es ["line"] none (optional int)
  let reason ← fieldOr es ["reason"] none (optional text)
  return { kind, message, stateId, action, detectors, line, reason }

end Ladybug.Intake
