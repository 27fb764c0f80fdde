import Ladybug.Intake.Instant
import Ladybug.Progress.Basic

/-!
# Intake of progress

`Intake.progress` reads the record of one scenario.
-/

namespace Ladybug.Intake
open Ladybug

def stars (d : Datum) : Intake Nat := do
  let n ← int d
  let n ← atMost mostStars n
  return (← atLeast 0 n).toNat

def progress (d : Datum) : Intake Progress := do
  let es ← record "ScenarioProgress" d
  let scenario ← field es ["scenario_id"] someText
  let done ← fieldOr es ["completed"] false bool
  let stars ← fieldOr es ["stars"] 0 stars
  let best ← fieldOr es ["best_command_count"] none (optional nat)
  let completedAt ← fieldOr es ["completed_at"] none (optional instant)
  return { scenario, done, stars, best, completedAt }

end Ladybug.Intake
