import Ladybug.Datum
import Ladybug.Instant.Basic

/-!
# Progress: how well a scenario has been solved

* `Progress`              the record of one scenario
* `starsFor`              the stars of a solution, more for a shorter one
* `Progress.completed`    the record after a solution: the best of it and of what was there
* `Progress.datum`        the record as it is saved
-/

namespace Ladybug

structure Progress where
  scenario : String
  done : Bool := false
  stars : Nat := 0
  best : Option Nat := none
  completedAt : Option Instant := none
deriving DecidableEq, Repr

def mostStars : Nat := 3

def starsFor (commands : Int) : Nat := if commands ≤ 5 then 3 else if commands ≤ 10 then 2 else 1

namespace Progress

/-- The record of a scenario solved with some commands, after an earlier record if there is one. -/
def completed (scenario : String) (commands : Nat) (at_ : Instant) (previous : Option Progress) :
    Progress where
  scenario
  done := true
  stars := max (starsFor commands) ((previous.map Progress.stars).getD 0)
  best := some <| match previous.bind Progress.best with
    | some n => min commands n
    | none => commands
  completedAt := some at_

def datum (p : Progress) : Datum :=
  .map
    [("scenario_id", .text p.scenario),
     ("completed", .bool p.done),
     ("stars", .int p.stars),
     ("best_command_count", p.best.elim .null fun n => .int n),
     ("completed_at", p.completedAt.elim .null fun i => .text i.text)]

end Progress

end Ladybug
