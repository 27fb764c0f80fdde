import Ladybug.Scenario.Goal
import Ladybug.World.Command
import Ladybug.World.Layout

/-!
# Scenarios: worlds with a goal

* `Scenario`          a layout, a goal and the commands that may be used
* `Scenario.start`    the world to begin with
* `Scenario.allows`   only commands of the scenario are used
* `Scenario.named?`   the first scenario of a list with an id
-/

namespace Ladybug

inductive Difficulty where
  | easy
  | medium
  | hard
deriving DecidableEq, Repr

namespace Difficulty

def all : List Difficulty := [.easy, .medium, .hard]

def name : Difficulty → String
  | .easy => "easy"
  | .medium => "medium"
  | .hard => "hard"

end Difficulty

structure Scenario where
  id : String
  title : String
  description : String
  difficulty : Difficulty
  layout : Layout
  allowed : List Command
  goal : Goal
  hints : List String := []
deriving Repr

namespace Scenario

def start (s : Scenario) : Except World.Unmade World := s.layout.world

def solvedBy (s : Scenario) (w : World) : Bool := s.goal.met w

def allows (s : Scenario) (cs : List Command) : Bool := cs.all fun c => s.allowed.contains c

theorem allows_iff {s : Scenario} {cs : List Command} :
    s.allows cs = true ↔ ∀ c ∈ cs, c ∈ s.allowed := by
  simp [allows]

def named? (scenarios : List Scenario) (id : String) : Option Scenario :=
  scenarios.find? fun s => s.id == id

end Scenario

end Ladybug
