import Ladybug.Fault
import Ladybug.World.Basic

/-!
# Commands: what the character can do

* `Command`         the five primitive commands
* `Command.apply`   the world after a command, none if the command cannot act
* `Obstacle`        what stood in the way, and `Command.obstacle`, which names it
* `Obstacle.fault`  its report
-/

namespace Ladybug

inductive Command where
  | moveForward
  | turnLeft
  | turnRight
  | pickClover
  | placeClover
deriving DecidableEq, Repr

namespace World

def moveTo (w : World) (p : Position) : World :=
  { w with character := { w.character with position := p } }

def face (w : World) (d : Direction) : World :=
  { w with character := { w.character with direction := d } }

def hold (w : World) (n : Nat) : World :=
  { w with character := { w.character with inventory := n } }

/-- One step ahead, a mushroom in the way being pushed to the cell behind it if that is empty. -/
def moveForward (w : World) : Option World :=
  if w.character.position.isOffGrid then none
  else
    let target := w.ahead
    match w.cellAt? target with
    | none | some .tree => none
    | some .mushroom =>
      let beyond := target.step w.character.direction
      if w.cellAt? beyond = some .empty then
        some (((w.put beyond .mushroom).put target .empty).moveTo target)
      else none
    | some .empty | some .clover => some (w.moveTo target)

def pickClover (w : World) : Option World :=
  let p := w.character.position
  if w.cellAt? p = some .clover then some ((w.put p .empty).hold (w.character.inventory + 1))
  else none

def placeClover (w : World) : Option World :=
  let p := w.character.position
  match w.character.inventory with
  | 0 => none
  | n + 1 => if w.cellAt? p = some .empty then some ((w.put p .clover).hold n) else none

end World

/-- What keeps a command from acting. -/
inductive Obstacle where
  | edge
  | tree
  | mushroom
  | noClover
  | inventoryEmpty
  | cellNotEmpty
  | unknown (command : Command)
deriving DecidableEq, Repr

namespace Command

def all : List Command := [.moveForward, .turnLeft, .turnRight, .pickClover, .placeClover]

def name : Command → String
  | .moveForward => "MOVE_FORWARD"
  | .turnLeft => "TURN_LEFT"
  | .turnRight => "TURN_RIGHT"
  | .pickClover => "PICK_CLOVER"
  | .placeClover => "PLACE_CLOVER"

def ofName? (s : String) : Option Command := all.find? fun c => c.name == s

def apply : Command → World → Option World
  | .moveForward, w => w.moveForward
  | .turnLeft, w => some (w.face w.character.direction.left)
  | .turnRight, w => some (w.face w.character.direction.right)
  | .pickClover, w => w.pickClover
  | .placeClover, w => w.placeClover

def obstacle (c : Command) (w : World) : Obstacle :=
  match c with
  | .moveForward =>
    match w.cellAt? w.ahead with
    | none => .edge
    | some .tree => .tree
    | some _ => .mushroom
  | .pickClover => .noClover
  | .placeClover => if w.character.inventory = 0 then .inventoryEmpty else .cellNotEmpty
  | c => .unknown c

end Command

namespace Obstacle

def reason : Obstacle → String
  | .edge => "edge"
  | .tree => "tree"
  | .mushroom => "mushroom"
  | .noClover => "no_clover"
  | .inventoryEmpty => "inventory_empty"
  | .cellNotEmpty => "cell_not_empty"
  | .unknown _ => "unknown"

def advice : String := " Check your sensor conditions to avoid this situation."

def message : Obstacle → String
  | .edge => "Kara cannot move forward - the edge of the world is in the way!" ++ advice
  | .tree => "Kara cannot move forward - there's a tree blocking the way!" ++ advice
  | .mushroom =>
    "Kara cannot move forward - the mushroom ahead cannot be pushed any further!" ++ advice
  | .noClover => "Kara cannot pick up a clover - there's no clover here! "
    ++ "Make sure the \"on leaf?\" condition is \"yes\" before picking up."
  | .inventoryEmpty =>
    "Kara cannot place a clover - the inventory is empty! Pick up some clovers first."
  | .cellNotEmpty => "Kara cannot place a clover here - the cell is not empty!"
  | .unknown c => "Kara cannot perform " ++ c.name ++ "."

end Obstacle

/-- The report of a command that left a world as it was. -/
def Command.blocked (c : Command) (w : World) : Fault where
  kind := .blockedAction
  message := (c.obstacle w).message
  action := some c.name
  reason := some (c.obstacle w).reason

end Ladybug
