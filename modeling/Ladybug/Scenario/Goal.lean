import Ladybug.Datum
import Ladybug.Decimal.Whole
import Ladybug.World.Basic

/-!
# Goals: what is asked of the world at the end

* `Goal`              the conditions, and several of them together
* `Goal.met`          a world meets a goal
* `Goal.description`  the goal in words
* `Goal.words?`       the same, unless a number in it is too long to be written
* `Goal.datum`        the goal as documents hold it
-/

namespace Ladybug

inductive Goal where
  | noClovers
  | reach (place : Position)
  | noCloversAnd (home : Position)
  | cloverAt (place : Position)
  | inventory (count : Nat)
  | facing (direction : Direction)
  | allOf (goals : List Goal)
deriving Repr, Inhabited

namespace Goal

mutual

def met : Goal → World → Bool
  | .noClovers, w => w.count .clover == 0
  | .reach p, w => w.character.position == p
  | .noCloversAnd p, w => w.character.position == p && w.count .clover == 0
  | .cloverAt p, w => w.cellAt? p == some .clover
  | .inventory n, w => w.character.inventory == n
  | .facing d, w => w.character.direction == d
  | .allOf gs, w => allMet gs w

def allMet : List Goal → World → Bool
  | [], _ => true
  | g :: gs, w => g.met w && allMet gs w

end

theorem allMet_iff {gs : List Goal} {w : World} :
    allMet gs w = true ↔ ∀ g ∈ gs, g.met w = true := by
  induction gs with
  | nil => simp [allMet]
  | cons g gs ih => simp [allMet, ih]

def placeText (p : Position) : String := "(" ++ toString p.x ++ ", " ++ toString p.y ++ ")"

mutual

def description : Goal → String
  | .noClovers => "Collect all clovers from the world"
  | .reach p => "Reach position " ++ placeText p
  | .noCloversAnd _ => "Collect all clovers and return to start"
  | .cloverAt p => "Place a clover at position " ++ placeText p
  | .inventory n =>
    "Have exactly " ++ toString n ++ (if n = 1 then " clover" else " clovers") ++ " in inventory"
  | .facing d => "Face " ++ d.name
  | .allOf gs => String.intercalate " AND " (descriptions gs)

def descriptions : List Goal → List String
  | [] => []
  | g :: gs => g.description :: descriptions gs

end

mutual

/-- A number in the words of a goal is too long to be written. -/
def hasLong : Goal → Bool
  | .reach p | .cloverAt p => Decimal.isLong p.x || Decimal.isLong p.y
  | .inventory n => Decimal.isLong n
  | .allOf gs => anyHasLong gs
  | .noClovers | .noCloversAnd _ | .facing _ => false

def anyHasLong : List Goal → Bool
  | [] => false
  | g :: gs => g.hasLong || anyHasLong gs

end

def words? (g : Goal) : Option String := if g.hasLong then none else some g.description

/-! ### goals in documents -/

/-- The forms of goals, in the order in which messages list them. -/
inductive Form where
  | noClovers
  | reach
  | noCloversAnd
  | cloverAt
  | inventory
  | facing
  | allOf
deriving DecidableEq, Repr

namespace Form

def all : List Form :=
  [.noClovers, .reach, .noCloversAnd, .cloverAt, .inventory, .facing, .allOf]

def name : Form → String
  | .noClovers => "collect_all_clovers"
  | .reach => "reach_position"
  | .noCloversAnd => "collect_clovers_and_return"
  | .cloverAt => "place_clover_at"
  | .inventory => "inventory_equals"
  | .facing => "facing"
  | .allOf => "all_of"

def ofName? (s : String) : Option Form := all.find? fun f => f.name == s

end Form

def form : Goal → Form
  | .noClovers => .noClovers
  | .reach _ => .reach
  | .noCloversAnd _ => .noCloversAnd
  | .cloverAt _ => .cloverAt
  | .inventory _ => .inventory
  | .facing _ => .facing
  | .allOf _ => .allOf

/-- the entry that names the form -/
def formField : String := "kind"

mutual

/-- what a goal says beside its form -/
def entries : Goal → List (String × Datum)
  | .noClovers => []
  | .reach p | .noCloversAnd p | .cloverAt p => [("x", .int p.x), ("y", .int p.y)]
  | .inventory n => [("count", .int n)]
  | .facing d => [("direction", .text d.name)]
  | .allOf gs => [("conditions", .list (data gs))]

def datum (g : Goal) : Datum := .map ((formField, .text g.form.name) :: g.entries)

def data : List Goal → List Datum
  | [] => []
  | g :: gs => g.datum :: data gs

end

end Goal

end Ladybug
