import Ladybug.Decimal.Whole
import Ladybug.Intake.Basic
import Ladybug.World.Command
import Ladybug.World.Layout

/-!
# Intake of worlds and layouts

* `Intake.world`    a world whose grid holds names of cells
* `Intake.layout`   a layout
* `Intake.command`  a command by its name
-/

namespace Ladybug

/-- What is said of a size or a character that makes no world. -/
def World.Misfit.issue : World.Misfit → Issue
  | .width => ⟨["width"], "Input should be greater than or equal to 1"⟩
  | .height => ⟨["height"], "Input should be greater than or equal to 1"⟩
  | .rows found expected =>
    ⟨[], "Value error, grid has " ++ toString found ++ " rows, expected " ++ toString expected⟩
  | .cells row found expected =>
    ⟨[], "Value error, row " ++ toString row ++ " has " ++ toString found ++ " cells, expected "
      ++ toString expected⟩
  | .character p =>
    ⟨[], "Value error, "
      ++ if Decimal.isLong p.x || Decimal.isLong p.y then Decimal.unwritable
        else "character position (" ++ toString p.x ++ ", " ++ toString p.y
          ++ ") is outside the grid"⟩

namespace Intake

def direction : Datum → Intake Direction := choice Direction.all Direction.name

def cell : Datum → Intake Cell := choice Cell.all Cell.name

def command : Datum → Intake Command := choice Command.all Command.name

def position (d : Datum) : Intake Position := do
  let es ← record "Position" d
  let x ← field es ["x"] int
  let y ← field es ["y"] int
  return ⟨x, y⟩

def character (d : Datum) : Intake Character := do
  let es ← record "Character" d
  let position ← field es ["position"] position
  let direction ← fieldOr es ["direction"] .north direction
  let inventory ← fieldOr es ["inventory"] 0 nat
  return ⟨position, direction, inventory⟩

def checkedWorld (w : World) : Intake World :=
  match w.checked with
  | .ok w => .ok w
  | .error m => .error m.issue

/-- A world, its grid being read in a way of its own. -/
def worldWith (grid : Datum → Intake Grid) (d : Datum) : Intake World := do
  let es ← record "World" d
  let width ← field es ["width"] (intFrom 1)
  let height ← field es ["height"] (intFrom 1)
  let grid ← field es ["grid"] grid
  let character ← field es ["character"] character
  checkedWorld ⟨width.toNat, height.toNat, grid, character⟩

def world : Datum → Intake World := worldWith (row (row cell))

/-- two numbers -/
def point (d : Datum) : Intake Position :=
  match inRow? d with
  | none => fail "Input should be a valid tuple"
  | some ds =>
    if 2 < ds.length then
      fail ("Tuple should have at most 2 items after validation, not " ++ toString ds.length)
    else do
      let ns ← items int 0 ds
      match ns with
      | [x, y] => return ⟨x, y⟩
      | ns => under (toString ns.length) (fail "Field required")

def characterLayout (d : Datum) : Intake CharacterLayout := do
  let es ← record "CharacterLayout" d
  let x ← field es ["x"] int
  let y ← field es ["y"] int
  let direction ← fieldOr es ["direction"] .north direction
  let inventory ← fieldOr es ["inventory"] 0 nat
  return ⟨x, y, direction, inventory⟩

def layout (d : Datum) : Intake Layout := do
  let es ← record "WorldLayout" d
  let width ← field es ["width"] (intFrom 1)
  let height ← field es ["height"] (intFrom 1)
  let trees ← fieldOr es ["trees"] [] (list point)
  let mushrooms ← fieldOr es ["mushrooms"] [] (list point)
  let clovers ← fieldOr es ["clovers"] [] (list point)
  let character ← fieldOr es ["character"] none (optional characterLayout)
  return ⟨width.toNat, height.toNat, trees, mushrooms, clovers, character⟩

end Intake

end Ladybug
