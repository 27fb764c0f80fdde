import Ladybug.World.Basic

/-!
# Layouts: worlds as lists of points

* `Layout`          size, points of trees, mushrooms and clovers, and perhaps a character
* `Layout.world`    the world of a layout
* `Layout.ofWorld`  the layout of a world
-/

namespace Ladybug

structure CharacterLayout where
  x : Int
  y : Int
  direction : Direction := .north
  inventory : Nat := 0
deriving DecidableEq, Repr

/-- A layout has at least one column and one row. Its points may lie anywhere and may repeat. -/
structure Layout where
  width : Nat
  height : Nat
  trees : List Position := []
  mushrooms : List Position := []
  clovers : List Position := []
  character : Option CharacterLayout := none
deriving DecidableEq, Repr

namespace Layout

def CharacterLayout.place (c : CharacterLayout) : Character :=
  ⟨⟨c.x, c.y⟩, c.direction, c.inventory⟩

/-- the points with what stands on them; of two entries for a point the later one counts -/
def cells (l : Layout) : List (Position × Cell) :=
  l.trees.map (·, .tree) ++ l.mushrooms.map (·, .mushroom) ++ l.clovers.map (·, .clover)

def world (l : Layout) : Except World.Unmade World :=
  World.blank l.width l.height (l.character.map CharacterLayout.place) l.cells

def ofWorld (w : World) : Layout where
  width := w.width
  height := w.height
  trees := w.positionsOf .tree
  mushrooms := w.positionsOf .mushroom
  clovers := w.positionsOf .clover
  character := some
    ⟨w.character.position.x, w.character.position.y, w.character.direction, w.character.inventory⟩

end Layout

end Ladybug
