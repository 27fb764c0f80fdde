import Ladybug.World.Basic

/-!
# Pictures of worlds

`World.picture` draws a world with one character for each cell, the character of the world as an
arrow, and its inventory below.
-/

namespace Ladybug

def Direction.arrow : Direction → Char
  | .north => '^'
  | .east => '>'
  | .south => 'v'
  | .west => '<'

namespace World

/-- the mark of a cell, an arrow where the character stands -/
def mark (w : World) (x y : Nat) (c : Cell) : Char :=
  if w.character.position == ⟨x, y⟩ then w.character.direction.arrow else c.glyph

def rowMarks (w : World) (row : List Cell) (y : Nat) : List Char :=
  row.zipIdx.map fun (c, x) => w.mark x y c

def rowPicture (marks : List Char) : String := " ".intercalate (marks.map String.singleton)

def picture (w : World) : String :=
  "\n".intercalate <| (w.grid.zipIdx.map fun (row, y) => rowPicture (w.rowMarks row y))
    ++ ["inventory: " ++ toString w.character.inventory]

end World

end Ladybug
