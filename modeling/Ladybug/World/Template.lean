import Ladybug.World.Layout

/-!
# Ready-made worlds

* `decorated`      a world of a given size; larger ones have a few things in them
* `template`       the worlds that have a name, and the empty grid for any other name
-/

namespace Ladybug.World

/-- A world with the character in its middle. With more than five columns and rows it has a ring
of clovers, two trees and a mushroom. -/
def decorated (width height : Int) : Except Unmade World :=
  blank width height none <|
    if 5 < width && 5 < height then
      [(3, 2), (4, 2), (2, 3), (5, 3), (3, 4), (4, 4), (2, 5)].map
        (fun (x, y) => (Position.mk x y, Cell.clover))
        ++ [(⟨1, 1⟩, .tree), (⟨width - 2, 1⟩, .tree), (⟨1, height - 2⟩, .mushroom)]
    else []

def emptyGrid : World := filled defaultWidth defaultHeight none []

/-- a world drawn row by row -/
def drawn (character : Character) (rows : List String) : World where
  width := (rows.head?.map String.length).getD 0
  height := rows.length
  grid := rows.map fun row => row.toList.map fun c => (Cell.ofGlyph? c).getD .empty
  character

def maze : World :=
  drawn { position := ⟨1, 1⟩, direction := .east }
    ["TTTTTTTTT",
     "T......*T",
     "T.TT.TT.T",
     "T.......T",
     "T.TT.TT.T",
     "T.......T",
     "TTTTTTTTT"]

def garden : World :=
  drawn { position := ⟨4, 3⟩ }
    ["........",
     ".T.*.*T.",
     "..*.*.*.",
     ".*.*.*..",
     ".T*.*.T.",
     "........"]

def obstacleCourse : World :=
  drawn { position := ⟨0, 0⟩, direction := .east }
    ["..........",
     ".*T..T..*.",
     ".M.....M..",
     "...T..T...",
     "....M.....",
     ".*T..T..*.",
     ".........."]

def template (name : String) : World :=
  if name == "Maze" then maze
  else if name == "Garden" then garden
  else if name == "Obstacle Course" then obstacleCourse
  else emptyGrid

end Ladybug.World
