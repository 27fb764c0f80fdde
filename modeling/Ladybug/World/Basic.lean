import Ladybug.Word

/-!
# Worlds: a grid of cells and one character on it

* `Direction`, `Cell`, `Position`   the pieces, with the names that documents use
* `World`             a grid and a character; the grid is a list of rows, the first one northmost
* `World.cellAt?`     the cell at a position, none outside the grid
* `World.put`         a world with one cell replaced
* `World.Valid`       the rows fit the size, and the character is on the grid or off it for good
* `World.misfit?`     the first reason why a world is not valid
* `World.blank`       a world of a size with some cells filled in
-/

namespace Ladybug

inductive Direction where
  | north
  | east
  | south
  | west
deriving DecidableEq, Repr

namespace Direction

def all : List Direction := [.north, .east, .south, .west]

def name : Direction → String
  | .north => "NORTH"
  | .east => "EAST"
  | .south => "SOUTH"
  | .west => "WEST"

/-- one step, eastwards and southwards -/
def delta : Direction → Int × Int
  | .north => (0, -1)
  | .east => (1, 0)
  | .south => (0, 1)
  | .west => (-1, 0)

def left : Direction → Direction
  | .north => .west
  | .east => .north
  | .south => .east
  | .west => .south

def right : Direction → Direction
  | .north => .east
  | .east => .south
  | .south => .west
  | .west => .north

def ofName? (s : String) : Option Direction := all.find? fun d => d.name == s

@[simp] theorem right_left (d : Direction) : d.left.right = d := by cases d <;> rfl

@[simp] theorem left_right (d : Direction) : d.right.left = d := by cases d <;> rfl

end Direction

inductive Cell where
  | empty
  | tree
  | mushroom
  | clover
deriving DecidableEq, Repr, Inhabited

namespace Cell

def all : List Cell := [.empty, .tree, .mushroom, .clover]

def name : Cell → String
  | .empty => "EMPTY"
  | .tree => "TREE"
  | .mushroom => "MUSHROOM"
  | .clover => "CLOVER"

/-- the character that stands for a cell in a picture -/
def glyph : Cell → Char
  | .empty => '.'
  | .tree => 'T'
  | .mushroom => 'M'
  | .clover => '*'

def ofName? (s : String) : Option Cell := all.find? fun c => c.name == s

def ofGlyph? (c : Char) : Option Cell := all.find? fun cell => cell.glyph == c

/-- A cell by its name; a wall is a tree. -/
def read? (s : String) : Option Cell := if s == "WALL" then some .tree else ofName? s

end Cell

structure Position where
  x : Int
  y : Int
deriving DecidableEq, Repr

namespace Position

/-- the position that stands for no place on the grid -/
def offGrid : Position := ⟨-1, -1⟩

def isOffGrid (p : Position) : Bool := p == offGrid

def step (p : Position) (d : Direction) : Position := ⟨p.x + d.delta.1, p.y + d.delta.2⟩

end Position

structure Character where
  position : Position
  direction : Direction := .north
  inventory : Nat := 0
deriving DecidableEq, Repr

abbrev Grid := List (List Cell)

structure World where
  width : Nat
  height : Nat
  grid : Grid
  character : Character
deriving DecidableEq, Repr

namespace Grid

/-- Row and column counted from zero. -/
def cell? (g : Grid) (x y : Nat) : Option Cell := (g[y]?).bind fun row => row[x]?

def put (g : Grid) (x y : Nat) (c : Cell) : Grid := g.modify y fun row => row.set x c

def allEmpty (width height : Nat) : Grid := List.replicate height (List.replicate width .empty)

/-- The cell at a point replaced, if the point is on the grid. -/
def mark (g : Grid) (entry : Position × Cell) : Grid :=
  let p := entry.1
  if 0 ≤ p.x && 0 ≤ p.y then g.put p.x.toNat p.y.toNat entry.2 else g

/-- the points of the cells of one kind, row by row -/
def positionsOf (g : Grid) (c : Cell) : List Position :=
  g.zipIdx.flatMap fun (row, y) =>
    (row.zipIdx.filter fun (cell, _) => cell == c).map fun (_, x) => ⟨x, y⟩

def count (g : Grid) (c : Cell) : Nat := g.flatten.count c

/-- A place that may be counted from the end, `-1` being the last one of `length`. -/
def place? (length : Nat) (i : Int) : Option Nat :=
  let i := if i < 0 then i + length else i
  if 0 ≤ i ∧ i < length then some i.toNat else none

/-- The cell in a column of a row, either of them counted from the end when below zero. -/
def pick? (g : Grid) (x y : Int) : Option Cell := do
  let row ← g[← place? g.length y]?
  row[← place? row.length x]?

/-- One change, its place counted as in `pick?`. -/
def change? (g : Grid) (x y : Int) (c : Cell) : Option Grid := do
  let y ← place? g.length y
  let row ← g[y]?
  let x ← place? row.length x
  some (g.put x y c)

/-- The cell that a list of points gives to one of them, the last word counting. -/
def lastAt? (cells : List (Position × Cell)) (p : Position) : Option Cell :=
  (cells.reverse.find? fun c => c.1 == p).map Prod.snd

/-- Changes in order, none if one of them has no place. A point that comes again only changes what
its first entry says, and all changes of a row are made where the first of them stands. -/
def changes? (g : Grid) (changes : List (Position × Cell)) : Option Grid :=
  let points := (changes.map Prod.fst).eraseDups
  let rows := (points.map Position.y).eraseDups
  let ordered := rows.flatMap fun y => points.filter fun p => p.y == y
  ordered.foldlM (fun g p => g.change? p.x p.y ((lastAt? changes p).getD .empty)) g

def picture (g : Grid) : List String := g.map fun row => String.ofList (row.map Cell.glyph)

end Grid

namespace World

def inBounds (w : World) (p : Position) : Bool :=
  0 ≤ p.x && p.x < w.width && 0 ≤ p.y && p.y < w.height

def cellAt? (w : World) (p : Position) : Option Cell :=
  if w.inBounds p then w.grid.cell? p.x.toNat p.y.toNat else none

/-- The world with the cell at a position of the grid replaced. -/
def put (w : World) (p : Position) (c : Cell) : World :=
  { w with grid := w.grid.put p.x.toNat p.y.toNat c }

def positionsOf (w : World) (c : Cell) : List Position := w.grid.positionsOf c

def count (w : World) (c : Cell) : Nat := w.grid.count c

/-- the position one step ahead of the character -/
def ahead (w : World) : Position := w.character.position.step w.character.direction

/-- Why a width, a height, rows and a character are no world. -/
inductive Misfit where
  | width
  | height
  | rows (found expected : Nat)
  | cells (row found expected : Nat)
  | character (position : Position)
deriving DecidableEq, Repr

/-- the first row that is not `width` cells long -/
def uneven? (width : Nat) (g : Grid) : Option Misfit :=
  (g.zipIdx.find? fun (row, _) => row.length != width).map fun (row, y) =>
    .cells y row.length width

/-- The first thing wrong with a world: its size, its rows, its character. -/
def misfit? (w : World) : Option Misfit :=
  if w.width < 1 then some .width
  else if w.height < 1 then some .height
  else if w.grid.length ≠ w.height then some (.rows w.grid.length w.height)
  else match uneven? w.width w.grid with
    | some m => some m
    | none =>
      let p := w.character.position
      if p.isOffGrid || w.inBounds p then none else some (.character p)

structure Valid (w : World) : Prop where
  width_pos : 1 ≤ w.width
  height_pos : 1 ≤ w.height
  rows : w.grid.length = w.height
  cells : ∀ row ∈ w.grid, row.length = w.width
  placed : w.character.position = Position.offGrid ∨ w.inBounds w.character.position = true

def checked (w : World) : Except Misfit World :=
  match w.misfit? with
  | some m => .error m
  | none => .ok w

/-- the size of a world when nothing is said -/
def defaultWidth : Nat := 8
def defaultHeight : Nat := 6

/-- A world of empty cells with some cells filled in, one after the other; points outside the grid
are ignored. Without a character, one stands in the middle and looks north. -/
def filled (width height : Nat) (character : Option Character)
    (cells : List (Position × Cell)) : World where
  width
  height
  grid := cells.foldl Grid.mark (Grid.allEmpty width height)
  character := character.getD { position := ⟨width / 2, height / 2⟩ }

/-- Why no world of a size is made: the length of a row is no word, or a misfit. -/
inductive Unmade where
  | rowTooLong
  | misfit (m : Misfit)
deriving DecidableEq, Repr

/-- The length of a row is a word. Where there is no row, any length will do. Running out of memory,
which is certain from `2 ^ 60` cells on, is left out: a row is made if its length is a word. -/
def rowTooLong (width height : Int) : Bool := 1 ≤ height && !fitsWord width

/-- The world `filled` where there is one. -/
def blank (width height : Int) (character : Option Character := none)
    (cells : List (Position × Cell) := []) : Except Unmade World :=
  if rowTooLong width height then .error .rowTooLong
  else if width < 1 then .error (.misfit .width)
  else if height < 1 then .error (.misfit .height)
  else (filled width.toNat height.toNat character cells).checked.mapError .misfit

end World

end Ladybug
