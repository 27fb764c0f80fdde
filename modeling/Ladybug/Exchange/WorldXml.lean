import Ladybug.Exchange.Xml
import Ladybug.World.Layout

/-!
# Worlds as XML

A `.world` document lists the points of trees, mushrooms and clovers in blocks of their own, and the
character with a number for its direction. It has no place for the inventory.

* `worldElement`       the document of a world
* `worldOfElement`     the world of a document
-/

namespace Ladybug.Exchange
open Ladybug

def pointBlocks : List (String × Cell) :=
  [("XmlWallPoints", .tree), ("XmlObstaclePoints", .mushroom),
    ("XmlPaintedfieldPoints", .clover)]

def directionCode : Direction → Nat
  | .north => 0
  | .east => 1
  | .south => 2
  | .west => 3

/-- The direction with a number, north for any other number. -/
def directionOfCode (i : Int) : Direction :=
  (Direction.all.find? fun d => Int.ofNat (directionCode d) == i).getD .north

/-! ### writing -/

def pointElement (c : Cell) (p : Position) : Xml.Element :=
  let kind := if c = .clover then [("type", "0")] else []
  .plain "XmlPoint" (kind ++ [("x", toString p.x), ("y", toString p.y)]) []

def blockElement (w : World) (block : String × Cell) : Xml.Element :=
  .plain block.1 [] ((w.positionsOf block.2).map (pointElement block.2))

def characterElement (c : Character) : Xml.Element :=
  .plain "XmlKara"
    [("direction", toString (directionCode c.direction)), ("name", actorName),
     ("x", toString c.position.x), ("y", toString c.position.y)] []

def worldElement (w : World) : Xml.Element :=
  .plain "XmlWorld"
    [("sizex", toString w.width), ("sizey", toString w.height), ("version", formatVersion)]
    (pointBlocks.map (blockElement w)
      ++ [.plain "XmlKaraList" []
            (if w.character.position.isOffGrid then [] else [characterElement w.character]),
          .plain "XmlStreetList" [] []])

def writeWorldXml (w : World) : String := Xml.document (worldElement w)

/-! ### reading -/

def pointOf (e : Xml.Element) : Except Refusal Position := do
  let x ← intAttribute e "x" 0
  let y ← intAttribute e "y" 0
  return ⟨x, y⟩

/-- the points in all blocks of one kind -/
def blockCells (e : Xml.Element) (block : String × Cell) :
    Except Refusal (List (Position × Cell)) :=
  ((e.childrenOf block.1).flatMap fun b => b.childrenOf "XmlPoint").mapM fun p => do
    return (← pointOf p, block.2)

/-- The character of an element. Outside the grid it is off the grid. -/
def characterOf (width height : Int) (e : Xml.Element) : Except Refusal Character := do
  let x ← intAttribute e "x" (width / 2)
  let y ← intAttribute e "y" (height / 2)
  let code ← intAttribute e "direction" 0
  let inside := 0 ≤ x && x < width && 0 ≤ y && y < height
  return { position := if inside then ⟨x, y⟩ else .offGrid, direction := directionOfCode code }

def worldOfElement (root : Xml.Element) : Except Refusal World := do
  let some e := findElement root "XmlWorld"
    | throw (.fault (.parse "Missing XmlWorld element in .world file"))
  let width ← intAttribute e "sizex" World.defaultWidth
  let height ← intAttribute e "sizey" World.defaultHeight
  if width < 1 ∨ height < 1 then
    throw (.fault (.parse ("Invalid world size " ++ toString width ++ "x" ++ toString height
      ++ " in .world file")))
  let cells ← pointBlocks.mapM (blockCells e)
  let character ←
    match (e.childrenOf "XmlKaraList").flatMap fun l => l.childrenOf "XmlKara" with
    | [] => pure { position := ⟨width / 2, height / 2⟩ }
    | k :: _ => characterOf width height k
  if World.rowTooLong width height then throw .tooLarge
  return World.filled width.toNat height.toNat (some character) cells.flatten

def readWorldXml (content : String) : Except Refusal World :=
  match parseXml ".world" content with
  | .error r => .error r
  | .ok root => worldOfElement root

end Ladybug.Exchange
