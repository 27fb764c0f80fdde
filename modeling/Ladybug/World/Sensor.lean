import Ladybug.World.Basic

/-!
# Detectors: what the character can tell

* `Detector`            the five yes-or-no readings
* `Detector.read`       a reading; beyond the edge of the grid there seems to be a tree
* `World.phrases`       the readings that are true, in words
* `World.situation`     the same as one text
-/

namespace Ladybug

inductive Detector where
  | treeFront
  | treeLeft
  | treeRight
  | mushroomFront
  | onLeaf
deriving DecidableEq, Repr

namespace World

def neighbour? (w : World) (d : Direction) : Option Cell :=
  w.cellAt? (w.character.position.step d)

def treeTowards (w : World) (d : Direction) : Bool :=
  match w.neighbour? d with
  | none | some .tree => true
  | _ => false

end World

namespace Detector

def all : List Detector := [.treeFront, .treeLeft, .treeRight, .mushroomFront, .onLeaf]

def name : Detector → String
  | .treeFront => "treeFront"
  | .treeLeft => "treeLeft"
  | .treeRight => "treeRight"
  | .mushroomFront => "mushroomFront"
  | .onLeaf => "onLeaf"

def ofName? (s : String) : Option Detector := all.find? fun d => d.name == s

def read (d : Detector) (w : World) : Bool :=
  match d with
  | .treeFront => w.treeTowards w.character.direction
  | .treeLeft => w.treeTowards w.character.direction.left
  | .treeRight => w.treeTowards w.character.direction.right
  | .mushroomFront => w.neighbour? w.character.direction == some .mushroom
  | .onLeaf => w.cellAt? w.character.position == some .clover

def phrase : Detector → String
  | .treeFront => "tree in front"
  | .treeLeft => "tree to the left"
  | .treeRight => "tree to the right"
  | .mushroomFront => "mushroom in front"
  | .onLeaf => "standing on a clover"

end Detector

namespace World

def readings (w : World) : List (Detector × Bool) := Detector.all.map fun d => (d, d.read w)

def phrases (w : World) : List String :=
  (Detector.all.filter fun d => d.read w).map Detector.phrase

def situation (w : World) : String :=
  match w.phrases with
  | [] => "no obstacles detected, not on a clover"
  | ps => String.intercalate ", " ps

end World

end Ladybug
