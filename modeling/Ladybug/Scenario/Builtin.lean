import Ladybug.Scenario.Basic

/-!
# The scenarios that come with the program, easiest first
-/

namespace Ladybug.Scenario

def points (l : List (Int × Int)) : List Position := l.map fun (x, y) => ⟨x, y⟩

def firstSteps : Scenario where
  id := "level-1-first-steps"
  title := "First Steps"
  description := "Learn to move forward! Navigate to the clover."
  difficulty := .easy
  layout :=
    { width := 5, height := 5, clovers := points [(2, 2)], character := some ⟨2, 4, .north, 0⟩ }
  allowed := [.moveForward]
  goal := .reach ⟨2, 2⟩
  hints := ["Use the Move Forward command twice"]

def turning : Scenario where
  id := "level-2-turning"
  title := "Learning to Turn"
  description := "Master turning! Reach the clover on your right."
  difficulty := .easy
  layout :=
    { width := 5, height := 5, clovers := points [(3, 2)], character := some ⟨2, 2, .north, 0⟩ }
  allowed := [.moveForward, .turnRight]
  goal := .reach ⟨3, 2⟩
  hints := ["Turn right, then move forward"]

def collector : Scenario where
  id := "level-3-collect"
  title := "Clover Collector"
  description := "Pick up the clover in front of you!"
  difficulty := .easy
  layout :=
    { width := 5, height := 5, clovers := points [(2, 1)], character := some ⟨2, 2, .north, 0⟩ }
  allowed := [.moveForward, .pickClover]
  goal := .inventory 1
  hints := ["Move forward to the clover", "Then pick it up"]

def cloverGarden : Scenario where
  id := "level-4-collect-all"
  title := "Clover Garden"
  description := "Collect all three clovers in a row!"
  difficulty := .medium
  layout :=
    { width := 6, height := 5, clovers := points [(2, 2), (3, 2), (4, 2)]
      character := some ⟨1, 2, .east, 0⟩ }
  allowed := [.moveForward, .pickClover]
  goal := .noClovers
  hints := ["Move and pick, move and pick, move and pick!"]

def square : Scenario where
  id := "level-5-square"
  title := "The Square"
  description := "Navigate around the square to collect all clovers."
  difficulty := .medium
  layout :=
    { width := 6, height := 6, clovers := points [(2, 1), (3, 1), (3, 2), (3, 3), (2, 3)]
      character := some ⟨2, 2, .north, 0⟩ }
  allowed := [.moveForward, .turnRight, .pickClover]
  goal := .noClovers
  hints := ["Think about moving in a pattern", "You'll need to turn right several times"]

def obstacles : Scenario where
  id := "level-6-obstacles"
  title := "Obstacle Course"
  description := "Navigate around trees to collect clovers."
  difficulty := .medium
  layout :=
    { width := 7, height := 5, trees := points [(2, 1), (2, 3), (4, 1), (4, 3)]
      clovers := points [(1, 2), (3, 2), (5, 2)], character := some ⟨0, 2, .east, 0⟩ }
  allowed := [.moveForward, .turnLeft, .turnRight, .pickClover]
  goal := .noClovers
  hints := ["Navigate around obstacles", "Plan your path carefully"]

def delivery : Scenario where
  id := "level-7-delivery"
  title := "Clover Delivery"
  description := "Pick up the clover and deliver it to the marked spot!"
  difficulty := .hard
  layout :=
    { width := 7, height := 7, trees := points [(1, 3), (5, 3)], mushrooms := points [(4, 4)]
      clovers := points [(2, 2)], character := some ⟨1, 1, .east, 0⟩ }
  allowed := [.moveForward, .turnLeft, .turnRight, .pickClover, .placeClover]
  goal := .allOf [.reach ⟨4, 4⟩, .inventory 0, .cloverAt ⟨4, 4⟩]
  hints :=
    ["Pick up the clover first", "Navigate to the mushroom (delivery point)",
     "Place the clover there"]

def roundTrip : Scenario where
  id := "level-8-round-trip"
  title := "Round Trip"
  description := "Collect all clovers and return to your starting position!"
  difficulty := .hard
  layout :=
    { width := 8, height := 6, trees := points [(4, 1), (3, 3)]
      clovers := points [(3, 2), (4, 2), (4, 3)], character := some ⟨2, 2, .east, 0⟩ }
  allowed := [.moveForward, .turnLeft, .turnRight, .pickClover]
  goal := .noCloversAnd ⟨2, 2⟩
  hints :=
    ["Collect all clovers efficiently", "Remember where you started", "Plan the return journey"]

def builtin : List Scenario :=
  [firstSteps, turning, collector, cloverGarden, square, obstacles, delivery, roundTrip]

end Ladybug.Scenario
