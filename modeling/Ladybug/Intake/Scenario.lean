import Ladybug.Datum.Shown
import Ladybug.Intake.World
import Ladybug.Scenario.Basic

/-!
# Intake of goals and scenarios

* `Intake.goal`      a goal; its form is named by one entry and becomes part of the place
* `Intake.scenario`  a scenario
* `Intake.catalog`   a list of scenarios
-/

namespace Ladybug.Intake
open Ladybug

def formNames : String :=
  String.intercalate ", " (Goal.Form.all.map fun f => "'" ++ f.name ++ "'")

/-- The form that the entries of a goal name. -/
def form (es : Entries) : Intake Goal.Form :=
  match Datum.find? es Goal.formField with
  | none => fail ("Unable to extract tag using discriminator '" ++ Goal.formField ++ "'")
  | some d =>
    let found := match d with
      | .text s => Goal.Form.ofName? s
      | _ => none
    match found with
    | some f => .ok f
    | none => fail ("Input tag '" ++ Text.mended d.shown ++ "' found using '" ++ Goal.formField
        ++ "' does not match any of the expected tags: " ++ formNames)

def place (es : Entries) : Intake Position := do
  let x ← field es ["x"] int
  let y ← field es ["y"] int
  return ⟨x, y⟩

/-- The goals of goals are read to this depth. -/
def deepestGoal : Nat := 254

def tooDeep : String := "Recursion error - cyclic reference detected"

/-- the number of a knot -/
def knot? : Datum → Option Nat
  | .knot n _ => some n
  | _ => none

/-- A goal that may hold goals `depth` levels deep, inside the knots `around`. Goals that contain
themselves are refused. -/
def goalAt : (depth : Nat) → (around : List Nat) → Datum → Intake Goal
  | depth, around, d =>
    match entries? d with
    | none => fail "Input should be a valid dictionary or object to extract fields from"
    | some es =>
      match form es with
      | .error i => .error i
      | .ok f => under f.name <|
        match f with
        | .noClovers => .ok .noClovers
        | .reach => (place es).map .reach
        | .noCloversAnd => (place es).map .noCloversAnd
        | .cloverAt => (place es).map .cloverAt
        | .inventory => (field es ["count"] nat).map .inventory
        | .facing => (field es ["direction"] direction).map .facing
        | .allOf =>
          match depth with
          | 0 => fail tooDeep
          | depth + 1 =>
            if (knot? d).any around.contains then fail tooDeep
            else
              let around := (knot? d).toList ++ around
              (field es ["conditions"] (list (goalAt depth around))).map .allOf

def goal (d : Datum) : Intake Goal := goalAt deepestGoal [] d

def difficulty : Datum → Intake Difficulty := exactChoice Difficulty.all Difficulty.name

def scenario (d : Datum) : Intake Scenario := do
  let es ← record "Scenario" d
  let id ← field es ["id"] text
  let title ← field es ["title"] text
  let description ← field es ["description"] text
  let difficulty ← field es ["difficulty"] difficulty
  let layout ← field es ["world"] layout
  let allowed ← field es ["allowed_commands"] (list command)
  let goal ← field es ["goal"] goal
  let hints ← fieldOr es ["hints"] [] (list text)
  return { id, title, description, difficulty, layout, allowed, goal, hints }

def catalog (d : Datum) : Intake (List Scenario) := do
  let es ← record "ScenarioCatalog" d
  fieldOr es ["scenarios"] [] (list scenario)

end Ladybug.Intake
