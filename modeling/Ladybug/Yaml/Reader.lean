import Ladybug.Yaml.Content

/-!
# Reading YAML

* `weave`     what a node holds, as a datum
* `read`      the datum that a text writes

A map whose keys are all texts is a map of names. A collection that can be reached from itself is a
knot, and so are those on the way.
-/

namespace Ladybug.Yaml
open Ladybug

/-- The data of nodes by their numbers, as far as they are complete, and the nodes that are
knots. -/
structure Loom where
  data : Array (Option Datum)
  knots : List Nat := []

abbrev Weaving := StateM Loom

/-- A datum, and the numbers of the knots around it that occur in it. -/
structure Strand where
  datum : Datum
  knots : List Nat := []

/-- the names of entries, if all keys are texts -/
def named? (entries : List (Datum × Datum)) : Option (List (String × Datum)) :=
  entries.mapM fun e =>
    match e.1 with
    | .text name => some (name, e.2)
    | _ => none

def mapOf (entries : List (Datum × Datum)) : Datum :=
  (named? entries).elim (.table entries) .map

/-- The datum of a collection: a knot if it occurs in itself, or another one around it does. Once a
knot, it is one wherever it stands. -/
def tie (n : Nat) (content : Datum) (knots : List Nat) : Weaving Strand := do
  if knots.isEmpty && !(← get).knots.contains n then return ⟨content, []⟩
  modify fun loom => { loom with knots := n :: loom.knots }
  return ⟨.knot n content, knots.filter (· != n)⟩

/-- The data of some strands, and their knots. -/
def gather (strands : List Strand) : List Datum × List Nat :=
  (strands.map Strand.datum, (strands.flatMap Strand.knots).eraseDups)

/-- What a node holds, `around` being the collections around it. -/
def weave (made : Array (Option Content)) :
    (fuel : Nat) → (around : List Nat) → Nat → Weaving Strand
  | 0, _, _ => pure ⟨.null, []⟩
  | fuel + 1, around, n => do
    if let some d := ((← get).data[n]?).join then return ⟨d, []⟩
    if around.contains n then return ⟨.again n, [n]⟩
    let inside := weave made fuel (n :: around)
    let strand ← match (made[n]?).join with
      | none => pure ⟨.null, []⟩
      | some (.scalar d) => pure ⟨d, []⟩
      | some (.set members) => pure ⟨.set members, []⟩
      | some (.list ns) => do
        let (items, knots) := gather (← ns.mapM inside)
        tie n (.list items) knots
      | some (.pairs ps) => do
        let (items, knots) := gather (← ps.mapM fun (k, v) => do
          let a ← inside k
          let b ← inside v
          pure ⟨.pair a.datum b.datum, a.knots ++ b.knots⟩)
        tie n (.list items) knots
      | some (.map es) => do
        let (values, knots) := gather (← es.mapM fun e => inside e.2)
        tie n (mapOf ((es.map Prod.fst).zip values)) knots
    if strand.knots.isEmpty then
      modify fun loom => { loom with data := loom.data.setIfInBounds n (some strand.datum) }
    return strand

/-- The datum of a text, null for one that holds nothing. -/
def read (s : String) : Except Failure Datum :=
  match documentNode guess s.toList with
  | .error e => .error e
  | .ok (none, _) => .ok .null
  | .ok (some n, nodes) =>
    (contents nodes n).map fun made =>
      ((weave made (nodes.size + 1) [] n).run { data := Array.replicate nodes.size none }).1.datum

end Ladybug.Yaml
