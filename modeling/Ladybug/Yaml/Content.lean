import Ladybug.Datum.Key
import Ladybug.Yaml.Scalar

/-!
# Contents of nodes

A scalar gets its content when it is met first. A collection is met first and filled later, after
all collections that were met before it, so that it may hold itself.

* `Content`    what a node holds, collections holding numbers of nodes
* `Build`      the contents so far
* `flatten`    a map with the entries that are merged into it
* `contents`   the contents of all nodes below one
-/

namespace Ladybug.Yaml
open Ladybug

inductive Content where
  | scalar (value : Datum)
  | list (items : List Nat)
  | pairs (items : List (Nat × Nat))
  | set (members : List Datum)
  | map (entries : List (Datum × Nat))
deriving Inhabited

/-- `waiting` holds the collections that have been met and not been filled, the last one first. No
more than `merges` entries ask for others to be merged. -/
structure Build where
  nodes : Nodes
  made : Array (Option Content)
  merges : Nat
  waiting : List Nat := []

abbrev Building := Except Failure Build

namespace Build

def node (b : Build) (n : Nat) : Node := b.nodes[n]?.getD default

def made? (b : Build) (n : Nat) : Option Content := (b.made[n]?).join

def make (n : Nat) (c : Content) (b : Build) : Build :=
  { b with made := b.made.setIfInBounds n (some c) }

def put (n : Nat) (node : Node) (b : Build) : Build :=
  { b with nodes := b.nodes.setIfInBounds n node }

def tag (b : Build) (n : Nat) : String := (b.node n).tag

/-! ### scalars -/

/-- The text of a scalar. A map has one if an equals sign is a key of it: that of its value. -/
def text : (fuel : Nat) → Build → Nat → Except Failure String
  | 0, _, _ => .error .malformed
  | fuel + 1, b, n =>
    match b.node n with
    | .scalar _ s => .ok s
    | .list _ _ => .error .malformed
    | .map _ es =>
      match es.find? fun e => b.tag e.1 == core "value" with
      | some e => text fuel b e.2
      | none => .error .malformed

def isMap : Node → Bool
  | .map _ _ => true
  | _ => false

/-- The datum of a node with a tag for scalars. A date must be written by a scalar. -/
def scalar (b : Build) (n : Nat) : Except Failure Datum :=
  match text (b.nodes.size + 1) b n with
  | .error f => .error f
  | .ok s =>
    if isMap (b.node n) && b.tag n == core "timestamp" then .error .notText
    else scalarDatum (b.tag n) s

/-! ### collections -/

/-- The content of a collection before it is filled. -/
def emptyContent? (tag : String) : Option Content :=
  if tag == core "seq" then some (.list [])
  else if tag == core "omap" || tag == core "pairs" then some (.pairs [])
  else if tag == core "set" then some (.set [])
  else if tag == core "map" then some (.map [])
  else none

/-- A node is met. -/
def meet (b : Build) (n : Nat) : Building :=
  if (b.made? n).isSome then .ok b
  else if scalarTags.contains (b.tag n) then
    (b.scalar n).map fun d => b.make n (.scalar d)
  else match emptyContent? (b.tag n) with
    | some c => .ok { b.make n c with waiting := n :: b.waiting }
    | none => .error .malformed

def meetAll (b : Build) (ns : List Nat) : Building := ns.foldlM meet b

/-! ### merging -/

def entries (b : Build) (n : Nat) : List (Nat × Nat) :=
  match b.node n with
  | .map _ es => es
  | _ => []

def putEntries (n : Nat) (es : List (Nat × Nat)) (b : Build) : Build :=
  b.put n (.map (b.tag n) es)

def isMerge (b : Build) (e : Nat × Nat) : Bool := b.tag e.1 == core "merge"

/-- The maps that a node merges: itself, or those that it lists. -/
def sources (b : Build) (n : Nat) : Except Failure (List Nat) :=
  match b.node n with
  | .map _ _ => .ok [n]
  | .list _ ns => if ns.all fun m => isMap (b.node m) then .ok ns else .error .malformed
  | .scalar _ _ => .error .malformed

/-- An equals sign that is a key is a text. -/
def plainKey (b : Build) (e : Nat × Nat) : Build :=
  match b.node e.1 with
  | .scalar tag s => if tag == core "value" then b.put e.1 (.scalar (core "str") s) else b
  | .list tag ns => if tag == core "value" then b.put e.1 (.list (core "str") ns) else b
  | .map tag es => if tag == core "value" then b.put e.1 (.map (core "str") es) else b

/-- The map with the entries `merged`, which have been found, and those of further maps in front of
its own. An entry that asks for merging is taken away before it is followed. -/
def flatten : (fuel : Nat) → (merged : List (Nat × Nat)) → Nat → Build → Building
  | 0, _, _, b => .ok b
  | fuel + 1, merged, n, b =>
    match (b.entries n).find? b.isMerge with
    | none =>
      let own := b.entries n
      .ok ((own.foldl plainKey b).putEntries n (merged ++ own))
    | some e =>
      let b := b.putEntries n ((b.entries n).eraseP b.isMerge)
      match b.sources e.2 with
      | .error f => .error f
      | .ok maps =>
        let step (r : List (Nat × Nat) × Build) (m : Nat) :
            Except Failure (List (Nat × Nat) × Build) :=
          (flatten fuel [] m r.2).map fun b => (b.entries m ++ r.1, b)
        match maps.foldlM step ([], b) with
        | .error f => .error f
        | .ok (found, b) => flatten fuel (merged ++ found) n b

/-! ### filling -/

/-- the entries of a map with the keys that their nodes have -/
def readEntries : List (Nat × Nat) → List (Datum × Nat) → Build →
    Except Failure (List (Datum × Nat) × Build)
  | [], done, b => .ok (done, b)
  | (k, v) :: es, done, b =>
    match b.meet k with
    | .error f => .error f
    | .ok b =>
      match b.made? k with
      | some (.scalar key) =>
        match b.meet v with
        | .error f => .error f
        | .ok b => readEntries es (Datum.insertKey done key v) b
      | _ => .error .malformed

/-- The entries of a map, merged ones among them, by their keys. -/
def keyed (b : Build) (n : Nat) : Except Failure (List (Datum × Nat) × Build) :=
  if !isMap (b.node n) then .error .malformed
  else match flatten (b.merges + 1) [] n b with
    | .error f => .error f
    | .ok b => readEntries (b.entries n) [] b

/-- Items that are maps of one entry, as pairs. -/
def readPairs : List Nat → List (Nat × Nat) → Build → Except Failure (List (Nat × Nat) × Build)
  | [], done, b => .ok (done.reverse, b)
  | n :: ns, done, b =>
    match b.node n with
    | .map _ [(k, v)] =>
      match b.meetAll [k, v] with
      | .error f => .error f
      | .ok b => readPairs ns ((k, v) :: done) b
    | _ => .error .malformed

/-- A collection that has been met is filled. -/
def fill (b : Build) (n : Nat) : Building :=
  match b.made? n, b.node n with
  | some (.list _), .list _ ns => (b.meetAll ns).map (make n (.list ns))
  | some (.pairs _), .list _ ns => (readPairs ns [] b).map fun (ps, b) => b.make n (.pairs ps)
  | some (.set _), _ =>
    (b.keyed n).map fun (es, b) => b.make n (.set (Datum.inPlaces (es.map Prod.fst)))
  | some (.map _), _ => (b.keyed n).map fun (es, b) => b.make n (.map es)
  | _, _ => .error .malformed

/-- All that waits is filled, and then what has come to wait meanwhile. -/
def fillAll : (fuel : Nat) → Build → Building
  | 0, b => .ok b
  | fuel + 1, b =>
    if b.waiting.isEmpty then .ok b
    else match b.waiting.reverse.foldlM fill { b with waiting := [] } with
      | .error f => .error f
      | .ok b => fillAll fuel b

end Build

/-- how many keys ask for others to be merged -/
def mergeKeys (nodes : Nodes) : Node → Nat
  | .map _ es => es.countP fun e => (nodes[e.1]?).any fun k => k.tag == core "merge"
  | _ => 0

/-- The contents of a node and of all nodes below it. Each node waits once at most. -/
def contents (nodes : Nodes) (n : Nat) : Except Failure (Array (Option Content)) :=
  let b : Build :=
    { nodes, made := Array.replicate nodes.size none,
      merges := nodes.foldl (fun n node => n + mergeKeys nodes node) 0 }
  match b.meet n with
  | .error f => .error f
  | .ok b => (b.fillAll (nodes.size + 1)).map Build.made

end Ladybug.Yaml
