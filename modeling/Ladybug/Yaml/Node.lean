import Ladybug.Yaml.Outline

/-!
# Nodes of YAML

* `Node`            scalars, lists and maps with their tags; what they hold are numbers of nodes, so
                    that several places may hold one node, and a node itself
* `Nodes`           the nodes of a text by their numbers
* `Grammar`         the tokens that are left, the handles of tags, the nodes, and the anchors
* `documentNode`    the nodes of a text that holds one document at most
-/

namespace Ladybug.Yaml

inductive Node where
  | scalar (tag : String) (text : String)
  | list (tag : String) (items : List Nat)
  | map (tag : String) (entries : List (Nat × Nat))
deriving Repr, Inhabited

def Node.tag : Node → String
  | .scalar tag _ | .list tag _ | .map tag _ => tag

abbrev Nodes := Array Node

/-- what a node says of itself before its content -/
structure Properties where
  anchor : Option String := none
  tag : Option String := none

/-- whether a node says anything of itself -/
def Properties.any (p : Properties) : Bool := p.anchor.isSome || p.tag.isSome

structure Grammar where
  tokens : List Token
  handles : List (String × String) := []
  anchors : List (String × Nat) := []
  nodes : Nodes := #[]

abbrev Parse (α : Type) := Except Failure (α × Grammar)

/-! ### tags -/

/-- what the tags of the format's own types begin with -/
def coreStem : String := "tag:yaml.org,2002:"

def core (name : String) : String := coreStem ++ name

def usualHandles : List (String × String) := [("!", "!"), ("!!", coreStem)]

namespace Grammar

def peek (g : Grammar) : Token := g.tokens.headD .finish

def next (g : Grammar) : Grammar := { g with tokens := g.tokens.drop 1 }

def sees (g : Grammar) (ts : List Token) : Bool := ts.contains g.peek

/-- why the next token cannot be read -/
def broken? (g : Grammar) : Option Failure :=
  match g.peek with
  | .broken f => some f
  | _ => none

/-- a failure at the next token -/
def fail {α : Type} (g : Grammar) : Except Failure α := .error (g.broken?.getD .malformed)

def anchor? (g : Grammar) (name : String) : Option Nat :=
  (g.anchors.find? fun a => a.1 == name).map Prod.snd

/-- An anchor names one node only. -/
def isTaken (g : Grammar) (p : Properties) : Bool := p.anchor.any fun a => (g.anchor? a).isSome

/-- One more node, under its anchor. -/
def add (p : Properties) (n : Node) (g : Grammar) : Nat × Grammar :=
  let number := g.nodes.size
  let anchors := match p.anchor with
    | none => g.anchors
    | some a => (a, number) :: g.anchors
  (number, { g with nodes := g.nodes.push n, anchors })

/-- The node of a number with its content, which has been read. -/
def complete (number : Nat) (n : Node) (g : Grammar) : Grammar :=
  { g with nodes := g.nodes.setIfInBounds number n }

/-- A handle and a name as a tag. -/
def meaning (g : Grammar) (handle : Option String) (suffix : String) : Except Failure String :=
  match handle with
  | none => .ok suffix
  | some h =>
    match g.handles.find? fun e => e.1 == h with
    | some e => .ok (e.2 ++ suffix)
    | none => .error .malformed

/-- the same after one token that must be there -/
def expect (t : Token) (g : Grammar) : Except Failure Grammar :=
  if g.peek == t then .ok g.next else g.fail

/-- An anchor and a tag, in either order. -/
def properties (g : Grammar) : Parse Properties :=
  match g.tokens with
  | .tag _ _ :: .broken f :: _ => .error f
  | .anchor a :: .tag h s :: ts | .tag h s :: .anchor a :: ts =>
    (g.meaning h s).map fun t => (⟨some a, some t⟩, { g with tokens := ts })
  | .anchor a :: ts => .ok (⟨some a, none⟩, { g with tokens := ts })
  | .tag h s :: ts => (g.meaning h s).map fun t => (⟨none, some t⟩, { g with tokens := ts })
  | _ => .ok ({}, g)

end Grammar

/-! ### nodes -/

/-- The tag of a list or a map. -/
def collectionTag (p : Properties) (name : String) : String :=
  match p.tag with
  | none => core name
  | some t => if t == "!" then core name else t

/-- The tag of a scalar: what it says, or what a plain one looks like. -/
def scalarTag (guess : String → String) (p : Properties) (text : String) (plain : Bool) : String :=
  match p.tag with
  | none => if plain then guess text else core "str"
  | some t => if t == "!" then guess text else t

section

variable (guess : String → String)

/-- A node that the text leaves out. -/
def emptyNode (p : Properties) (g : Grammar) : Nat × Grammar :=
  g.add p (.scalar (scalarTag guess p "" true) "")

mutual

/-- The number of a node. Blocks may begin here if `block`; a list may stand at the indentation of
the map around it if `level`. -/
def node : (fuel : Nat) → (block level : Bool) → Grammar → Parse Nat
  | 0, _, _, _ => .error .malformed
  | fuel + 1, block, level, g =>
    match g.peek with
    | .alias name =>
      match g.anchor? name with
      | none => .error .malformed
      | some n => .ok (n, g.next)
    | _ =>
      match g.properties with
      | .error e => .error e
      | .ok (p, g) => if g.isTaken p then g.fail else content fuel block level p g

def content : (fuel : Nat) → (block level : Bool) → Properties → Grammar → Parse Nat
  | 0, _, _, _, _ => .error .malformed
  | fuel + 1, block, level, p, g =>
    let list (read : Grammar → Parse (List Nat)) : Parse Nat :=
      let tag := collectionTag p "seq"
      let (number, g) := g.add p (.list tag [])
      (read g).map fun (items, g) => (number, g.complete number (.list tag items))
    let map (read : Grammar → Parse (List (Nat × Nat))) : Parse Nat :=
      let tag := collectionTag p "map"
      let (number, g) := g.add p (.map tag [])
      (read g).map fun (entries, g) => (number, g.complete number (.map tag entries))
    let other : Parse Nat :=
      if g.broken?.isNone && p.any then .ok (emptyNode guess p g) else g.fail
    match g.peek with
    | .item => if level then list fun g => levelItems fuel g [] else other
    | .scalar s plain => .ok (g.next.add p (.scalar (scalarTag guess p s plain) s))
    | .openList => list fun g => flowItems fuel true g.next []
    | .openMap => map fun g => flowEntries fuel true g.next []
    | .openBlockList => if block then list fun g => blockItems fuel g.next [] else other
    | .openBlockMap => if block then map fun g => blockEntries fuel g.next [] else other
    | _ => other

/-- A node, or an empty one before one of some tokens. -/
def nodeOr : (fuel : Nat) → (stops : List Token) → (block level : Bool) → Grammar → Parse Nat
  | 0, _, _, _, _ => .error .malformed
  | fuel + 1, stops, block, level, g =>
    if g.sees stops then .ok (emptyNode guess {} g) else node fuel block level g

/-- the items of a block list, those before in reverse -/
def blockItems : (fuel : Nat) → Grammar → List Nat → Parse (List Nat)
  | 0, _, _ => .error .malformed
  | fuel + 1, g, done =>
    match g.peek with
    | .item =>
      match nodeOr fuel [.item, .closeBlock] true false g.next with
      | .error e => .error e
      | .ok (n, g) => blockItems fuel g (n :: done)
    | .closeBlock => .ok (done.reverse, g.next)
    | _ => g.fail

/-- the items of a list that stands at the indentation of the map around it -/
def levelItems : (fuel : Nat) → Grammar → List Nat → Parse (List Nat)
  | 0, _, _ => .error .malformed
  | fuel + 1, g, done =>
    match g.peek with
    | .item =>
      match nodeOr fuel [.item, .key, .value, .closeBlock] true false g.next with
      | .error e => .error e
      | .ok (n, g) => levelItems fuel g (n :: done)
    | .broken f => .error f
    | _ => .ok (done.reverse, g)

/-- the value after a key, empty if there is no colon -/
def valueOr : (fuel : Nat) → (stops : List Token) → (block : Bool) → Grammar → Parse Nat
  | 0, _, _, _ => .error .malformed
  | fuel + 1, stops, block, g =>
    match g.peek with
    | .value => nodeOr fuel stops block block g.next
    | .broken f => .error f
    | _ => .ok (emptyNode guess {} g)

def blockEntries : (fuel : Nat) → Grammar → List (Nat × Nat) → Parse (List (Nat × Nat))
  | 0, _, _ => .error .malformed
  | fuel + 1, g, done =>
    match g.peek with
    | .key =>
      match nodeOr fuel [.key, .value, .closeBlock] true true g.next with
      | .error e => .error e
      | .ok (k, g) =>
        match valueOr fuel [.key, .value, .closeBlock] true g with
        | .error e => .error e
        | .ok (v, g) => blockEntries fuel g ((k, v) :: done)
    | .closeBlock => .ok (done.reverse, g.next)
    | _ => g.fail

/-- The items of a list in brackets. A key in it makes a map of one entry. -/
def flowItems : (fuel : Nat) → (first : Bool) → Grammar → List Nat → Parse (List Nat)
  | 0, _, _, _ => .error .malformed
  | fuel + 1, first, g, done =>
    if g.peek == .closeList then .ok (done.reverse, g.next)
    else
      match if first then .ok g else g.expect .comma with
      | .error e => .error e
      | .ok g =>
        match g.peek with
        | .closeList => .ok (done.reverse, g.next)
        | .key =>
          match nodeOr fuel [.value, .comma, .closeList] false false g.next with
          | .error e => .error e
          | .ok (k, g) =>
            match valueOr fuel [.comma, .closeList] false g with
            | .error e => .error e
            | .ok (v, g) =>
              let (n, g) := g.add {} (.map (core "map") [(k, v)])
              flowItems fuel false g (n :: done)
        | _ =>
          match node fuel false false g with
          | .error e => .error e
          | .ok (n, g) => flowItems fuel false g (n :: done)

/-- The entries of a map in braces. A node that is no key has an empty value. -/
def flowEntries : (fuel : Nat) → (first : Bool) → Grammar → List (Nat × Nat) →
    Parse (List (Nat × Nat))
  | 0, _, _, _ => .error .malformed
  | fuel + 1, first, g, done =>
    if g.peek == .closeMap then .ok (done.reverse, g.next)
    else
      match if first then .ok g else g.expect .comma with
      | .error e => .error e
      | .ok g =>
        match g.peek with
        | .closeMap => .ok (done.reverse, g.next)
        | .key =>
          match nodeOr fuel [.value, .comma, .closeMap] false false g.next with
          | .error e => .error e
          | .ok (k, g) =>
            match valueOr fuel [.comma, .closeMap] false g with
            | .error e => .error e
            | .ok (v, g) => flowEntries fuel false g ((k, v) :: done)
        | _ =>
          match node fuel false false g with
          | .error e => .error e
          | .ok (k, g) =>
            let (v, g) := emptyNode guess {} g
            flowEntries fuel false g ((k, v) :: done)

end

/-! ### documents -/

/-- Directives before a document: one version at most, and each handle once. -/
def directives : (version : Bool) → (handles : List (String × String)) → List Token →
    Except Failure (List (String × String) × List Token)
  | version, handles, .directive d :: ts =>
    match d with
    | .version major =>
      if version || major != 1 then .error .malformed else directives true handles ts
    | .handle h m =>
      if handles.any fun e => e.1 == h then .error .malformed
      else directives version ((h, m) :: handles) ts
    | .unknown => directives version handles ts
  | _, handles, ts => .ok (handles, ts)

/-- the tokens after directives and the mark that begins a document -/
def opening (ts : List Token) : Except Failure (List (String × String) × List Token) :=
  match directives false [] ts with
  | .ok (handles, .documentStart :: ts) => .ok (handles, ts)
  | .ok (_, .broken f :: _) => .error f
  | .ok _ => .error .malformed
  | .error e => .error e

/-- A node, the handles that a document says coming before the usual ones. -/
def nodeWith (handles : List (String × String)) (ts : List Token) : Parse Nat :=
  node guess (4 * ts.length + 8) true false { tokens := ts, handles := handles ++ usualHandles }

/-- The node of a document after its first mark. -/
def markedNode (handles : List (String × String)) (ts : List Token) : Parse Nat :=
  match ts with
  | .directive _ :: _ | .documentStart :: _ | .documentEnd :: _ | .finish :: _ =>
    .ok (emptyNode guess {} { tokens := ts })
  | ts => nodeWith guess handles ts

/-- The node of the first document, none if there is no document. -/
def firstDocument (ts : List Token) : Parse (Option Nat) :=
  match ts with
  | .finish :: _ => .ok (none, { tokens := ts })
  | .directive _ :: _ | .documentStart :: _ =>
    match opening ts with
    | .error e => .error e
    | .ok (handles, ts) => (markedNode guess handles ts).map fun (n, g) => (some n, g)
  | ts => (nodeWith guess [] ts).map fun (n, g) => (some n, g)

/-- A second document is a mistake. -/
def nothingAfter (ts : List Token) : Except Failure Unit :=
  match ts.dropWhile (· == .documentEnd) with
  | [.finish] => .ok ()
  | ts =>
    match opening ts with
    | .ok _ => .error .malformed
    | .error e => .error e

/-- The nodes of a text and the number of its outermost node, if there is one. -/
def documentNode (s : List Char) : Except Failure (Option Nat × Nodes) :=
  match tokens s with
  | .error e => .error e
  | .ok ts =>
    match firstDocument guess ts with
    | .error e => .error e
    | .ok (n, g) => (nothingAfter g.tokens).map fun _ => (n, g.nodes)

end

end Ladybug.Yaml
