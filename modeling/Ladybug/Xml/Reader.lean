import Ladybug.Xml.Prolog

/-!
# Reading XML documents

* `Spaces`         the name spaces in force, each under its qualifier
* `contentFrom`    what stands inside an element
* `read`           the root of a document, none for text that is not well formed
-/

namespace Ladybug.Xml

/-! ### name spaces -/

/-- Name spaces by qualifier, the innermost first. The one without a qualifier is under the empty
text. -/
abbrev Spaces := List (String × String)

def xmlSpace : String := "http://www.w3.org/XML/1998/namespace"
def declarationSpace : String := "http://www.w3.org/2000/xmlns/"

def rootSpaces : Spaces := [("xml", xmlSpace)]

def Spaces.find? (spaces : Spaces) (qualifier : String) : Option String :=
  (List.find? (fun s => s.1 == qualifier) spaces).map Prod.snd

/-- the qualifier that an attribute declares -/
def declared? (name : Raw) : Option String :=
  match name with
  | ⟨none, "xmlns"⟩ => some ""
  | ⟨some "xmlns", base⟩ => some base
  | _ => none

/-- A declaration may not take a name away, nor touch the two names that are reserved. -/
def allowed (qualifier uri : String) : Bool :=
  (qualifier.isEmpty || !uri.isEmpty) && qualifier != "xmlns" && uri != declarationSpace
    && (qualifier == "xml") == (uri == xmlSpace) && !uri.toList.contains '\x7d'

/-- the name spaces inside an element with some attributes -/
def declareAll (spaces : Spaces) : List (Raw × String) → Option Spaces
  | [] => some spaces
  | (name, uri) :: as =>
    match declared? name with
    | none => declareAll spaces as
    | some q => if allowed q uri then declareAll ((q, uri) :: spaces) as else none

def elementName? (spaces : Spaces) (name : Raw) : Option Name :=
  match name.qualifier with
  | some q => (spaces.find? q).map fun uri => ⟨some uri, name.base⟩
  | none =>
    match spaces.find? "" with
    | none | some "" => some ⟨none, name.base⟩
    | some uri => some ⟨some uri, name.base⟩

def attributeName? (spaces : Spaces) (name : Raw) : Option Name :=
  match name.qualifier with
  | some q => (spaces.find? q).map fun uri => ⟨some uri, name.base⟩
  | none => some ⟨none, name.base⟩

/-- An element that has begun, what it holds so far being in reverse. An entity that is read has no
name. -/
structure Frame where
  raw : Option Raw
  name : Name
  attributes : List Attribute
  children : List Element
  spaces : Spaces

/-- The element that a tag begins. No attribute may come twice. -/
def begin? (spaces : Spaces) (t : Tag) : Option Frame := do
  let raws := t.attributes.map Prod.fst
  if raws.eraseDups.length != raws.length then none
  let spaces ← declareAll spaces t.attributes
  let name ← elementName? spaces t.name
  let attributes ← (t.attributes.filter fun a => (declared? a.1).isNone).mapM fun a => do
    some (Attribute.mk (← attributeName? spaces a.1) a.2)
  let names := attributes.map Attribute.name
  if names.eraseDups.length != names.length then none
  some ⟨some t.name, name, attributes, [], spaces⟩

def Frame.element (f : Frame) : Element := .node f.name f.attributes f.children.reverse

def Frame.add (f : Frame) (es : List Element) : Frame :=
  { f with children := es.reverse ++ f.children }

/-! ### content -/

/-- what entities stand for, in elements and in attributes, and what is declared of a tag -/
structure Expansion where
  elements : Spaces → String → Option (List Element)
  text : String → Option (List Char)
  complete : Tag → Tag

/-- Characters that are no markup, up to the next bracket or ampersand. -/
def text? (s : List Char) : Option (List Char) :=
  let text := s.takeWhile fun c => c != '<' && c != '&'
  if text.all isChar && (until? [']', ']', '>'] text []).isNone then some (s.drop text.length)
  else none

/-- the text after an end tag, which must have a name -/
def endTag? (name : Option Raw) (s : List Char) : Option (List Char) :=
  match rawName? s with
  | some (raw, rest) => if some raw == name then after? ">" (skip rest) else none
  | none => none

/-- What is left of an element inside those in `outer`, up to the end of the outermost one. An
entity ends with its text. -/
def contentFrom (x : Expansion) : (fuel : Nat) → Frame → (outer : List Frame) → List Char →
    Option (List Element × List Char)
  | 0, _, _, _ => none
  | _ + 1, f, outer, [] =>
    match f.raw, outer with
    | none, [] => some (f.children.reverse, [])
    | _, _ => none
  | fuel + 1, f, outer, '<' :: '/' :: s =>
    match endTag? f.raw s, outer with
    | none, _ => none
    | some rest, [] => some ([f.element], rest)
    | some rest, g :: outer => contentFrom x fuel (g.add [f.element]) outer rest
  | fuel + 1, f, outer, '<' :: '?' :: s =>
    match instruction? s with
    | some rest => contentFrom x fuel f outer rest
    | none => none
  | fuel + 1, f, outer, '<' :: '!' :: s =>
    match after? "--" s, after? "[CDATA[" s with
    | some s, _ =>
      match comment? s with
      | some rest => contentFrom x fuel f outer rest
      | none => none
    | none, some s =>
      match section? s with
      | some rest => contentFrom x fuel f outer rest
      | none => none
    | none, none => none
  | fuel + 1, f, outer, '<' :: s =>
    match tag? x.text s with
    | none => none
    | some (t, rest) =>
      match begin? f.spaces (x.complete t) with
      | none => none
      | some g =>
        if t.closed then contentFrom x fuel (f.add [g.element]) outer rest
        else contentFrom x fuel g (f :: outer) rest
  | fuel + 1, f, outer, '&' :: s =>
    match reference? s with
    | none => none
    | some (.char _, rest) => contentFrom x fuel f outer rest
    | some (.entity name, rest) =>
      match x.elements f.spaces name with
      | some es => contentFrom x fuel (f.add es) outer rest
      | none => none
  | fuel + 1, f, outer, s =>
    match text? s with
    | some rest => contentFrom x fuel f outer rest
    | none => none

/-- Entities with entities in them up to a depth, which one that contains itself exceeds. -/
def expansion (ds : Declarations) : (depth : Nat) → Expansion
  | 0 => ⟨fun _ _ => none, fun _ => none, id⟩
  | depth + 1 =>
    { elements := fun spaces name =>
        if (predefined? name).isSome then some []
        else match ds.entity? name with
          | some (some text) =>
            let f : Frame := ⟨none, ⟨none, name⟩, [], [], spaces⟩
            match contentFrom (expansion ds depth) (text.length + 1) f [] text with
            | some (es, _) => some es
            | none => none
          | _ => none
      text := ds.expand (depth + 1)
      complete := ds.complete }

/-! ### documents -/

/-- Blanks, comments and instructions outside the root. -/
def misc : (fuel : Nat) → List Char → Option (List Char)
  | 0, _ => none
  | fuel + 1, s =>
    let s := skip s
    match after? "<!--" s, after? "<?" s with
    | some rest, _ => (comment? rest).bind (misc fuel)
    | none, some rest => (instruction? rest).bind (misc fuel)
    | none, none => some s

def start? (s : List Char) : Option (Bool × List Char) :=
  match after? "<?xml" s with
  | some (c :: rest) =>
    if isNameChar c || c == ':' then some (false, s) else declaration? (c :: rest)
  | some [] => none
  | none => some (false, s)

/-- The root of a document. -/
def root? (s : List Char) : Option Element := do
  let s := match s with
    | '\uFEFF' :: rest => rest
    | s => s
  let n := s.length + 1
  let (standalone, s) ← start? s
  let s ← misc n s
  let (ds, s) ← match after? "<!DOCTYPE" s with
    | some rest => doctype? standalone rest
    | none => some ({}, s)
  let s ← misc n s
  let x := expansion ds ds.depth
  let (t, rest) ← tag? x.text (← after? "<" s)
  let f ← begin? rootSpaces (x.complete t)
  let (root, rest) ←
    if t.closed then some ([f.element], rest) else contentFrom x (rest.length + 1) f [] rest
  match ← misc n rest with
  | [] => root.head?
  | _ => none

def read (s : String) : Option Element := root? s.toList

end Ladybug.Xml
