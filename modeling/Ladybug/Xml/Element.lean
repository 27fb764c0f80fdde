import Ladybug.Text.Blank

/-!
# Elements of XML documents

Text between elements is of no interest here, so an element has a name, attributes and elements
inside.

* `Element`               the tree
* `Element.attribute?`    the value of an attribute
* `Element.childrenOf`    the elements inside with a name
* `Element.within`        the element and all elements inside, in the order of the document
* `Element.write`         the text of an element, each element inside on lines of its own
-/

namespace Ladybug.Xml

/-- A name, in a name space perhaps. -/
structure Name where
  space : Option String := none
  base : String
deriving DecidableEq, Repr

structure Attribute where
  name : Name
  value : String
deriving DecidableEq, Repr

inductive Element where
  | node (name : Name) (attributes : List Attribute) (children : List Element)
deriving Repr

namespace Element

/-- an element whose names are in no name space -/
def plain (name : String) (attributes : List (String × String)) (children : List Element) :
    Element :=
  .node ⟨none, name⟩ (attributes.map fun a => ⟨⟨none, a.1⟩, a.2⟩) children

def name : Element → Name
  | .node n _ _ => n

def attributes : Element → List Attribute
  | .node _ as _ => as

def children : Element → List Element
  | .node _ _ es => es

def isNamed (e : Element) (name : String) : Bool := e.name == ⟨none, name⟩

def attribute? (e : Element) (name : String) : Option String :=
  (e.attributes.find? fun a => a.name == ⟨none, name⟩).map Attribute.value

def childrenOf (e : Element) (name : String) : List Element :=
  e.children.filter fun c => c.isNamed name

mutual

def within : Element → List Element
  | .node n as es => .node n as es :: withinAll es

def withinAll : List Element → List Element
  | [] => []
  | e :: es => within e ++ withinAll es

end

/-- The elements with a name among an element and those inside it. -/
def allNamed (e : Element) (name : String) : List Element :=
  e.within.filter fun d => d.isNamed name

/-! ### writing -/

def escapeChar (c : Char) : List Char :=
  if c == '&' then "&amp;".toList
  else if c == '<' then "&lt;".toList
  else if c == '>' then "&gt;".toList
  else if c == '"' then "&quot;".toList
  else if c == '\r' then "&#13;".toList
  else if c == '\n' then "&#10;".toList
  else if c == '\t' then "&#09;".toList
  else [c]

def writeAttribute (a : Attribute) : List Char :=
  ' ' :: a.name.base.toList ++ ['=', '"'] ++ a.value.toList.flatMap escapeChar ++ ['"']

def openTag (n : Name) (as : List Attribute) : List Char :=
  '<' :: n.base.toList ++ as.flatMap writeAttribute

/-- a line end and the blanks of a level -/
def newLine (level : Nat) : List Char := '\n' :: List.replicate (4 * level) ' '

mutual

def write (level : Nat) : Element → List Char
  | .node n as [] => openTag n as ++ [' ', '/', '>']
  | .node n as (e :: es) =>
    openTag n as ++ '>' :: writeEach (level + 1) (e :: es) ++ newLine level
      ++ ['<', '/'] ++ n.base.toList ++ ['>']

def writeEach (level : Nat) : List Element → List Char
  | [] => []
  | e :: es => newLine level ++ write level e ++ writeEach level es

end

def declaration : String :=
  "<?xml version=\"1.0\" encoding=\"UTF-8\" standalone=\"yes\"?>"

end Element

/-- A whole document: the declaration on a line, then the root. -/
def document (root : Element) : String :=
  Element.declaration ++ "\n" ++ String.ofList (root.write 0)

end Ladybug.Xml
