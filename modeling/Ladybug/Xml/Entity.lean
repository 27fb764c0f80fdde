import Ladybug.Xml.Token

/-!
# Entities of XML documents

* `Declarations`          what a document type declares
* `Declarations.expand`   the text that an entity stands for in an attribute
* `entity?`               the declaration of an entity
-/

namespace Ladybug.Xml

/-- Attributes of the elements with a name. With `tokens`, blanks in the value only separate. -/
structure AttributeDeclaration where
  element : Raw
  name : Raw
  tokens : Bool
  default : Option String
deriving DecidableEq, Repr

/-- Of several declarations of a name the first one counts. An entity outside the document has no
text. With `skips`, some declarations inside could not be seen, and with `outside` there are
declarations in another document. -/
structure Declarations where
  entities : List (String × Option (List Char)) := []
  attributes : List AttributeDeclaration := []
  skips : Bool := false
  outside : Bool := false
  standalone : Bool := false

namespace Declarations

def entity? (ds : Declarations) (name : String) : Option (Option (List Char)) :=
  (ds.entities.find? fun d => d.1 == name).map Prod.snd

/-- Declarations after one that could not be seen do not count. -/
def closed (ds : Declarations) : Bool := ds.skips && !ds.standalone

/-- A name that is not declared is an error, unless its declaration may have been missed. -/
def lenient (ds : Declarations) : Bool := (ds.skips || ds.outside) && !ds.standalone

/-- The text of an entity in an attribute. Entities may stand in others up to a depth, which one
that contains itself exceeds. -/
def expand (ds : Declarations) : (depth : Nat) → String → Option (List Char)
  | 0, _ => none
  | depth + 1, name =>
    match predefined? name with
    | some c => some [c]
    | none =>
      match ds.entity? name with
      | some (some text) => value? (ds.expand depth) text
      | some none => none
      | none => if ds.lenient then some [] else none

/-- how deep entities can be nested -/
def depth (ds : Declarations) : Nat := ds.entities.length + 1

def addEntity (ds : Declarations) (name : String) (text : Option (List Char)) : Declarations :=
  if ds.closed then ds else { ds with entities := ds.entities ++ [(name, text)] }

def attribute? (ds : Declarations) (element name : Raw) : Option AttributeDeclaration :=
  ds.attributes.find? fun a => a.element == element && a.name == name

def addAttribute (ds : Declarations) (a : AttributeDeclaration) : Declarations :=
  if ds.closed || (ds.attribute? a.element a.name).isSome then ds
  else { ds with attributes := ds.attributes ++ [a] }

end Declarations

/-! ### what declarations are made of -/

/-- blanks, of which there must be some -/
def blanks? (s : List Char) : Option (List Char) :=
  match s with
  | c :: rest => if isSpace c then some (skip rest) else none
  | [] => none

def isPublicChar (c : Char) : Bool :=
  ('a' ≤ c && c ≤ 'z') || ('A' ≤ c && c ≤ 'Z') || ('0' ≤ c && c ≤ '9')
    || " \r\n-'()+,./:=?;!*#@$_%".toList.contains c

/-- a text in quotes of which nothing but its characters matters -/
def literal? (isAllowed : Char → Bool) (s : List Char) : Option (List Char) := do
  let (text, rest) ← quoted? s
  if text.all isAllowed then some rest else none

/-- a system name, or a public and a system name -/
def external? (s : List Char) : Option (List Char) :=
  match after? "SYSTEM" s with
  | some rest => (blanks? rest).bind (literal? isChar)
  | none => do
    let rest ← literal? isPublicChar (← blanks? (← after? "PUBLIC" s))
    literal? isChar (← blanks? rest)

/-! ### the declaration of an entity -/

/-- The text of an entity as it is declared: characters are replaced, other references stay, and
line ends are made one. -/
def entityText : (fuel : Nat) → List Char → List Char → Option (List Char)
  | 0, _, _ => none
  | _ + 1, [], done => some done.reverse
  | fuel + 1, '&' :: s, done =>
    match reference? s with
    | some (.char c, rest) => entityText fuel rest (c :: done)
    | some (.entity name, rest) =>
      entityText fuel rest (';' :: (name.toList.reverse ++ '&' :: done))
    | none => none
  | fuel + 1, '\r' :: '\n' :: s, done => entityText fuel s ('\n' :: done)
  | fuel + 1, c :: s, done =>
    if c == '%' || !isChar c then none
    else entityText fuel s ((if c == '\r' then '\n' else c) :: done)

/-- the text after the name of a data format, which only entities outside the document have -/
def format? (s : List Char) : Option (List Char) :=
  match (blanks? s).bind (after? "NDATA") with
  | none => some s
  | some rest => do
    let (_, rest) ← simpleName? (← blanks? rest)
    some rest

/-- The name and the text of an entity, after the keyword; none for the name of one that only
declarations can use. -/
def entity? (s : List Char) : Option (Option (String × Option (List Char)) × List Char) := do
  let s ← blanks? s
  let (parameter, s) ← match s with
    | '%' :: rest => (blanks? rest).map fun rest => (true, rest)
    | s => some (false, s)
  let (name, s) ← simpleName? s
  let s ← blanks? s
  match quoted? s with
  | some (text, rest) =>
    let text ← entityText (text.length + 1) text []
    let rest ← after? ">" (skip rest)
    some (if parameter then none else some (name, some text), rest)
  | none =>
    let rest ← external? s
    let rest ← if parameter then some rest else format? rest
    let rest ← after? ">" (skip rest)
    some (if parameter then none else some (name, none), rest)

end Ladybug.Xml
