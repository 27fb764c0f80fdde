import Ladybug.Xml.Entity

/-!
# Declarations of elements, attributes and formats

Nothing is checked against them, but attributes may have default values.

* `elementDeclaration?`   what an element may hold
* `attributeList?`        the attributes of the elements with a name
* `formatDeclaration?`    the name of a data format
* `Declarations.complete` a tag with the values of its attributes as they are declared
-/

namespace Ladybug.Xml

/-- A name in a declaration, with at most one colon. -/
def declaredName? (s : List Char) : Option (Raw × List Char) :=
  match simpleName? s with
  | none => none
  | some (a, ':' :: rest) =>
    match rest.takeWhile isNameChar, rest.dropWhile isNameChar with
    | [], _ => none
    | _, ':' :: _ => none
    | b, rest => some (⟨some a, String.ofList b⟩, rest)
  | some (a, rest) => some (⟨none, a⟩, rest)

/-! ### elements -/

/-- the text after a mark that says how often something may come -/
def times : List Char → List Char
  | '?' :: s => s
  | '*' :: s => s
  | '+' :: s => s
  | s => s

/-- The text after a content model of which some parentheses are open. The separator in each of them
must be the same throughout. With `ready`, an item comes next. -/
def modelFrom : (fuel : Nat) → (ready : Bool) → List (Option Char) → List Char →
    Option (List Char)
  | 0, _, _, _ => none
  | fuel + 1, true, separators, s =>
    match skip s with
    | '(' :: s => modelFrom fuel true (none :: separators) s
    | s =>
      match declaredName? s with
      | some (_, s) => modelFrom fuel false separators (times s)
      | none => none
  | _ + 1, false, [], s => some s
  | fuel + 1, false, separator :: outer, s =>
    match skip s with
    | ')' :: s => modelFrom fuel false outer (times s)
    | c :: s =>
      if (c == '|' || c == ',') && (separator.isNone || separator == some c) then
        modelFrom fuel true (some c :: outer) s
      else none
    | [] => none

/-- The text after a model of characters and elements; with elements a star ends it. -/
def mixedFrom : (fuel : Nat) → (named : Bool) → List Char → Option (List Char)
  | 0, _, _ => none
  | fuel + 1, named, s =>
    match skip s with
    | ')' :: '*' :: s => some s
    | ')' :: s => if named then none else some s
    | '|' :: s =>
      match declaredName? (skip s) with
      | some (_, s) => mixedFrom fuel true s
      | none => none
    | _ => none

def model? (s : List Char) : Option (List Char) :=
  match s with
  | '(' :: s =>
    match after? "#PCDATA" (skip s) with
    | some s => mixedFrom (s.length + 1) false s
    | none => modelFrom (s.length + 1) true [none] s
  | s => after? "EMPTY" s <|> after? "ANY" s

/-- The text after the declaration of an element, after its keyword. -/
def elementDeclaration? (s : List Char) : Option (List Char) := do
  let (_, s) ← declaredName? (← blanks? s)
  after? ">" (skip (← model? (← blanks? s)))

/-! ### attributes -/

/-- the text after items in parentheses, the first parenthesis having been read -/
def choices? (item : List Char → Option (List Char)) : (fuel : Nat) → List Char →
    Option (List Char)
  | 0, _ => none
  | fuel + 1, s =>
    match (item (skip s)).map skip with
    | some ('|' :: s) => choices? item fuel s
    | some (')' :: s) => some s
    | _ => none

/-- characters of names, in any order -/
def nameToken? (s : List Char) : Option (List Char) :=
  let isTokenChar (c : Char) : Bool := isNameChar c || c == ':'
  match s.takeWhile isTokenChar with
  | [] => none
  | _ => some (s.dropWhile isTokenChar)

def tokenTypes : List String :=
  ["ID", "IDREF", "IDREFS", "ENTITY", "ENTITIES", "NMTOKEN", "NMTOKENS"]

/-- A type, and whether values of it are tokens. -/
def attributeType? (s : List Char) : Option (Bool × List Char) :=
  match s with
  | '(' :: s => (choices? nameToken? (s.length + 1) s).map fun s => (true, s)
  | s =>
    match simpleName? s with
    | none => none
    | some (name, rest) =>
      if name == "CDATA" then some (false, rest)
      else if tokenTypes.contains name then some (true, rest)
      else match name == "NOTATION", blanks? rest with
        | true, some ('(' :: s) =>
          (choices? (fun s => (simpleName? s).map Prod.snd) (s.length + 1) s).map fun s => (true, s)
        | _, _ => none

/-- The words of a text with one blank between two of them. -/
def collapsed (s : List Char) : List Char :=
  [' '].intercalate ((s.splitOn ' ').filter fun word => word != [])

def valueText (tokens : Bool) (value : List Char) : String :=
  String.ofList (if tokens then collapsed value else value)

/-- The default value of an attribute, if it has one. -/
def default? (ds : Declarations) (tokens : Bool) (s : List Char) :
    Option (Option String × List Char) :=
  match after? "#REQUIRED" s <|> after? "#IMPLIED" s with
  | some s => some (none, s)
  | none => do
    let s ← match after? "#FIXED" s with
      | some s => blanks? s
      | none => some s
    let (text, rest) ← quoted? s
    if ds.closed then (if text.all isChar then some (none, rest) else none)
    else
      let value ← value? (ds.expand ds.depth) text
      some (some (valueText tokens value), rest)

/-- The declaration of one attribute. -/
def attributeDeclaration? (ds : Declarations) (element : Raw) (s : List Char) :
    Option (Declarations × List Char) := do
  let (name, s) ← declaredName? s
  let (tokens, s) ← attributeType? (← blanks? s)
  let (value, s) ← default? ds tokens (← blanks? s)
  some (ds.addAttribute ⟨element, name, tokens, value⟩, s)

def attributeDeclarations? (element : Raw) : (fuel : Nat) → Declarations → List Char →
    Option (Declarations × List Char)
  | 0, _, _ => none
  | fuel + 1, ds, s =>
    match after? ">" (skip s), blanks? s with
    | some rest, _ => some (ds, rest)
    | none, none => none
    | none, some s =>
      match attributeDeclaration? ds element s with
      | some (ds, rest) => attributeDeclarations? element fuel ds rest
      | none => none

/-- The declarations of the attributes of an element, after their keyword. -/
def attributeList? (ds : Declarations) (s : List Char) : Option (Declarations × List Char) := do
  let (element, s) ← declaredName? (← blanks? s)
  attributeDeclarations? element (s.length + 1) ds s

/-- The attributes of a tag: values that are tokens without superfluous blanks, and the default
values of the attributes that the tag does not have. -/
def Declarations.complete (ds : Declarations) (t : Tag) : Tag :=
  let given := t.attributes.map fun (name, value) =>
    let tokens := (ds.attribute? t.name name).any AttributeDeclaration.tokens
    (name, valueText tokens value.toList)
  let missing := ds.attributes.filter fun a =>
    a.element == t.name && given.all fun b => b.1 != a.name
  { t with attributes := given ++ missing.filterMap fun a => a.default.map (a.name, ·) }

/-! ### formats -/

/-- The text after the declaration of a data format, after its keyword. -/
def formatDeclaration? (s : List Char) : Option (List Char) := do
  let (_, s) ← simpleName? (← blanks? s)
  let s ← blanks? s
  let rest ← match after? "SYSTEM" s with
    | some s => literal? isChar (← blanks? s)
    | none => do
      let rest ← literal? isPublicChar (← blanks? (← after? "PUBLIC" s))
      some (((blanks? rest).bind (literal? isChar)).getD rest)
  after? ">" (skip rest)

end Ladybug.Xml
