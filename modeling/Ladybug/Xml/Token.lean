import Ladybug.Text.Digit
import Ladybug.Xml.Element
import Ladybug.Xml.Name

/-!
# Pieces of XML markup

Each reader takes the text that follows what announces the piece, and gives the piece with the text
after it, or nothing for malformed text.

* `simpleName?`, `rawName?`      names without and with a qualifier
* `reference?`                   a character or an entity after an ampersand
* `comment?`, `instruction?`, `section?`   what elements may hold besides elements
* `attribute?`, `tag?`           an attribute, and a tag with all of them
-/

namespace Ladybug.Xml

/-- A name as it is written, with what stands before the colon. -/
structure Raw where
  qualifier : Option String := none
  base : String
deriving DecidableEq, Repr

def skip (s : List Char) : List Char := s.dropWhile isSpace

def simpleName? : List Char → Option (String × List Char)
  | c :: cs =>
    if isNameStart c then
      some (String.ofList (c :: cs.takeWhile isNameChar), cs.dropWhile isNameChar)
    else none
  | [] => none

/-- A name with at most one colon. -/
def rawName? (s : List Char) : Option (Raw × List Char) :=
  match simpleName? s with
  | none => none
  | some (a, ':' :: rest) =>
    match simpleName? rest with
    | some (_, ':' :: _) => none
    | some (b, rest) => some (⟨some a, b⟩, rest)
    | none => none
  | some (a, rest) => some (⟨none, a⟩, rest)

/-- the text before a mark and the text after it, `done` being what stands before both -/
def until? (mark : List Char) : List Char → List Char → Option (List Char × List Char)
  | [], _ => none
  | c :: cs, done =>
    if mark.isPrefixOf (c :: cs) then some (done.reverse, (c :: cs).drop mark.length)
    else until? mark cs (c :: done)

/-- what comes after a mark that stands first -/
def after? (mark : String) (s : List Char) : Option (List Char) :=
  if mark.toList.isPrefixOf s then some (s.drop mark.length) else none

/-- The text after a comment: two dashes end it, and nothing but its end may follow them. -/
def comment? (s : List Char) : Option (List Char) :=
  match until? ['-', '-'] s [] with
  | some (text, '>' :: rest) => if text.all isChar then some rest else none
  | _ => none

/-- The text after a processing instruction. The name `xml` is not for those. -/
def instruction? (s : List Char) : Option (List Char) :=
  match simpleName? s with
  | none => none
  | some (target, rest) =>
    if target.toLower == "xml" then none
    else match rest with
      | '?' :: '>' :: rest => some rest
      | c :: rest =>
        if isSpace c then
          match until? ['?', '>'] rest [] with
          | some (text, rest) => if text.all isChar then some rest else none
          | none => none
        else none
      | [] => none

/-- The text after a section of characters. -/
def section? (s : List Char) : Option (List Char) :=
  match until? [']', ']', '>'] s [] with
  | some (text, rest) => if text.all isChar then some rest else none
  | none => none

/-! ### references -/

inductive Reference where
  | char (c : Char)
  | entity (name : String)
deriving DecidableEq, Repr

def predefined? : String → Option Char
  | "lt" => some '<'
  | "gt" => some '>'
  | "amp" => some '&'
  | "quot" => some '"'
  | "apos" => some '\''
  | _ => none

/-- the character with a number, if a document may hold it -/
def charOf? (n : Nat) : Option Char :=
  if n.isValidChar && isChar (Char.ofNat n) then some (Char.ofNat n) else none

/-- digits of some base and a semicolon -/
def number? (base : Nat) (value : Char → Option Nat) (s : List Char) :
    Option (Reference × List Char) :=
  let digits := s.takeWhile fun c => (value c).isSome
  match digits, s.drop digits.length with
  | _ :: _, ';' :: rest =>
    (charOf? (digits.foldl (fun n c => base * n + (value c).getD 0) 0)).map fun c =>
      (.char c, rest)
  | _, _ => none

def decimalValue? (c : Char) : Option Nat :=
  if '0' ≤ c && c ≤ '9' then some (c.toNat - '0'.toNat) else none

def reference? (s : List Char) : Option (Reference × List Char) :=
  match s with
  | '#' :: 'x' :: rest => number? 16 Text.hexValue? rest
  | '#' :: rest => number? 10 decimalValue? rest
  | _ =>
    match simpleName? s with
    | some (name, ';' :: rest) => some (.entity name, rest)
    | _ => none

/-! ### attributes -/

/-- The value of an attribute, its text without the quotes: blanks become spaces, and references
what they stand for. `done` holds what was read, the last character first. -/
def valueFrom (expand : String → Option (List Char)) : (fuel : Nat) → List Char → List Char →
    Option (List Char)
  | 0, _, _ => none
  | _ + 1, [], done => some done.reverse
  | fuel + 1, '&' :: s, done =>
    match reference? s with
    | some (.char c, rest) => valueFrom expand fuel rest (c :: done)
    | some (.entity name, rest) =>
      match expand name with
      | some text => valueFrom expand fuel rest (text.reverse ++ done)
      | none => none
    | none => none
  | fuel + 1, '\r' :: '\n' :: s, done => valueFrom expand fuel s (' ' :: done)
  | fuel + 1, c :: s, done =>
    if c == '<' || !isChar c then none
    else valueFrom expand fuel s ((if isSpace c then ' ' else c) :: done)

def value? (expand : String → Option (List Char)) (s : List Char) : Option (List Char) :=
  valueFrom expand (s.length + 1) s []

/-- a text in quotes of either kind -/
def quoted? : List Char → Option (List Char × List Char)
  | q :: s => if q == '"' || q == '\'' then until? [q] s [] else none
  | [] => none

structure Tag where
  name : Raw
  attributes : List (Raw × String)
  closed : Bool

/-- An attribute after the blanks in front of it. -/
def attribute? (expand : String → Option (List Char)) (s : List Char) :
    Option ((Raw × String) × List Char) := do
  let (name, rest) ← rawName? s
  let rest ← after? "=" (skip rest)
  let (text, rest) ← quoted? (skip rest)
  let value ← value? expand text
  some ((name, String.ofList value), rest)

def startsBlank : List Char → Bool
  | c :: _ => isSpace c
  | [] => false

/-- The attributes of a tag and its end, those before them in reverse. There are fewer attributes
than characters in `bound`. -/
def attributesFrom (expand : String → Option (List Char)) :
    (bound : List Char) → List (Raw × String) →
    List Char → Option ((List (Raw × String) × Bool) × List Char)
  | [], _, _ => none
  | _ :: bound, done, s =>
    match skip s with
    | '>' :: rest => some ((done.reverse, false), rest)
    | '/' :: '>' :: rest => some ((done.reverse, true), rest)
    | rest =>
      if startsBlank s then
        match attribute? expand rest with
        | some (a, rest) => attributesFrom expand bound (a :: done) rest
        | none => none
      else none

/-- A tag that begins an element, after the bracket. -/
def tag? (expand : String → Option (List Char)) (s : List Char) : Option (Tag × List Char) := do
  let (name, rest) ← rawName? s
  let ((attributes, closed), rest) ← attributesFrom expand rest [] rest
  some (⟨name, attributes, closed⟩, rest)

end Ladybug.Xml
