import Ladybug.Xml.Declared

/-!
# What stands before the root of an XML document

* `declaration?`   the declaration at the very start, and whether it says `standalone`
* `doctype?`       a document type with its internal part
-/

namespace Ladybug.Xml

/-! ### the declaration -/

def isDeclarationChar (c : Char) : Bool :=
  ('a' ≤ c && c ≤ 'z') || ('A' ≤ c && c ≤ 'Z') || ('0' ≤ c && c ≤ '9')
    || c == '.' || c == '-' || c == '_'

/-- The settings of a declaration, each after a blank; `fuel` bounds their number. -/
def settings? : (fuel : Nat) → List Char → Option (List (List Char × List Char))
  | _, [] => some []
  | 0, _ => none
  | fuel + 1, c :: cs =>
    if !isSpace c then none
    else match skip cs with
      | [] => some []
      | s => do
        let name := s.takeWhile fun c => c != '=' && !isSpace c
        if name.isEmpty || name.any fun c => 127 < c.toNat then none
        let rest ← after? "=" (skip (s.drop name.length))
        let (value, rest) ← quoted? (skip rest)
        if value.all isDeclarationChar then
          let more ← settings? fuel rest
          some ((name, value) :: more)
        else none

def startsWithLetter : List Char → Bool
  | c :: _ => ('a' ≤ c && c ≤ 'z') || ('A' ≤ c && c ≤ 'Z')
  | [] => false

/-- A version, then perhaps an encoding and perhaps whether the document stands alone. -/
def standalone? (settings : List (List Char × List Char)) : Option Bool := do
  let rest ← match settings with
    | (name, _) :: rest => if name == "version".toList then some rest else none
    | [] => none
  let rest ← match rest with
    | (name, value) :: more =>
      if name == "encoding".toList then (if startsWithLetter value then some more else none)
      else some rest
    | [] => some []
  match rest with
  | [] => some false
  | [(name, value)] =>
    if name != "standalone".toList then none
    else if value == "yes".toList then some true
    else if value == "no".toList then some false
    else none
  | _ => none

/-- A declaration after its name. -/
def declaration? (s : List Char) : Option (Bool × List Char) := do
  let (text, rest) ← until? ['?', '>'] s []
  let standalone ← standalone? (← settings? (text.length + 1) text)
  some (standalone, rest)

/-! ### the document type -/

/-- One declaration, after the two characters that announce it. -/
def oneDeclaration? (ds : Declarations) (s : List Char) : Option (Declarations × List Char) :=
  match after? "ENTITY" s, after? "ATTLIST" s with
  | some rest, _ =>
    match entity? rest with
    | some (some (name, text), rest) => some (ds.addEntity name text, rest)
    | some (none, rest) => some (ds, rest)
    | none => none
  | none, some rest => attributeList? ds rest
  | none, none =>
    match after? "ELEMENT" s, after? "NOTATION" s with
    | some rest, _ => (elementDeclaration? rest).map (ds, ·)
    | none, some rest => (formatDeclaration? rest).map (ds, ·)
    | none, none => none

/-- The declarations of an internal part, up to its closing bracket. -/
def declarations? : (fuel : Nat) → Declarations → List Char → Option (Declarations × List Char)
  | 0, _, _ => none
  | fuel + 1, ds, s =>
    match skip s with
    | [] => none
    | ']' :: rest => some (ds, rest)
    | '%' :: rest =>
      match simpleName? rest with
      | some (_, ';' :: rest) => declarations? fuel { ds with skips := true } rest
      | _ => none
    | s =>
      match after? "<!--" s, after? "<?" s, after? "<!" s with
      | some rest, _, _ => (comment? rest).bind (declarations? fuel ds)
      | none, some rest, _ => (instruction? rest).bind (declarations? fuel ds)
      | none, none, some rest =>
        match oneDeclaration? ds rest with
        | some (ds, rest) => declarations? fuel ds rest
        | none => none
      | none, none, none => none

/-- A document type after its keyword. -/
def doctype? (standalone : Bool) (s : List Char) : Option (Declarations × List Char) := do
  let s ← blanks? s
  let (_, s) ← declaredName? s
  let (outside, s) := match (blanks? s).bind external? with
    | some rest => (true, skip rest)
    | none => (false, skip s)
  let ds : Declarations := { standalone, outside }
  let (ds, s) ← match s with
    | '[' :: rest =>
      (declarations? (rest.length + 1) ds rest).map fun (ds, rest) => (ds, skip rest)
    | s => some (ds, s)
  let rest ← after? ">" s
  some (ds, rest)

end Ladybug.Xml
