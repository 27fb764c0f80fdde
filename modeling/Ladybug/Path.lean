import Ladybug.Text.Case

/-!
# Paths

* `Path.ofText`   a path without empty parts and parts that stay where they are
* `Path.text`     the path as text, a point for the path without parts
* `Path.suffix`   what the last part ends with from its last point on
* `Path.hasNull`  a path that can lead to no place
-/

namespace Ladybug

/-- The root is empty for a relative path, else one slash, or two where a path begins with just
two. -/
structure Path where
  root : String
  parts : List String
deriving DecidableEq, Repr

namespace Path

def ofText (s : String) : Path where
  root := match s.toList with
    | '/' :: '/' :: '/' :: _ => "/"
    | '/' :: '/' :: _ => "//"
    | '/' :: _ => "/"
    | _ => ""
  parts := ((s.toList.splitOn '/').filter fun p => p != [] && p != ['.']).map String.ofList

def text (p : Path) : String :=
  if p.root.isEmpty && p.parts.isEmpty then "." else p.root ++ String.intercalate "/" p.parts

/-- No place has a name with a null character. -/
def hasNull (p : Path) : Bool := p.parts.any fun s => s.toList.contains '\x00'

def nullMessage : String := "embedded null byte"

/-- a path one part longer -/
def child (p : Path) (name : String) : Path := { p with parts := p.parts ++ [name] }

/-- One path below another; one that begins at a root stands for itself. -/
def append (p q : Path) : Path :=
  if q.root.isEmpty then { p with parts := p.parts ++ q.parts } else q

def name (p : Path) : String := p.parts.getLast?.getD ""

/-- the path without its last part -/
def parent (p : Path) : Path := { p with parts := p.parts.dropLast }

/-- A point that begins or ends a name does not begin a suffix. -/
def suffix (p : Path) : String :=
  let cs := p.name.toList
  let stem := cs.reverse.dropWhile (· != '.')
  let ending := cs.reverse.takeWhile (· != '.')
  match stem with
  | _ :: _ :: _ => if ending.isEmpty then "" else String.ofList ('.' :: ending.reverse)
  | _ => ""

/-- the last part without its suffix -/
def stem (p : Path) : String := String.ofList (p.name.toList.take (p.name.length - p.suffix.length))

/-- the path with another suffix -/
def withSuffix (p : Path) (suffix : String) : Path :=
  { p with parts := p.parts.dropLast ++ [p.stem ++ suffix] }

end Path

end Ladybug
