import Ladybug.Path
import Ladybug.Text.Bytes
import Ladybug.Text.Line

/-!
# Files: what lies where

* `Files`                  the directories and files below the working directory or a root, by
                           their place
* `Files.find?`            what lies at a place
* `Files.locate?`          the place that a path leads to
* `Files.readText`         the text of a file, its line ends made one
* `Files.makeDirectories`, `Files.write`, `Files.rename`   the changes; each may fail
-/

namespace Ladybug

/-- The names that lead to a place from the working directory, or from a root named first. -/
abbrev Place := List String

inductive Entry where
  | directory
  | file (bytes : List UInt8)
deriving DecidableEq, Repr

/-- Neither the working directory nor a root is an entry. -/
structure Files where
  entries : List (Place × Entry) := []
deriving DecidableEq, Repr

namespace Files

/-- where a path begins -/
def origin (path : Path) : Place := if path.root.isEmpty then [] else [path.root]

def isOrigin (p : Place) : Bool := p == [] || p == ["/"] || p == ["//"]

def find? (fs : Files) (p : Place) : Option Entry :=
  if isOrigin p then some .directory else (fs.entries.find? fun e => e.1 == p).map Prod.snd

def isDirectory (fs : Files) (p : Place) : Bool := fs.find? p == some .directory

/-- the same with something at a place, whatever was there -/
def put (fs : Files) (p : Place) (e : Entry) : Files :=
  ⟨fs.entries.filter (fun f => f.1 != p) ++ [(p, e)]⟩

def remove (fs : Files) (p : Place) : Files := ⟨fs.entries.filter fun f => f.1 != p⟩

theorem find?_put (fs : Files) {p : Place} (e : Entry) (h : isOrigin p = false) :
    (fs.put p e).find? p = some e := by
  have none : (fs.entries.filter fun f => f.1 != p).find? (fun f => f.1 == p) = none := by
    simp
  simp [find?, put, h, List.find?_append, none]

/-- All places in order, as paths. -/
def paths (fs : Files) : List String :=
  (fs.entries.map fun e => String.intercalate "/" e.1).mergeSort fun a b => a ≤ b

/-! ### the way to a place -/

/-- what leads out of a directory -/
def outwards : String := ".."

/-- one name further; what leads out of an origin leads nowhere -/
def next? (p : Place) (name : String) : Option Place :=
  if name != outwards then some (p ++ [name]) else if isOrigin p then none else some p.dropLast

/-- Names followed from a place on. All but the last one must be directories. -/
def follow (fs : Files) (p : Place) : List String → Option Place
  | [] => some p
  | name :: names =>
    if !fs.isDirectory p then none
    else match next? p name with
      | some p => fs.follow p names
      | none => none

def locate? (fs : Files) (path : Path) : Option Place := fs.follow (origin path) path.parts

def entry? (fs : Files) (path : Path) : Option Entry := do fs.find? (← fs.locate? path)

def exists? (fs : Files) (path : Path) : Bool := (fs.entry? path).isSome

/-! ### reading -/

inductive ReadError where
  | missing
  | directory
  | notText
  | nullByte
deriving DecidableEq, Repr

def textOf (bytes : List UInt8) : Except ReadError String :=
  match Text.decode? bytes with
  | some cs => .ok (String.ofList (Text.taken (Text.unify cs)))
  | none => .error .notText

def readText (fs : Files) (path : Path) : Except ReadError String :=
  if path.hasNull then .error .nullByte
  else match fs.entry? path with
    | some (.file bytes) => textOf bytes
    | some .directory => .error .directory
    | none => .error .missing

/-! ### changes

Each gives the files after it, and whether it succeeded. -/

/-- The directories on the way from a place, those that are missing being made. -/
def makeFrom (fs : Files) (p : Place) : List String → Files × Bool
  | [] => (fs, true)
  | name :: names =>
    match next? p name with
    | none => (fs, false)
    | some next =>
      match fs.find? next with
      | some .directory => fs.makeFrom next names
      | some (.file _) => (fs, false)
      | none => (fs.put next .directory).makeFrom next names

def makeDirectories (fs : Files) (path : Path) : Files × Bool :=
  fs.makeFrom (origin path) path.parts

/-- A file in a directory that is there. -/
def write (fs : Files) (path : Path) (bytes : List UInt8) : Files × Bool :=
  match fs.locate? path with
  | none => (fs, false)
  | some p => if fs.isDirectory p then (fs, false) else (fs.put p (.file bytes), true)

/-- A file goes to another place, whatever file was there. -/
def rename (fs : Files) (source target : Path) : Files × Bool :=
  match fs.locate? source, fs.locate? target with
  | some p, some q =>
    match fs.find? p with
    | some (.file bytes) =>
      if fs.isDirectory q then (fs, false) else ((fs.remove p).put q (.file bytes), true)
    | _ => (fs, false)
  | _, _ => (fs, false)

end Files

end Ladybug
