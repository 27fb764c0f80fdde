import Ladybug.Console.Run
import Std.Time.DateTime.Timestamp

/-!
# The program

`main` reads the files that its arguments name and the file of progress, lets `Console.answer` reply
to the command line, writes the files that have changed, and prints the reply.
-/

namespace Ladybug.Console
open Ladybug

def environment : IO Environment := do
  let values ← Settings.variables.mapM fun name => do return (name, ← IO.getEnv name)
  return values.filterMap fun (name, value) => value.map fun v => (name, Text.held v)

def now : IO Instant := do
  let t ← Std.Time.Timestamp.now
  let micros := t.toNanosecondsSinceUnixEpoch.val / 1000
  return Instant.ofSeconds (micros / 1000000) (micros % 1000000).toNat

/-- what lies at a path on the disk -/
def onDisk (path : Path) : IO (Option Entry) := do
  let name := (← IO.currentDir) / Text.outside path.text
  if ← name.isDir then return some .directory
  else if ← name.pathExists then return some (.file (← IO.FS.readBinFile name).toList)
  else return none

/-- the beginnings of a path, the shortest one first -/
def beginnings (path : Path) : List Path :=
  (List.range path.parts.length).map fun n => { path with parts := path.parts.take (n + 1) }

/-- The files with one more place looked up. -/
def lookUp (fs : Files) (path : Path) : IO Files := do
  match fs.locate? path with
  | none => return fs
  | some p =>
    if (fs.find? p).isSome then return fs
    else match ← onDisk path with
      | some e => return fs.put p e
      | none => return fs

def lookUpAll (fs : Files) (paths : List Path) : IO Files :=
  (paths.flatMap beginnings).foldlM lookUp fs

def placeText (p : Place) : String :=
  Text.outside (Path.append (Path.ofText (p.headD "")) ⟨"", p.drop 1⟩).text

/-- An entry written to the disk, a file under another name first. -/
def store (p : Place) : Entry → IO Unit
  | .directory => IO.FS.createDirAll (placeText p)
  | .file bytes => do
    let name := placeText p
    IO.FS.writeBinFile (name ++ ".new") ⟨bytes.toArray⟩
    IO.FS.rename (name ++ ".new") name

def storeChanges (before after : Files) : IO Unit :=
  after.entries.forM fun (p, e) => unless before.find? p == some e do store p e

def failureText : Failure → String
  | .issue i => i.text
  | .notText => "a file is no text"
  | .tooLarge => "a number is too large"
  | .tooLong digits => Decimal.tooLongMessage digits
  | .nullByte => Path.nullMessage
  | .limit m => m

def run (args : List String) : IO UInt32 := do
  let args := args.map Text.held
  let env ← environment
  let progress := match Settings.read env [] with
    | .ok s => [progressPath s.dataRoot, Store.temporary (progressPath s.dataRoot)]
    | .error _ => []
  let before ← lookUpAll {} (args.map Path.ofText ++ progress)
  let (after, reply) := answer env before (← now) args
  storeChanges before after
  IO.print (Text.outside reply.out)
  IO.eprint (Text.outside reply.err)
  match reply.failure with
  | some f => IO.eprintln (Text.outside (failureText f))
  | none => pure ()
  return reply.exit.toUInt32

end Ladybug.Console

def main (args : List String) : IO UInt32 := Ladybug.Console.run args
