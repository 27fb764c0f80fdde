import Ladybug.World.Command

/-!
# Running a list of commands

The runner keeps its place in the list; the caller keeps the world.

* `Runner`         commands, how many of them have been taken, and the fault that ended the run
* `Runner.step`    takes the next command
* `Runner.skip`    takes all that are left
* `repeatLast?`    a list with its end repeated
-/

namespace Ladybug

structure Runner where
  commands : List Command
  taken : Nat := 0
  fault : Option Fault := none
deriving DecidableEq, Repr

/-- What one call gave. `place` is the index of the command taken last, `-1` before the first. -/
structure CommandStep where
  world : World
  place : Int
  command : Option Command := none
  done : Bool := false
  fault : Option Fault := none
deriving DecidableEq, Repr

namespace Runner

def place (r : Runner) : Int := r.taken - 1

def done (r : Runner) : Bool := r.fault.isSome || r.commands.length ≤ r.taken

/-- The next command. One that cannot act is reported, and the run stays at it. -/
def step (r : Runner) (w : World) : Runner × CommandStep :=
  match r.fault with
  | some f => (r, ⟨w, r.place, none, true, some f⟩)
  | none =>
    match r.commands[r.taken]? with
    | none => (r, ⟨w, r.place, none, true, none⟩)
    | some c =>
      let r := { r with taken := r.taken + 1 }
      match c.apply w with
      | none =>
        let f := c.blocked w
        ({ r with fault := some f }, ⟨w, r.place, some c, true, some f⟩)
      | some w => (r, ⟨w, r.place, some c, r.done, none⟩)

/-- steps until one says that it was the last, at most `fuel` of them -/
def stepAll : (fuel : Nat) → Runner → CommandStep → Runner × CommandStep
  | 0, r, result => (r, result)
  | fuel + 1, r, result =>
    if result.done then (r, result)
    else
      let (r, result) := r.step result.world
      stepAll fuel r result

/-- All commands that are left, or those up to the first that cannot act. -/
def skip (r : Runner) (w : World) : Runner × CommandStep :=
  stepAll (r.commands.length - r.taken) r ⟨w, r.place, none, r.done, r.fault⟩

def reset (r : Runner) : Runner := { r with taken := 0, fault := none }

/-- Starts again when the place lies behind the end of a shortened list. -/
def clamp (r : Runner) : Runner := if r.commands.length < r.taken then r.reset else r

end Runner

/-- The last `count` commands added `times` times; the list itself when that makes no sense. There
is no list when `times` is more than a word. -/
def repeatLast? (commands : List Command) (count times : Int) : Option (List Command) :=
  if count ≤ 0 || times ≤ 0 || commands.length < count then some commands
  else if !fitsWord times then none
  else
    let tail := commands.drop (commands.length - count.toNat)
    some (commands ++ (List.replicate times.toNat tail).flatten)

end Ladybug
