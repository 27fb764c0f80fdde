import Ladybug.Automaton.Run
import Ladybug.Budget
import Ladybug.Script.Agenda
import Ladybug.Script.Parse

/-!
# Interpreters: programs that hand out commands

* `Interpreter`         a program under way; the caller keeps the world
* `Interpreter.next`    the next command
* `extract`             all commands, run against a world of their own
-/

namespace Ladybug.Script

/-- what a program may do before it is stopped; nothing stands for no limit -/
structure Limits where
  steps : Option Nat := some defaultLimit
  idle : Option Nat := some defaultLimit
  depth : Option Nat := some nestingLimit
deriving DecidableEq, Repr

structure Interpreter where
  agenda : Agenda
  limits : Limits
  emitted : Nat := 0
  done : Bool := false
  fault : Option Fault := none
deriving Repr

/-- What one call gave. -/
structure Next where
  command : Option Command := none
  done : Bool := false
  fault : Option Fault := none
deriving DecidableEq, Repr

def idleUnit : String := "loop iterations without a command"

def Halt.fault? (limits : Limits) : Halt → Option Fault
  | .finished => none
  | .idle line => some
    { Fault.limitExceeded (limits.idle.getD 0) idleUnit with
      line := some line, reason := some "idle_loop" }
  | .tooDeep => some
    { kind := .execution, message := "Error: Your program is nested too deeply to run." }

namespace Interpreter

def ofProgram (p : Program) (limits : Limits) : Interpreter where
  agenda := [p.body]
  limits

def halt (i : Interpreter) (fault : Option Fault) : Interpreter × Next :=
  ({ i with done := true, fault }, ⟨none, true, fault⟩)

def budget (i : Interpreter) : Budget := ⟨i.limits.steps, "steps", i.emitted⟩

/-- The next command for a world in which all commands before it have been done. -/
def next (i : Interpreter) (w : World) : Interpreter × Next :=
  if i.done then (i, ⟨none, true, i.fault⟩)
  else match i.agenda.resume i.limits.depth w (i.limits.idle.getD Automaton.unbounded) with
    | .error h => i.halt (h.fault? i.limits)
    | .ok (c, rest) =>
      let i := { i with agenda := rest, emitted := i.emitted + 1 }
      if i.budget.exhausted then i.halt (some i.budget.fault)
      else (i, ⟨some c, false, none⟩)

end Interpreter

/-- The commands that were done, the world after them, and why there are no more. -/
structure Extraction where
  commands : List Command
  world : World
  fault : Option Fault
deriving DecidableEq, Repr

/-- At most `fuel` commands, each done before the next is asked for, after those in `done`. -/
def extractFrom : (fuel : Nat) → Interpreter → World → List Command → Extraction
  | 0, i, w, done => ⟨done.reverse, w, (i.next w).2.fault⟩
  | fuel + 1, i, w, done =>
    let (i, n) := i.next w
    match n.command with
    | none => ⟨done.reverse, w, n.fault⟩
    | some c =>
      match c.apply w with
      | none => ⟨done.reverse, w, some (c.blocked w)⟩
      | some w => extractFrom fuel i w (c :: done)

/-- All commands of a program, up to the first that is blocked. -/
def extractProgram (p : Program) (limits : Limits) (w : World) : Extraction :=
  extractFrom (limits.steps.getD Automaton.unbounded) (.ofProgram p limits) w []

def extract (source dialect : String) (limits : Limits) (w : World) : Extraction :=
  match compile source dialect with
  | .error m => ⟨[], w, some m.fault⟩
  | .ok p => extractProgram p limits w

end Ladybug.Script
