import Ladybug.Automaton.Phase
import Ladybug.Runner
import Ladybug.Script.Interpreter
import Ladybug.Settings

/-!
# Sessions: one world and one run at a time

* `Session`             the world, the world to go back to, and the run
* `Session.startCommands`, `startAutomaton`, `startCode`   begin a run
* `Session.tick`        one command, or one phase of an automaton
* `Session.skip`        the rest of the run
* `Session.stop`, `reset`, `load`                          end it
-/

namespace Ladybug

/-- the kinds of programs that a session runs -/
inductive Mode where
  | commands
  | automaton
  | code
deriving DecidableEq, Repr

def Mode.name : Mode → String
  | .commands => "commands"
  | .automaton => "fsm"
  | .code => "code"

/-- What a session runs, with a place of its own for whatever runs the programs of a kind. -/
structure Run where
  mode : Option Mode := none
  runner : Option Runner := none
  sequencer : Option Automaton.Sequencer := none
  interpreter : Option Script.Interpreter := none
deriving Repr

def Run.mode? (r : Run) : Option String := r.mode.map Mode.name

structure Session where
  settings : Settings
  initial : World
  world : World
  run : Run := {}
  done : Bool := true
  fault : Option Fault := none
deriving Repr

/-- What one call gave. -/
structure Tick where
  world : World
  done : Bool := false
  fault : Option Fault := none
  command : Option Command := none
  phase : Option String := none
  state : Option String := none
deriving DecidableEq, Repr

namespace Session

def ofWorld (settings : Settings) (w : World) : Session where
  settings
  initial := w
  world := w

def running (s : Session) : Bool := s.run.mode.isSome && !s.done

/-- the session without its run -/
def discard (s : Session) : Session := { s with run := {}, done := true, fault := none }

/-- the session with a run of a kind that has begun, still without what runs it -/
def begin (s : Session) (mode : Mode) : Session :=
  { s.discard with run := { mode := some mode }, done := false }

/-- Nothing is run, for a reason. -/
def reject (s : Session) (f : Fault) : Session := { s.discard with fault := some f }

def setRunner (s : Session) (r : Runner) : Session :=
  { s with run := { s.run with runner := some r } }

def setSequencer (s : Session) (q : Automaton.Sequencer) : Session :=
  { s with run := { s.run with sequencer := some q } }

def setInterpreter (s : Session) (i : Script.Interpreter) : Session :=
  { s with run := { s.run with interpreter := some i } }

def startCommands (s : Session) (cs : List Command) : Session :=
  let s := (s.begin .commands).setRunner { commands := cs }
  if cs.isEmpty then { s with done := true } else s

/-- A run of a program that is fit for it, from a state or from its start state. -/
def startAutomaton (s : Session) (a : Automaton) (id : Option String) :
    Session × Option Fault :=
  let fault := match id with
    | none => a.validate
    | some id => a.validateStart id
  match fault with
  | some f => (s.reject f, some f)
  | none =>
    let q := Automaton.Sequencer.ofProgram a id (some s.settings.maxAutomatonSteps)
    ((s.begin .automaton).setSequencer q, none)

/-- the same without a program -/
def startNothing (s : Session) : Session × Option Fault :=
  (s.reject Automaton.undefinedFault, some Automaton.undefinedFault)

def limits (s : Session) : Script.Limits where
  steps := if s.settings.limitStreaming then some s.settings.maxScriptSteps else none
  idle := some s.settings.maxIdleIterations

def startProgram (s : Session) (p : Script.Program) : Session :=
  (s.begin .code).setInterpreter (.ofProgram p s.limits)

def startCode (s : Session) (source dialect : String) : Session × Option Fault :=
  match Script.compile source dialect with
  | .error m => (s.reject m.fault, some m.fault)
  | .ok p => (s.startProgram p, none)

/-- The state of a run that does not go on. -/
def idleTick (s : Session) : Tick where
  world := s.world
  done := true
  fault := s.fault
  phase := s.run.sequencer.map fun q => q.stage.name
  state := s.run.sequencer.bind fun q => q.state

/-- the session after a step of its run, which may have been the last -/
def after (s : Session) (w : World) (done : Bool) (fault : Option Fault) : Session :=
  if done then { s with world := w, done := true, fault } else { s with world := w }

def commandsTick (s : Session) (r : Runner) : Session × Tick :=
  let (r, out) := r.step s.world
  ((s.setRunner r).after out.world out.done out.fault,
    ⟨out.world, out.done, out.fault, out.command, none, none⟩)

def automatonTick (s : Session) (q : Automaton.Sequencer) : Session × Tick :=
  let (q, w) := q.advance s.world
  ((s.setSequencer q).after w q.finished q.stage.fault?,
    ⟨w, q.finished, q.stage.fault?, none, some q.stage.name, q.state⟩)

/-- The next command of a script, done at once. With an exhausted budget it is not done. -/
def codeTick (s : Session) (i : Script.Interpreter) (budget : Option Budget) :
    Session × Tick :=
  let (i, n) := i.next s.world
  let s := s.setInterpreter i
  match n.command with
  | none => (s.after s.world true n.fault, ⟨s.world, true, n.fault, none, none, none⟩)
  | some c =>
    if budget.any Budget.exhausted then
      let f := budget.map Budget.fault
      (s.after s.world true f, ⟨s.world, true, f, none, none, none⟩)
    else match c.apply s.world with
      | none =>
        let f := some (c.blocked s.world)
        (s.after s.world true f, ⟨s.world, true, f, some c, none, none⟩)
      | some w => (s.after w false none, ⟨w, false, none, some c, none, none⟩)

/-- A run goes on with what runs programs of its kind, which is there whenever it has begun. -/
def tick (s : Session) : Session × Tick :=
  if !s.running then (s, s.idleTick)
  else match s.run.mode, s.run with
    | some .commands, { runner := some r, .. } => s.commandsTick r
    | some .automaton, { sequencer := some q, .. } => s.automatonTick q
    | some .code, { interpreter := some i, .. } => s.codeTick i none
    | _, _ => (s, s.idleTick)

/-- At most `left` commands of a script, and one more call to see whether it has ended. -/
def skipCode : (left : Nat) → Session → Budget → Script.Interpreter → Session × Tick
  | left, s, b, i =>
    let b := b.charge
    let (s, t) := s.codeTick i (some b)
    if t.done then (s, t)
    else match left, s.run.interpreter with
      | left + 1, some i => skipCode left s b i
      | _, _ => (s, t)
termination_by left => left

def commandsSkip (s : Session) (r : Runner) : Session × Tick :=
  let (r, out) := r.skip s.world
  ((s.setRunner r).after out.world true out.fault,
    ⟨out.world, true, out.fault, out.command, none, none⟩)

def automatonSkip (s : Session) (q : Automaton.Sequencer) : Session × Tick :=
  let (q, w) := q.skip s.world
  ((s.setSequencer q).after w true q.stage.fault?,
    ⟨w, true, q.stage.fault?, none, some q.stage.name, q.state⟩)

def codeSkip (s : Session) (i : Script.Interpreter) : Session × Tick :=
  skipCode s.settings.maxScriptSteps s ⟨some s.settings.maxScriptSteps, "commands", 0⟩ i

def skip (s : Session) : Session × Tick :=
  if !s.running then (s, s.idleTick)
  else match s.run.mode, s.run with
    | some .commands, { runner := some r, .. } => s.commandsSkip r
    | some .automaton, { sequencer := some q, .. } => s.automatonSkip q
    | some .code, { interpreter := some i, .. } => s.codeSkip i
    | _, _ => (s, s.idleTick)

/-- Ends the run where it stands. -/
def stop (s : Session) : Session × Tick :=
  let s := if s.running then { s with done := true } else s
  (s, s.idleTick)

/-- Back to the initial world, without a run. -/
def reset (s : Session) : Session := { s.discard with world := s.initial }

/-- Another world to begin with. -/
def load (s : Session) (w : World) : Session := { s.discard with initial := w, world := w }

end Session

end Ladybug
