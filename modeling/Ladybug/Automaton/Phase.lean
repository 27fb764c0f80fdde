import Ladybug.Automaton.Run

/-!
# Running an automaton phase by phase

A transition is shown in parts: that it was found, each of its actions, and the way to its target.

* `Stage`               where in a transition a run stands
* `Sequencer`           a run in progress; the caller keeps the world
* `Sequencer.advance`   one phase more
* `Sequencer.skip`      the rest of the run at once
* `Snapshot`            what can be seen of it
-/

namespace Ladybug.Automaton

/-- `acting t i` comes after the action with index `i`, and `arrow t` after the last action. A
run that a blocked action ended keeps the transition and the index. -/
inductive Stage where
  | idle
  | found (t : Transition)
  | acting (t : Transition) (index : Nat)
  | arrow (t : Transition)
  | finished (last : Option (Transition × Nat)) (fault : Option Fault)
deriving DecidableEq, Repr

namespace Stage

def name : Stage → String
  | .idle => "idle"
  | .found _ => "transition-matched"
  | .acting _ _ => "executing-action"
  | .arrow _ => "showing-arrow"
  | .finished _ _ => "finished"

def transition? : Stage → Option Transition
  | .idle => none
  | .found t | .acting t _ | .arrow t => some t
  | .finished last _ => last.map Prod.fst

/-- the index of the action done or tried last, `-1` when there is none -/
def index : Stage → Int
  | .idle | .found _ => -1
  | .acting _ i => i
  | .arrow t => t.actions.length - 1
  | .finished last _ => match last with
    | some (_, i) => i
    | none => -1

def isFinished : Stage → Bool
  | .finished _ _ => true
  | _ => false

def fault? : Stage → Option Fault
  | .finished _ f => f
  | _ => none

end Stage

structure Sequencer where
  program : Option Automaton
  stage : Stage := .idle
  state : Option String
  previous : Option String := none
  budget : Budget
  steps : Nat := 0
deriving DecidableEq, Repr

structure Snapshot where
  world : World
  phase : String
  state : Option String
  transition : Option String
  index : Int
  previous : Option String
  steps : Nat
  stopped : Bool
  fault : Option Fault
deriving DecidableEq, Repr

namespace Sequencer

/-- A run from a state, or else from the start state. -/
def ofProgram (a : Automaton) (start : Option String) (limit : Option Nat) : Sequencer where
  program := some a
  state := start <|> a.start
  budget := ⟨limit, "steps", 0⟩

/-- a run without a program, which can only end at once -/
def ofNothing (start : String) (limit : Option Nat) : Sequencer where
  program := none
  state := some start
  budget := ⟨limit, "steps", 0⟩

def snapshot (s : Sequencer) (w : World) : Snapshot where
  world := w
  phase := s.stage.name
  state := s.state
  transition := s.stage.transition?.map Transition.id
  index := s.stage.index
  previous := s.previous
  steps := s.steps
  stopped := s.stage.isFinished
  fault := s.stage.fault?

def finished (s : Sequencer) : Bool := s.stage.isFinished

def finish (s : Sequencer) (fault : Option Fault) : Sequencer :=
  { s with stage := .finished none fault }

/-- Looks for the transition to take. -/
def find (s : Sequencer) (w : World) : Sequencer :=
  match s.program with
  | none => s.finish (some undefinedFault)
  | some a =>
    match a.structuralFault? s.state with
    | some f => s.finish (some f)
    | none =>
      let id := s.state.getD ""
      if id = a.stop then s.finish none
      else match a.transition? w id with
        | none => s.finish (some (a.stuckFault w id))
        | some t =>
          let s := { s with budget := s.budget.charge }
          if s.budget.exhausted then s.finish (some s.budget.fault)
          else { s with steps := s.steps + 1, stage := .found t }

/-- The action with an index, or the arrow after the last one. -/
def actAt (s : Sequencer) (w : World) (t : Transition) (i : Nat) : Sequencer × World :=
  match t.actions[i]? with
  | none => ({ s with previous := s.state, state := some t.target, stage := .arrow t }, w)
  | some c =>
    match c.apply w with
    | none => ({ s with stage := .finished (some (t, i)) (some (blockedFault c w s.state)) }, w)
    | some w => ({ s with stage := .acting t i }, w)

/-- One phase. -/
def advance (s : Sequencer) (w : World) : Sequencer × World :=
  match s.stage with
  | .finished _ _ => (s, w)
  | .idle | .arrow _ => (s.find w, w)
  | .found t => s.actAt w t 0
  | .acting t i => s.actAt w t (i + 1)

/-- the actions of a transition from an index on, at most `fuel` of them, and the arrow -/
def actFrom : (fuel : Nat) → Sequencer → World → Transition → Nat → Sequencer × World
  | 0, s, w, t, i => s.actAt w t i
  | fuel + 1, s, w, t, i =>
    match s.actAt w t i with
    | (s, w) =>
      match s.stage with
      | .acting _ _ => actFrom fuel s w t (i + 1)
      | _ => (s, w)

/-- The transition in progress brought to its end. -/
def settle (s : Sequencer) (w : World) : Sequencer × World :=
  match s.stage with
  | .found t => actFrom t.actions.length s w t 0
  | .acting t i => actFrom t.actions.length s w t (i + 1)
  | _ => (s, w)

/-- The rest of the run: the transition in progress, then whole transitions. -/
def skip (s : Sequencer) (w : World) : Sequencer × World :=
  let (s, w) := s.settle w
  if s.finished then (s, w)
  else
    let limit := (s.budget.remaining.map Int.toNat).getD defaultLimit
    let r := runOption s.program w s.state (some limit)
    ({ s with
        steps := s.steps + r.steps
        budget := s.budget.charge r.steps
        state := r.state
        stage := .finished none r.fault }, r.world)

end Sequencer

end Ladybug.Automaton
