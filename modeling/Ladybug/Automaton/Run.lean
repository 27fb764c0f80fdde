import Ladybug.Automaton.Check
import Ladybug.Budget

/-!
# Running an automaton

* `act`          actions one after the other, up to the first that is blocked
* `step`         one transition
* `run`          transitions until the stop state, a fault, or the limit
-/

namespace Ladybug.Automaton

def stuckTip : String :=
  "Tip: Add a transition that handles this case, or use \"yes or no\" (wildcard) "
    ++ "for sensor conditions you don't care about."

/-- No transition of the state fits the readings. -/
def stuckFault (a : Automaton) (w : World) (id : String) : Fault where
  kind := .stuckState
  message := "Kara is stuck in state \"" ++ a.displayName id
    ++ "\"! No transition matches the current situation: " ++ w.situation ++ ".\n\n" ++ stuckTip
  stateId := some id
  detectors := w.phrases

/-- An action that left the world as it was. -/
def blockedFault (c : Command) (w : World) (id : Option String) : Fault :=
  { c.blocked w with action := some c.actionName, stateId := id }

/-- The world after the actions, or before the first blocked one together with it. -/
def act : List Command → World → World × Option Command
  | [], w => (w, none)
  | c :: cs, w =>
    match c.apply w with
    | none => (w, some c)
    | some w => act cs w

structure Step where
  world : World
  next : String
  stopped : Bool
  fault : Option Fault := none
  transition : Option String := none
deriving DecidableEq, Repr

/-- One transition from a state. When an action is blocked, those before it stay done. -/
def step (a : Automaton) (w : World) (id : String) : Step :=
  match a.structuralFault? (some id) with
  | some f => ⟨w, id, true, some f, none⟩
  | none =>
    if id = a.stop then ⟨w, id, true, none, none⟩
    else match a.transition? w id with
      | none => ⟨w, id, true, some (a.stuckFault w id), none⟩
      | some t =>
        match act t.actions w with
        | (w, some c) => ⟨w, id, true, some (blockedFault c w (some id)), some t.id⟩
        | (w, none) => ⟨w, t.target, t.target = a.stop, none, some t.id⟩

structure Outcome where
  world : World
  state : Option String
  steps : Nat
  fault : Option Fault := none
deriving DecidableEq, Repr

/-- A run of at most `left` more transitions after `steps` of them. -/
def runFrom (a : Automaton) (budget : Budget) :
    (left steps : Nat) → World → String → Outcome
  | left, steps, w, id =>
    if id = a.stop then ⟨w, some id, steps, none⟩
    else match left with
      | 0 => ⟨w, some id, steps, some budget.fault⟩
      | left + 1 =>
        let s := a.step w id
        match s.fault with
        | some f => ⟨s.world, some id, steps, some f⟩
        | none => runFrom a budget left (steps + 1) s.world s.next
termination_by left => left

/-- as good as no limit -/
def unbounded : Nat := Nat.pow 10 18

/-- A run from a state, or from the start state. Only `limit` transitions are made. -/
def run (a : Automaton) (w : World) (id : Option String) (limit : Option Nat) : Outcome :=
  match id <|> a.start with
  | none => ⟨w, none, 0, a.validate⟩
  | some s => runFrom a ⟨limit, "steps", 0⟩ (limit.getD unbounded) 0 w s

/-- The same, where there may be no program. -/
def runOption (a : Option Automaton) (w : World) (id : Option String) (limit : Option Nat) :
    Outcome :=
  match a with
  | none => ⟨w, id, 0, some undefinedFault⟩
  | some a => a.run w id limit

end Ladybug.Automaton
