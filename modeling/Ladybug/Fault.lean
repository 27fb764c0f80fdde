/-!
# Faults: why a run or a reading ended

* `FaultKind`   where a failure was decided
* `Fault`       a failure with what is known of its place
* `FaultKind.endsRun`   the kinds that end the run they occur in
-/

namespace Ladybug

inductive FaultKind where
  | structural
  | validation
  | blockedAction
  | stuckState
  | limitExceeded
  | parse
  | execution
  | storage
deriving DecidableEq, Repr

namespace FaultKind

def name : FaultKind → String
  | .structural => "structural"
  | .validation => "validation"
  | .blockedAction => "blocked_action"
  | .stuckState => "stuck_state"
  | .limitExceeded => "limit_exceeded"
  | .parse => "parse"
  | .execution => "execution"
  | .storage => "storage"

def all : List FaultKind :=
  [.structural, .validation, .blockedAction, .stuckState, .limitExceeded, .parse, .execution,
    .storage]

/-- Blocked, stuck and limit faults, and those of a program that cannot go on. -/
def endsRun : FaultKind → Bool
  | .blockedAction | .stuckState | .limitExceeded | .execution => true
  | _ => false

end FaultKind

structure Fault where
  kind : FaultKind
  message : String
  stateId : Option String := none
  action : Option String := none
  detectors : List String := []
  line : Option Int := none
  reason : Option String := none
deriving DecidableEq, Repr

namespace Fault

def structural (message : String) (stateId : Option String := none) : Fault :=
  { kind := .structural, message, stateId }

def validation (message : String) : Fault := { kind := .validation, message }

/-- More than `limit` units of `what`. -/
def limitExceeded (limit : Int) (what : String) : Fault where
  kind := .limitExceeded
  message := "Execution limit exceeded (" ++ toString limit ++ " " ++ what
    ++ "). Possible infinite loop."
  reason := some what

def parse (message : String) (line : Option Int := none) (reason : Option String := none) :
    Fault :=
  { kind := .parse, message, line, reason }

def storage (message reason : String) (line : Option Int := none) : Fault :=
  { kind := .storage, message, line, reason := some reason }

end Fault

end Ladybug
