import Ladybug.World.Command
import Ladybug.World.Sensor

/-!
# Programs as trees

* `Expr`           conditions
* `Stmt`           statements
* `Program`        the body of the entry routine
* `Stmt.descent`   how deep the evaluation of a condition goes
-/

namespace Ladybug.Script

/-- A condition, with the line on which it begins. -/
inductive Expr where
  | sensor (detector : Detector) (line : Nat)
  | literal (value : Bool) (line : Nat)
  | not (operand : Expr) (line : Nat)
  | and (operands : List Expr) (line : Nat)
  | or (operands : List Expr) (line : Nat)
deriving Repr, Inhabited

/-- A sensor that stands alone is read for nothing. A choice runs the body of the first branch
whose condition holds, and the last body if there is none. -/
inductive Stmt where
  | command (command : Command) (line : Nat)
  | ask (sensor : Expr) (line : Nat)
  | loop (condition : Expr) (body : List Stmt) (line : Nat)
  | choice (branches : List (Expr × List Stmt)) (otherwise : List Stmt) (line : Nat)
deriving Repr, Inhabited

structure Program where
  body : List Stmt
  entryLine : Nat := 1
deriving Repr

mutual

/-- The value of a condition in a world. -/
def Expr.eval (w : World) : Expr → Bool
  | .sensor d _ => d.read w
  | .literal b _ => b
  | .not e _ => !e.eval w
  | .and es _ => allHold w es
  | .or es _ => someHolds w es

def allHold (w : World) : List Expr → Bool
  | [] => true
  | e :: es => e.eval w && allHold w es

def someHolds (w : World) : List Expr → Bool
  | [] => false
  | e :: es => e.eval w || someHolds w es

end

/-- The body that a choice runs. -/
def chosen (w : World) (otherwise : List Stmt) : List (Expr × List Stmt) → List Stmt
  | [] => otherwise
  | (e, body) :: rest => if e.eval w then body else chosen w otherwise rest

/-! ### how deep an evaluation goes -/

mutual

/-- How deep the evaluation of a condition goes into it. The operands after one that decides are
not evaluated. -/
def Expr.descent (w : World) : Expr → Nat
  | .sensor _ _ => 0
  | .literal _ _ => 0
  | .not e _ => e.descent w + 1
  | .and es _ => operandDescent w false es + 1
  | .or es _ => operandDescent w true es + 1

/-- `decisive` is the value of an operand that decides. -/
def operandDescent (w : World) (decisive : Bool) : List Expr → Nat
  | [] => 0
  | e :: es =>
    if e.eval w = decisive then e.descent w
    else max (e.descent w) (operandDescent w decisive es)

end

/-- The branches after the one that is chosen are not looked at. -/
def branchDescent (w : World) : List (Expr × List Stmt) → Nat
  | [] => 0
  | (e, _) :: rest =>
    if e.eval w then e.descent w else max (e.descent w) (branchDescent w rest)

/-- how deep the evaluation goes that a statement begins with -/
def Stmt.descent (w : World) : Stmt → Nat
  | .command _ _ => 0
  | .ask e _ => e.descent w
  | .loop e _ _ => e.descent w
  | .choice branches _ _ => branchDescent w branches

end Ladybug.Script
