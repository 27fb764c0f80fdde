import Ladybug.Fault

/-!
# Budgets: counted work against an optional limit

* `Budget`             a count of units of work, and the number that it may reach
* `Budget.charge`      more work
* `Budget.exhausted`   the count has passed the limit
-/

namespace Ladybug

/-- the steps of a run, and the loop iterations without a command, when nothing else is said -/
def defaultLimit : Nat := 10000

/-- Without a limit the budget always holds. -/
structure Budget where
  limit : Option Nat
  what : String
  count : Int := 0
deriving DecidableEq, Repr

namespace Budget

def refusal : String := "max_steps must be non-negative"

/-- A fresh budget; a limit below zero is refused. -/
def ofLimit? (limit : Option Int) (what : String) : Except String Budget :=
  match limit with
  | none => .ok ⟨none, what, 0⟩
  | some n => if n < 0 then .error refusal else .ok ⟨some n.toNat, what, 0⟩

def exhausted (b : Budget) : Bool :=
  match b.limit with
  | none => false
  | some n => Int.ofNat n < b.count

def charge (b : Budget) (units : Int := 1) : Budget := { b with count := b.count + units }

def remaining (b : Budget) : Option Int :=
  b.limit.map fun n => max 0 (Int.ofNat n - b.count)

def fault (b : Budget) : Fault := .limitExceeded (b.limit.getD 0) b.what

def reset (b : Budget) : Budget := { b with count := 0 }

@[simp] theorem exhausted_unlimited (what : String) (count : Int) :
    exhausted ⟨none, what, count⟩ = false := rfl

end Budget

end Ladybug
