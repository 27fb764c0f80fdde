import Ladybug.Decimal.Binary

/-!
# Sums and products of binary numbers

Both are the nearest number to the exact result.

* `Binary.add`   a sum; infinities of both signs make not a number
* `Binary.mul`   a product; an infinity times zero makes not a number
-/

namespace Ladybug.Binary
open Ladybug

/-- a finite number as a quotient with its sign -/
def signedRatio (negative : Bool) (significand : Nat) (exponent : Int) : Int × Nat :=
  let (n, d) := ratio significand exponent
  (if negative then -Int.ofNat n else Int.ofNat n, d)

/-- A sum that is zero is negative only if both numbers are. -/
def add : Binary → Binary → Binary
  | .nan, _ | _, .nan => .nan
  | .infinite a, .infinite b => if a == b then .infinite a else .nan
  | .infinite a, _ => .infinite a
  | _, .infinite b => .infinite b
  | .finite a m e, .finite b k f =>
    let (x, d) := signedRatio a m e
    let (y, c) := signedRatio b k f
    let sum := x * Int.ofNat c + y * Int.ofNat d
    if sum = 0 then ofRatio (a && b) 0 1 else ofRatio (sum < 0) sum.natAbs (d * c)

def isZero : Binary → Bool
  | .finite _ m _ => m == 0
  | _ => false

def isNegative : Binary → Bool
  | .finite negative _ _ | .infinite negative => negative
  | .nan => false

def mul : Binary → Binary → Binary
  | .nan, _ | _, .nan => .nan
  | .finite a m e, .finite b k f =>
    let (x, d) := ratio m e
    let (y, c) := ratio k f
    ofRatio (a != b) (x * y) (d * c)
  | x, y => if x.isZero || y.isZero then .nan else .infinite (x.isNegative != y.isNegative)

end Ladybug.Binary
