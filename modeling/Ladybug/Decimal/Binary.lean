/-!
# Binary floating-point numbers

The numbers of the 64-bit binary format as exact values, so that rounding and printing are
arithmetic on natural numbers.

* `Binary`             `± significand * 2 ^ exponent`, an infinity, or not a number
* `Binary.ofRatio`     the nearest number to a quotient, a tie going to the even significand
* `Binary.ofDecimal`   the nearest number to `± digits * 10 ^ power`
* `Binary.toInt?`      the integer part
-/

namespace Ladybug

/-- A finite number has `significand < 2 ^ 53` and `-1074 ≤ exponent ≤ 971`; unless the exponent is
the least one, `2 ^ 52 ≤ significand`. -/
inductive Binary where
  | finite (negative : Bool) (significand : Nat) (exponent : Int)
  | infinite (negative : Bool)
  | nan
deriving DecidableEq, Repr, Inhabited

/-- The nearest integer to a quotient; of two equally near ones the even one. -/
def roundDiv (n d : Nat) : Nat :=
  let q := n / d
  let r := n % d
  if 2 * r < d then q
  else if d < 2 * r then q + 1
  else q + q % 2

namespace Binary

def zero : Binary := .finite false 0 (-1074)

/-- `n / d` in units of `2 ^ e`, rounded -/
def inUnits (n d : Nat) (e : Int) : Nat :=
  if 0 ≤ e then roundDiv n (d * Nat.pow 2 e.toNat) else roundDiv (n * Nat.pow 2 (-e).toNat) d

/-- a significand of at most 53 bits, or of 54 bits that end in a zero -/
def ofUnits (negative : Bool) (m : Nat) (e : Int) : Binary :=
  let (m, e) := if m = Nat.pow 2 53 then (Nat.pow 2 52, e + 1) else (m, e)
  if 971 < e then .infinite negative else .finite negative m e

/-- The nearest number to `± n / d`. -/
def ofRatio (negative : Bool) (n d : Nat) : Binary :=
  if n = 0 then .finite negative 0 (-1074)
  else
    let e : Int := max (-1074) (Int.ofNat n.log2 - Int.ofNat d.log2 - 53)
    let m := inUnits n d e
    if m < Nat.pow 2 53 then ofUnits negative m e
    else ofUnits negative (inUnits n d (e + 1)) (e + 1)

def ofInt (i : Int) : Binary := ofRatio (i < 0) i.natAbs 1

/-- The nearest number to `± digits * 10 ^ power`. Powers far outside the format's range are
settled by their size alone. -/
def ofDecimal (negative : Bool) (digits : Nat) (power : Int) : Binary :=
  let size := Int.ofNat (digits.log2 * 3 / 10) + power
  if digits = 0 then .finite negative 0 (-1074)
  else if 400 < size then .infinite negative
  else if size < -(400 + Int.ofNat (digits.log2 / 10)) then .finite negative 0 (-1074)
  else if 0 ≤ power then ofRatio negative (digits * Nat.pow 10 power.toNat) 1
  else ofRatio negative digits (Nat.pow 10 (-power).toNat)

/-- the magnitude of a finite number as a quotient -/
def ratio (significand : Nat) (exponent : Int) : Nat × Nat :=
  if 0 ≤ exponent then (significand * Nat.pow 2 exponent.toNat, 1)
  else (significand, Nat.pow 2 (-exponent).toNat)

/-- The integer part; none for an infinity and for not a number. -/
def toInt? : Binary → Option Int
  | .finite negative m e =>
    let (n, d) := ratio m e
    let i := Int.ofNat (n / d)
    some (if negative then -i else i)
  | _ => none

/-- A finite number without a fractional part. -/
def isIntegral : Binary → Bool
  | .finite _ m e =>
    let (n, d) := ratio m e
    n % d == 0
  | _ => false

def isFinite : Binary → Bool
  | .finite _ _ _ => true
  | _ => false

/-- an infinity for a finite number too large for the format -/
def isInfinite : Binary → Bool
  | .infinite _ => true
  | _ => false

end Binary

end Ladybug
