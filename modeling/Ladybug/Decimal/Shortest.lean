import Ladybug.Decimal.Binary

/-!
# Decimal text of binary numbers

* `shortest`     the fewest digits that read back, and of those the nearest ones
* `Style`        the decisions of a text form: where positional notation ends, how exponents look
* `Style.show`   a number in a text form
* `oneDecimal`   a number with one decimal, ties going to the even digit
-/

namespace Ladybug.Decimal
open Ladybug

/-- `digits * 10 ^ (point - number of digits)`, that is `0.digits * 10 ^ point` -/
structure Digits where
  digits : List Char
  point : Int
deriving Repr, DecidableEq

/-- Numbers between `low / unit` and `high / unit`; the ends belong to it if `closed`. -/
structure Interval where
  low : Nat
  high : Nat
  unit : Nat
  closed : Bool

def Interval.contains (i : Interval) (n d : Nat) : Bool :=
  let l := i.low * d
  let h := i.high * d
  let x := n * i.unit
  if i.closed then l ≤ x && x ≤ h else l < x && x < h

/-- The reals that round to `significand * 2 ^ exponent`, in quarters of a unit. -/
def rounding (significand : Nat) (exponent : Int) : Interval :=
  let low := if significand == Nat.pow 2 52 && -1074 < exponent then 4 * significand - 1
    else 4 * significand - 2
  let (l, d) := Binary.ratio low (exponent - 2)
  let (h, _) := Binary.ratio (4 * significand + 2) (exponent - 2)
  ⟨l, h, d, significand % 2 == 0⟩

/-- The place of the point in `n / d`: the number of digits before it, or minus the number of
zeros after it. -/
def pointOf (n d : Nat) : Int :=
  Int.ofNat (Nat.toDigits 10 (n * Nat.pow 10 400 / d)).length - 400

/-- The grid of decimals with `places` digits after the point, a negative count meaning tens:
`(n / d)` is `x / y` grid steps, and a step is `s / t`. -/
def onGrid (n d : Nat) (places : Int) : (Nat × Nat) × (Nat × Nat) :=
  if 0 ≤ places then ((n * Nat.pow 10 places.toNat, d), (1, Nat.pow 10 places.toNat))
  else ((n, d * Nat.pow 10 (-places).toNat), (Nat.pow 10 (-places).toNat, 1))

/-- The nearer of the two neighbours of `n / d` on a grid that lie in the interval; of two equally
near ones the even one. -/
def neighbour? (i : Interval) (n d : Nat) (places : Int) : Option Nat :=
  let ((x, y), (s, t)) := onGrid n d places
  let q := x / y
  let lower := i.contains (q * s) t
  let upper := i.contains ((q + 1) * s) t
  match lower, upper with
  | true, true => some (roundDiv x y)
  | true, false => some q
  | false, true => some (q + 1)
  | false, false => none

/-- The first grid of 1, 2, … digits with a hit. -/
def search (i : Interval) (n d : Nat) (point : Int) : (left : Nat) → (count : Nat) → Digits
  | 0, count => ⟨Nat.toDigits 10 (roundDiv (onGrid n d (count - point)).1.1
      (onGrid n d (count - point)).1.2), point⟩
  | left + 1, count =>
    match neighbour? i n d (Int.ofNat count - point) with
    | some k => ⟨Nat.toDigits 10 k, point + ((Nat.toDigits 10 k).length - Int.ofNat count)⟩
    | none => search i n d point left (count + 1)

def dropZeros (cs : List Char) : List Char :=
  match (cs.reverse.dropWhile (· == '0')).reverse with
  | [] => ['0']
  | ds => ds

/-- The fewest digits that read back as the number, and the nearest of those. -/
def shortest (significand : Nat) (exponent : Int) : Digits :=
  if significand = 0 then ⟨['0'], 1⟩
  else
    let (n, d) := Binary.ratio significand exponent
    let r := search (rounding significand exponent) n d (pointOf n d) 17 1
    { r with digits := dropZeros r.digits }

/-- How a number is written. -/
structure Style where
  /-- the least and the greatest exponent written positionally -/
  least : Int
  greatest : Int
  /-- the least number of digits of an exponent -/
  exponentDigits : Nat
  infinite : String
  minusInfinite : String
  nan : String

def Style.exponent (s : Style) (e : Int) : List Char :=
  let ds := Nat.toDigits 10 e.natAbs
  'e' :: (if e < 0 then '-' else '+') :: List.replicate (s.exponentDigits - ds.length) '0' ++ ds

/-- digits with the point in its place, and at least one digit on either side of it -/
def positional (r : Digits) : List Char :=
  let n := r.digits.length
  if r.point ≤ 0 then '0' :: '.' :: List.replicate (-r.point).toNat '0' ++ r.digits
  else if Int.ofNat n ≤ r.point then
    r.digits ++ List.replicate (r.point.toNat - n) '0' ++ ['.', '0']
  else r.digits.take r.point.toNat ++ '.' :: r.digits.drop r.point.toNat

def Style.write (s : Style) (r : Digits) : List Char :=
  let e := r.point - 1
  if s.least ≤ e && e ≤ s.greatest then positional r
  else match r.digits with
    | d :: ds@(_ :: _) => d :: '.' :: ds ++ s.exponent e
    | ds => ds ++ s.exponent e

def Style.show (s : Style) : Binary → String
  | .finite negative m e =>
    let cs := s.write (shortest m e)
    String.ofList (if negative then '-' :: cs else cs)
  | .infinite negative => if negative then s.minusInfinite else s.infinite
  | .nan => s.nan

/-- numbers in a saved program: `0.00001`, `1e-6`, `1e+16`, no infinities -/
def saved : Style := ⟨-5, 15, 1, "null", "null", "null"⟩

/-- numbers in messages: `0.0001`, `1e-05`, `1e+16` -/
def plain : Style := ⟨-4, 15, 2, "inf", "-inf", "nan"⟩

/-- One digit after the point, a tie going to the even digit. -/
def oneDecimal : Binary → String
  | .finite negative m e =>
    let (n, d) := Binary.ratio m e
    let tenths := roundDiv (10 * n) d
    (if negative then "-" else "") ++ toString (tenths / 10) ++ "." ++ toString (tenths % 10)
  | .infinite negative => if negative then "-inf" else "inf"
  | .nan => "nan"

end Ladybug.Decimal
