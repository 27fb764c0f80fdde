import Ladybug.Decimal.Read

/-!
# Reading whole numbers

* `NotWhole`   why a text writes no whole number
* `whole`      the whole number that a text writes in a base

Blanks around the number, a sign, single underscores between digits and the digits of any script are
allowed. A number in base two, eight or sixteen may begin with a zero and the letter of its base. In
base ten the count of digits is limited.
-/

namespace Ladybug.Decimal
open Ladybug

inductive NotWhole where
  | malformed
  | tooLong (digits : Nat)
deriving DecidableEq, Repr

/-- the most digits of a number in base ten -/
def mostDigits : Nat := 4300

def limitText : String :=
  "Exceeds the limit (" ++ toString mostDigits ++ " digits) for integer string conversion"

def limitAdvice : String := "; use sys.set_int_max_str_digits() to increase the limit"

/-- what is said of a text with too many digits -/
def tooLongMessage (digits : Nat) : String :=
  limitText ++ ": value has " ++ toString digits ++ " digits" ++ limitAdvice

/-- An integer has too many digits to be written. -/
def isLong (i : Int) : Bool := Nat.pow 10 mostDigits ≤ i.natAbs

/-- what is said of an integer that cannot be written -/
def unwritable : String := limitText ++ limitAdvice

/-- the value of a digit in a base -/
def digitIn? (base : Nat) (c : Char) : Option Nat :=
  (Text.hexValue? (asciiDigit c)).filter (· < base)

/-- the letter of a base -/
def baseLetter? (base : Nat) : Option Char :=
  if base = 2 then some 'b' else if base = 8 then some 'o' else if base = 16 then some 'x' else none

/-- The text without a zero and the letter of the base, and without one underscore after them. -/
def withoutBase (base : Nat) : List Char → List Char
  | '0' :: c :: cs =>
    if baseLetter? base == some c.toLower then
      (if cs.head? == some '_' then cs.drop 1 else cs)
    else '0' :: c :: cs
  | cs => cs

/-- The text without its underscores, if each of them stands between two other characters. -/
def withoutLines? (cs : List Char) : Option (List Char) :=
  if cs.contains '_' && (cs.splitOn '_').any List.isEmpty then none
  else some (cs.filter (· != '_'))

/-- The number that stands at the beginning of a text without a sign; only blanks may follow it. -/
def magnitude (base : Nat) (cs : List Char) : Except NotWhole Nat :=
  let isPart (c : Char) : Bool := c == '_' || (digitIn? base c).isSome
  match withoutLines? (cs.takeWhile isPart) with
  | none => .error .malformed
  | some ds =>
    if base = 10 && mostDigits < ds.length then .error (.tooLong ds.length)
    else if ds.isEmpty || !(cs.dropWhile isPart).all Text.isSpace then .error .malformed
    else .ok (ds.foldl (fun n c => base * n + (digitIn? base c).getD 0) 0)

def whole (base : Nat) (s : List Char) : Except NotWhole Int :=
  match s.dropWhile Text.isSpace with
  | '-' :: cs => (magnitude base (withoutBase base cs)).map fun n => -Int.ofNat n
  | '+' :: cs => (magnitude base (withoutBase base cs)).map Int.ofNat
  | cs => (magnitude base (withoutBase base cs)).map Int.ofNat

end Ladybug.Decimal
