import Ladybug.Decimal.Binary
import Ladybug.Text.Blank
import Ladybug.Text.Digit

/-!
# Reading decimal numbers

* `signedDecimal?`   digits, a point, a power of ten, or the name of a special number
* `number?`          the same with blanks around it, single underscores between digits, and the
                     digits of any script
-/

namespace Ladybug.Decimal
open Ladybug

def isDigit (c : Char) : Bool := '0' ≤ c && c ≤ '9'

/-- the names of the numbers that have no digits -/
def specialNumbers : List (String × Binary) :=
  [("inf", .infinite false), ("infinity", .infinite false), ("nan", .nan)]

def negate : Binary → Binary
  | .finite n m e => .finite (!n) m e
  | .infinite n => .infinite (!n)
  | .nan => .nan

/-- Digits with or without a point, and a power of ten, without a sign. -/
def decimal? (negative : Bool) (cs : List Char) : Option Binary := do
  let whole := cs.takeWhile isDigit
  let rest := cs.dropWhile isDigit
  let (decimals, rest) := match rest with
    | '.' :: rest => (rest.takeWhile isDigit, rest.dropWhile isDigit)
    | _ => ([], rest)
  if whole.isEmpty && decimals.isEmpty then none
  let digits := Text.digitsValue (whole ++ decimals)
  let scale : Int := -decimals.length
  match rest with
  | [] => some (.ofDecimal negative digits scale)
  | e :: rest =>
    if e != 'e' && e != 'E' then none
    let (minus, ds) := match rest with
      | '+' :: ds => (false, ds)
      | '-' :: ds => (true, ds)
      | ds => (false, ds)
    if ds.isEmpty || !ds.all isDigit then none
    let n := Int.ofNat (Text.digitsValue ds)
    some (.ofDecimal negative digits (scale + if minus then -n else n))

/-- A number with a sign perhaps, or one of the special ones in any case. -/
def signedDecimal? (cs : List Char) : Option Binary :=
  let (negative, cs) := match cs with
    | '+' :: cs => (false, cs)
    | '-' :: cs => (true, cs)
    | cs => (false, cs)
  match specialNumbers.find? fun w => w.1.toList == cs.map Char.toLower with
  | some (_, x) => some (if negative then negate x else x)
  | none => decimal? negative cs

/-- the text without its underscores, if each of them stands between two digits -/
def joinDigits? : (last : Char) → List Char → Option (List Char)
  | last, [] => if last == '_' then none else some []
  | last, c :: cs =>
    if c == '_' then (if isDigit last then joinDigits? c cs else none)
    else if last == '_' && !isDigit c then none
    else (joinDigits? c cs).map (c :: ·)

/-- a digit of any script as the digit with the same value -/
def asciiDigit (c : Char) : Char :=
  match Text.digitValue? c with
  | some n => Char.ofNat ('0'.toNat + n)
  | none => c

def number? (s : String) : Option Binary := do
  let cs ← joinDigits? ' ' ((Text.trim Text.isSpace s.toList).map asciiDigit)
  signedDecimal? cs

end Ladybug.Decimal
