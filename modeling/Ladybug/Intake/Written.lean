import Ladybug.Decimal.Read
import Ladybug.Text.Blank

/-!
# Numbers in writing, as data hold them

* `writtenInt`      the whole number that a text writes: a sign, digits, single underscores among
                    them, perhaps a point and zeros, blanks around it all
* `writtenFloat?`   the number that a text writes
* `IntFlaw`         why a text writes no whole number
-/

namespace Ladybug.Intake
open Ladybug

inductive IntFlaw where
  | malformed
  | tooLong
deriving DecidableEq, Repr

/-- the most characters of a whole number, its minus sign among them -/
def mostIntChars : Nat := 4300

/-- A minus perhaps, and digits, the first of which is no zero unless it is the only one. A number
that is too long is reported as such even if something else comes after it. -/
def plainInt (cs : List Char) : Except IntFlaw Int :=
  let (negative, cs) := match cs with
    | '-' :: cs => (true, cs)
    | cs => (false, cs)
  let ds := cs.takeWhile Decimal.isDigit
  let signed := if negative then ds.length + 1 else ds.length
  if ds.head? == some '0' then (if cs == ['0'] then .ok 0 else .error .malformed)
  else if mostIntChars < signed then .error .tooLong
  else if ds.isEmpty || ds.length != cs.length then .error .malformed
  else
    let n := Int.ofNat (Text.digitsValue ds)
    .ok (if negative then -n else n)

/-- The text without its underscores, none of which stands at an end or beside another one. -/
def dropUnderscores (cs : List Char) : Option (List Char) :=
  let rec go : (last : Char) → List Char → Option (List Char)
    | last, [] => if last == '_' then none else some []
    | last, c :: cs =>
      if c == '_' then (if last == '_' then none else go c cs)
      else (go c cs).map (c :: ·)
  go '_' cs

/-- Zeros and underscores in front of a number are dropped; one zero stays before a point or at
the end. A minus may come after them. -/
def dropLeadingZeros (cs : List Char) : Option (List Char) :=
  match cs with
  | '0' :: rest =>
    match rest.dropWhile fun c => c == '0' || c == '_' with
    | [] => some [(rest.getLast?).getD '0']
    | '.' :: more =>
      let last := ((rest.takeWhile fun c => c == '0' || c == '_').getLast?).getD '0'
      some (last :: '.' :: more)
    | c :: more => if ('1' ≤ c && c ≤ '9') || c == '-' then some (c :: more) else none
  | c :: _ => if '1' ≤ c && c ≤ '9' then some cs else none
  | [] => none

/-- A point with zeros and nothing else after it is dropped. -/
def dropZeroDecimals (cs : List Char) : List Char :=
  match cs.dropWhile (· != '.') with
  | '.' :: ds => if !ds.isEmpty && ds.all (· == '0') then cs.takeWhile (· != '.') else cs
  | _ => cs

/-- A number with everything dropped that does not count. -/
def cleanInt? (cs : List Char) : Option (List Char) := do
  let cs ← match Text.trim Text.isSpace cs with
    | '+' :: '-' :: _ => none
    | '+' :: cs => some cs
    | cs => some cs
  let (sign, cs) := match cs with
    | '-' :: cs => (['-'], cs)
    | cs => ([], cs)
  let cs ← dropUnderscores (dropZeroDecimals (← dropLeadingZeros cs))
  some (sign ++ cs)

def writtenInt (cs : List Char) : Except IntFlaw Int :=
  match plainInt cs with
  | .error .malformed => ((cleanInt? cs).map plainInt).getD (.error .malformed)
  | r => r

/-- Blanks around a number are allowed, or else single underscores in it. -/
def writtenFloat? (cs : List Char) : Option Binary :=
  match Decimal.signedDecimal? (Text.trim Text.isSpace cs) with
  | some x => some x
  | none =>
    if cs.contains '_' then (dropUnderscores cs).bind Decimal.signedDecimal? else none

end Ladybug.Intake
