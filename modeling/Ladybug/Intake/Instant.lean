import Ladybug.Instant.Read
import Ladybug.Intake.Basic

/-!
# Intake of instants

`Intake.instant` takes a text with a date and a time, a date alone, which means its beginning, or a
number of seconds since 1970. A text that is none of these is reported as no date.
-/

namespace Ladybug.Intake
open Ladybug

def notInstant : String := "Input should be a valid datetime"

def counted (number : Int) (micro : Nat) : Intake Instant :=
  match Instant.counted number micro with
  | .ok i => .ok i
  | .error f => fail (notInstant ++ ", " ++ f.message)

/-- no instant lies in the year before the first -/
def inCalendar (i : Instant) : Intake Instant :=
  if i.date.year = 0 then fail (notInstant ++ ", " ++ Instant.Flaw.yearZero.message) else .ok i

def writtenInstant (s : List Char) : Intake Instant :=
  let asDate (r : Except Instant.Flaw Instant) : Intake Instant :=
    match r with
    | .ok i => .ok i
    | .error f => fail (notInstant ++ " or date, " ++ f.message)
  match Instant.dated? s with
  | some i => .ok i
  | none => asDate <| match Instant.number? s with
    | some (n, micro) => Instant.counted n micro
    | none => (Instant.dateOnly s).map fun date => { date }

/-- The floor of a number and the size of its fraction in millionths. -/
def floorAndMicros (negative : Bool) (significand : Nat) (exponent : Int) : Int × Nat :=
  let (n, d) := Binary.ratio significand exponent
  let floor := if negative then -Int.ofNat ((n + d - 1) / d) else Int.ofNat (n / d)
  (floor, (2 * (n % d) * 1000000 + d) / (2 * d))

/-- a number too large for a word counts as the largest one -/
def clamp (i : Int) : Int := max (-wordLimit) (min (wordLimit - 1) i)

def instant (d : Datum) : Intake Instant := do
  let i ← match d with
    | .text s => (Text.plain? s.toList).elim (fail notUnicode) writtenInstant
    | .int n => counted (clamp n) 0
    | .float (.finite negative m e) =>
      let (n, micro) := floorAndMicros negative m e
      counted (clamp n) micro
    | .float (.infinite negative) => counted (if negative then -wordLimit else wordLimit - 1) 0
    | .float .nan => fail (notInstant ++ ", " ++ Instant.Flaw.notANumber.message)
    | _ => fail notInstant
  inCalendar i

end Ladybug.Intake
