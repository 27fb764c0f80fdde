import Ladybug.Instant.Basic
import Ladybug.Word

/-!
# Reading dates and instants

* `Instant.Flaw`      why a text is no date
* `Instant.leading`   a date at the start of a text
* `Instant.dated?`    a date, a time of day, and perhaps an offset
* `Instant.counted`   the instant of a number of seconds or milliseconds
-/

namespace Ladybug.Instant

inductive Flaw where
  | tooShort
  | more
  | year
  | month
  | day
  | separator
  | monthRange
  | dayRange
  | tooEarly
  | tooLate
  | yearZero
  | notANumber
deriving DecidableEq, Repr

def Flaw.message : Flaw → String
  | .tooShort => "input is too short"
  | .more => "unexpected extra characters at the end of the input"
  | .year => "invalid character in year"
  | .month => "invalid character in month"
  | .day => "invalid character in day"
  | .separator => "invalid date separator, expected \x60-\x60"
  | .monthRange => "month value is outside expected range of 1-12"
  | .dayRange => "day value is outside expected range"
  | .tooEarly => "dates before 0000 are not supported as unix timestamps"
  | .tooLate => "dates after 9999 are not supported as unix timestamps"
  | .yearZero => "year 0 is out of range"
  | .notANumber => "NaN values not permitted"

def isDigit (c : Char) : Bool := '0' ≤ c && c ≤ '9'

/-- A number of just so many digits, and the text after it. -/
def digits? (count : Nat) (cs : List Char) : Option (Nat × List Char) :=
  let ds := cs.take count
  if ds.length = count && ds.all isDigit then some (Text.digitsValue ds, cs.drop count) else none

/-- the text after one of some characters -/
def after? (allowed : List Char) : List Char → Option (List Char)
  | c :: cs => if allowed.contains c then some cs else none
  | [] => none

/-! ### dates -/

/-- a reading with the reason for its failure -/
def expect {α : Type} (flaw : Flaw) : Option α → Except Flaw α
  | some a => .ok a
  | none => .error flaw

/-- A date, and the text after it. -/
def leading (s : List Char) : Except Flaw (Date × List Char) := do
  if (String.ofList s).utf8ByteSize < 10 then .error .tooShort
  let (year, s) ← expect .year (digits? 4 s)
  let s ← expect .separator (after? ['-'] s)
  let (month, s) ← expect .month (digits? 2 s)
  let s ← expect .separator (after? ['-'] s)
  let (day, s) ← expect .day (digits? 2 s)
  if month < 1 || 12 < month then .error .monthRange
  else if day < 1 || Date.daysIn year month < day then .error .dayRange
  else return (⟨year, month, day⟩, s)

/-- a date and nothing more -/
def dateOnly (s : List Char) : Except Flaw Date := do
  let (d, rest) ← leading s
  if rest.isEmpty then return d else .error .more

/-! ### times of day -/

/-- digits after a point, as millionths; those after the sixth do not count -/
def micros? (s : List Char) : Option (Nat × List Char) :=
  let ds := s.takeWhile isDigit
  if ds.isEmpty then none
  else some (Text.digitsValue (ds.take 6) * Nat.pow 10 (6 - ds.length), s.dropWhile isDigit)

/-- seconds with a fraction, if the text goes on with a colon -/
def seconds? (s : List Char) : Option (Nat × Nat × List Char) :=
  match s with
  | ':' :: s => do
    let (second, s) ← digits? 2 s
    if 59 < second then none
    match after? ['.', ','] s with
    | none => some (second, 0, s)
    | some s =>
      let (micro, s) ← micros? s
      some (second, micro, s)
  | _ => some (0, 0, s)

/-- the sign of an offset; the minus may be the typographic one -/
def sign? : List Char → Option (Int × List Char)
  | c :: s =>
    if c == '+' then some (1, s) else if c == '-' || c == '\u2212' then some (-1, s) else none
  | [] => none

/-- An offset, to the end of the text: none, zero as a letter, or hours and minutes. -/
def offset? (s : List Char) : Option (Option Int) :=
  match s with
  | [] => some none
  | ['Z'] | ['z'] => some (some 0)
  | _ => do
    let (sign, s) ← sign? s
    let (hours, s) ← digits? 2 s
    let (minutes, s) ← digits? 2 ((after? [':'] s).getD s)
    if 59 < minutes || 23 < hours || !s.isEmpty then none
    else some (some (sign * (hours * 60 + minutes)))

/-- A date and a time of day. -/
def dated? (s : List Char) : Option Instant := do
  let (date, s) ← (leading s).toOption
  let s ← after? ['T', 't', ' ', '_'] s
  let (hour, s) ← digits? 2 s
  let s ← after? [':'] s
  let (minute, s) ← digits? 2 s
  if 23 < hour || 59 < minute then none
  let (second, micro, s) ← seconds? s
  let offset ← offset? s
  some { date, hour, minute, second, micro, offset }

/-! ### counted times -/

/-- beyond this a number counts milliseconds -/
def secondsLimit : Nat := 20000000000

/-- the beginning of the year 0 and the end of 9999 -/
def firstSecond : Int := -62167219200
def lastSecond : Int := 253402300799

/-- Seconds or, if they are very many, milliseconds, and microseconds beside them. -/
def counted (number : Int) (micro : Nat) : Except Flaw Instant :=
  let (seconds, micro) :=
    if number.natAbs ≤ secondsLimit then (number, micro)
    else (number / 1000, micro + (number % 1000).toNat * 1000)
  let seconds := seconds + micro / 1000000
  if seconds < firstSecond then .error .tooEarly
  else if lastSecond < seconds then .error .tooLate
  else .ok (ofSeconds seconds (micro % 1000000))

/-- A number in writing as its floor and millionths; very large whole numbers are none. -/
def number? (s : List Char) : Option (Int × Nat) :=
  let (negative, s) := match s with
    | '-' :: s => (true, s)
    | '+' :: s => (false, s)
    | s => (false, s)
  let whole := s.takeWhile isDigit
  let n := Text.digitsValue whole
  if whole.isEmpty || wordLimit ≤ n then none
  else match s.dropWhile isDigit with
    | [] => some (if negative then -n else n, 0)
    | '.' :: ds =>
      if !ds.all isDigit then none
      else
        -- the number in millionths, and in thousandths of these where it counts milliseconds
        let unit := Nat.pow 10 ds.length
        let millionths := (n * unit + Text.digitsValue ds) * 1000000
        let divisor := if n < secondsLimit then unit else 1000 * unit
        let m := Int.ofNat ((2 * millionths + divisor) / (2 * divisor))
        let m := if negative then -m else m
        some (m / 1000000, (m % 1000000).toNat)
    | _ => none

end Ladybug.Instant
