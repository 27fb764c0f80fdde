import Ladybug.Text.Digit

/-!
# Instants: dates and times of day

* `Date`              a day of the calendar
* `Date.ofNumber`     the day that lies a number of days after 1 January 1970
* `Date.number`       that number for a day
* `Instant`           a date and a time of day, to the microsecond, with its offset if it has one
* `Instant.ofSeconds` the instant that lies some seconds after the beginning of 1970
* `Instant.text`      an instant in writing
-/

namespace Ladybug

structure Date where
  year : Nat
  month : Nat
  day : Nat
deriving DecidableEq, Repr

namespace Date

def isLeap (year : Nat) : Bool := year % 4 == 0 && (year % 100 != 0 || year % 400 == 0)

/-- the days of a month, none for a month that is not one -/
def daysIn (year month : Nat) : Nat :=
  match month with
  | 1 | 3 | 5 | 7 | 8 | 10 | 12 => 31
  | 4 | 6 | 9 | 11 => 30
  | 2 => if isLeap year then 29 else 28
  | _ => 0

structure Valid (d : Date) : Prop where
  month_pos : 1 ≤ d.month
  month_le : d.month ≤ 12
  day_pos : 1 ≤ d.day
  day_le : d.day ≤ daysIn d.year d.month

/-- Counted in years that begin in March, so that a leap day is the last one of its year, and in
periods of 400 such years, which have equally many days. -/
def ofNumber (n : Int) : Date :=
  let n := n + 719468
  let period := n / 146097
  let day := (n % 146097).toNat
  let year := (day - day / 1460 + day / 36524 - day / 146096) / 365
  let dayOfYear := day - (365 * year + year / 4 - year / 100)
  let month := (5 * dayOfYear + 2) / 153
  { year := (period * 400 + year + (if month < 10 then 0 else 1)).toNat
    month := if month < 10 then month + 3 else month - 9
    day := dayOfYear - (153 * month + 2) / 5 + 1 }

/-- The number of days that lie between 1 January 1970 and a day, with years counted as in
`ofNumber`. -/
def number (d : Date) : Int :=
  let year := Int.ofNat d.year - (if d.month < 3 then 1 else 0)
  let month := (d.month + 9) % 12
  365 * year + year / 4 - year / 100 + year / 400 + Int.ofNat ((153 * month + 2) / 5 + d.day - 1)
    - 719468

end Date

/-- The offset is in minutes, eastwards. -/
structure Instant where
  date : Date
  hour : Nat := 0
  minute : Nat := 0
  second : Nat := 0
  micro : Nat := 0
  offset : Option Int := none
deriving DecidableEq, Repr

namespace Instant

/-- Some microseconds after some seconds after the beginning of 1970, at offset zero. -/
def ofSeconds (seconds : Int) (micro : Nat) : Instant :=
  let seconds := seconds + micro / 1000000
  let time := (seconds % 86400).toNat
  { date := Date.ofNumber (seconds / 86400)
    hour := time / 3600
    minute := time / 60 % 60
    second := time % 60
    micro := micro % 1000000
    offset := some 0 }

/-- The minute of an instant with an offset, counted at offset zero. -/
def minutes? (i : Instant) : Option Int :=
  i.offset.map fun m => i.date.number * 1440 + Int.ofNat (i.hour * 60 + i.minute) - m

/-- Two instants are the same time: with offsets wherever on earth, without them in all parts. -/
def isSame (i j : Instant) : Bool :=
  match i.minutes?, j.minutes? with
  | some m, some n => m == n && i.second == j.second && i.micro == j.micro
  | none, none => i == j
  | _, _ => false

/-! ### writing -/

/-- the last `width` digits of a number -/
def padded : Nat → Nat → List Char
  | 0, _ => []
  | width + 1, n => padded width (n / 10) ++ [Char.ofNat ('0'.toNat + n % 10)]

def dateChars (d : Date) : List Char :=
  padded 4 d.year ++ '-' :: padded 2 d.month ++ '-' :: padded 2 d.day

/-- `Z` for offset zero -/
def offsetChars : Option Int → List Char
  | none => []
  | some 0 => ['Z']
  | some m =>
    (if m < 0 then '-' else '+') :: padded 2 (m.natAbs / 60) ++ ':' :: padded 2 (m.natAbs % 60)

/-- Microseconds are written only where there are some. -/
def microChars (n : Nat) : List Char := if n = 0 then [] else '.' :: padded 6 n

def text (i : Instant) : String :=
  String.ofList <| dateChars i.date ++ 'T' :: padded 2 i.hour ++ ':' :: padded 2 i.minute ++
    ':' :: padded 2 i.second ++ microChars i.micro ++ offsetChars i.offset

end Instant

end Ladybug
