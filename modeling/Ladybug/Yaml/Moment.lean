import Ladybug.Instant.Read
import Ladybug.Datum.Shown
import Ladybug.Yaml.Node

/-!
# Dates and instants of YAML

* `Moment`      the parts of a date, and of a time of day if there is one
* `momentOf?`   the parts that a text writes
* `dateOf`      the date or the instant of a text

A line end at the end of a text does not count.
-/

namespace Ladybug.Yaml
open Ladybug

/-- the text without one line end at its end -/
def withoutLineEnd (cs : List Char) : List Char :=
  if cs.getLast? == some '\n' then cs.dropLast else cs

def isDigit (c : Char) : Bool := '0' ≤ c && c ≤ '9'

/-- The offset is in minutes. -/
structure TimeOfDay where
  hour : Nat
  minute : Nat
  second : Nat
  micro : Nat
  offset : Option Int
deriving DecidableEq, Repr

structure Moment where
  year : Nat
  month : Nat
  day : Nat
  time : Option TimeOfDay
deriving DecidableEq, Repr

/-- One digit or two. -/
def oneOrTwo? (cs : List Char) : Option (Nat × List Char) :=
  match Instant.digits? 2 cs with
  | some r => some r
  | none => Instant.digits? 1 cs

/-- Minutes after a colon, to the end of the text; none count as zero. -/
def offsetMinutes? : List Char → Option Nat
  | [] => some 0
  | ':' :: cs => do
    let (minutes, cs) ← Instant.digits? 2 cs
    if cs.isEmpty then some minutes else none
  | _ => none

/-- an offset at the end of a time, to the end of the text -/
def offsetOf? (cs : List Char) : Option (Option Int) :=
  match cs.dropWhile isBlank with
  | [] => if cs.isEmpty then some none else none
  | ['Z'] => some (some 0)
  | c :: cs => do
    let sign : Int ← if c == '+' then some 1 else if c == '-' then some (-1) else none
    let (hours, cs) ← oneOrTwo? cs
    let minutes ← offsetMinutes? cs
    some (some (sign * Int.ofNat (60 * hours + minutes)))

/-- Digits after a point as millionths; those after the sixth do not count. -/
def microsOf (ds : List Char) : Nat :=
  Text.digitsValue (ds.take 6) * Nat.pow 10 (6 - ds.length)

/-- a time of day to the end of the text -/
def timeOf? (cs : List Char) : Option TimeOfDay := do
  let cs ← match cs with
    | [] => none
    | c :: rest =>
      if c == 'T' || c == 't' then some rest
      else if isBlank c then some (rest.dropWhile isBlank)
      else none
  let (hour, cs) ← oneOrTwo? cs
  let cs ← Instant.after? [':'] cs
  let (minute, cs) ← Instant.digits? 2 cs
  let cs ← Instant.after? [':'] cs
  let (second, cs) ← Instant.digits? 2 cs
  let (fraction, cs) := match cs with
    | '.' :: cs => (cs.takeWhile isDigit, cs.dropWhile isDigit)
    | cs => ([], cs)
  let offset ← offsetOf? cs
  some { hour, minute, second, micro := microsOf fraction, offset }

/-- A date, and perhaps a time of day. -/
def momentOf? (cs : List Char) : Option Moment := do
  let (year, cs) ← Instant.digits? 4 cs
  let cs ← Instant.after? ['-'] cs
  let (month, cs) ← oneOrTwo? cs
  let cs ← Instant.after? ['-'] cs
  let (day, cs) ← oneOrTwo? cs
  if cs.isEmpty then some ⟨year, month, day, none⟩
  else some ⟨year, month, day, some (← timeOf? cs)⟩

/-- A date without a time of day has two digits for the month and for the day. -/
def isMoment (cs : List Char) : Bool :=
  match momentOf? cs with
  | some m => m.time.isSome || cs.length == 10
  | none => false

/-! ### values -/

/-- an offset of a day or more -/
def wideOffset? (t : TimeOfDay) : Option String :=
  t.offset.bind fun m =>
    if m.natAbs < 24 * 60 then none
    else some ("offset must be a timedelta strictly between -timedelta(hours=24) and "
      ++ "timedelta(hours=24), not " ++ Datum.spanText (60 * m) ++ ".")

def TimeOfDay.flaw? (t : TimeOfDay) : Option String :=
  if 23 < t.hour then some "hour must be in 0..23"
  else if 59 < t.minute then some "minute must be in 0..59"
  else if 59 < t.second then some "second must be in 0..59"
  else none

/-- Why the parts of a date make none. -/
def Moment.flaw? (m : Moment) : Option String :=
  if m.year = 0 then some "year 0 is out of range"
  else if m.month < 1 || 12 < m.month then some "month must be in 1..12"
  else if m.day < 1 || Date.daysIn m.year m.month < m.day then some "day is out of range for month"
  else none

/-- The first flaw of a moment: its offset counts before its date, its time of day after it. -/
def Moment.anyFlaw? (m : Moment) : Option String :=
  m.time.bind wideOffset? <|> m.flaw? <|> m.time.bind TimeOfDay.flaw?

def Moment.datum (m : Moment) : Datum :=
  let date : Date := ⟨m.year, m.month, m.day⟩
  match m.time with
  | none => .date date
  | some t =>
    .instant
      { date, hour := t.hour, minute := t.minute, second := t.second, micro := t.micro,
        offset := t.offset }

def dateOf (s : String) : Except Failure Datum :=
  match momentOf? (withoutLineEnd s.toList) with
  | none => .error .noDate
  | some m => m.anyFlaw?.elim (.ok m.datum) fun why => .error (.value why)

end Ladybug.Yaml
