import Ladybug.Datum
import Ladybug.Decimal.Shortest
import Ladybug.Decimal.Whole
import Ladybug.Text.Quoted

/-!
# Data as messages show them

* `Datum.inner`   the text of a datum inside another one
* `Datum.shown`   the text of a datum on its own
-/

namespace Ladybug.Datum
open Ladybug

/-! ### bytes, dates and instants -/

/-- one byte between the quotes `q` -/
def byteChars (q : Char) (b : UInt8) : List Char :=
  let c := Char.ofNat b.toNat
  if 0x7F ≤ b.toNat then '\\' :: 'x' :: Text.hexDigits 2 b.toNat else Text.quoteChar q c

def bytesText (bs : List UInt8) : String :=
  let q := Text.quoteMark (bs.map fun b => Char.ofNat b.toNat)
  String.ofList ('b' :: q :: bs.flatMap (byteChars q) ++ [q])

def numbers (ns : List Nat) : String := String.intercalate ", " (ns.map toString)

def dateText (d : Date) : String :=
  "datetime.date(" ++ numbers [d.year, d.month, d.day] ++ ")"

/-- a length of time in whole days and the seconds beyond them -/
def spanText (seconds : Int) : String :=
  let days := seconds / 86400
  let rest := seconds % 86400
  let parts := (if days = 0 then [] else ["days=" ++ toString days])
    ++ (if rest = 0 then [] else ["seconds=" ++ toString rest])
  "datetime.timedelta(" ++ (if parts.isEmpty then "0" else String.intercalate ", " parts) ++ ")"

def offsetText : Option Int → String
  | none => ""
  | some 0 => ", tzinfo=datetime.timezone.utc"
  | some m => ", tzinfo=datetime.timezone(" ++ spanText (60 * m) ++ ")"

/-- Seconds and microseconds are left out where they are zero. -/
def instantText (i : Instant) : String :=
  let fine := if i.micro != 0 then [i.second, i.micro]
    else if i.second != 0 then [i.second] else []
  "datetime.datetime("
    ++ numbers ([i.date.year, i.date.month, i.date.day, i.hour, i.minute] ++ fine)
    ++ offsetText i.offset ++ ")"

/-! ### collections -/

/-- what stands for a collection inside itself -/
def ellipsis : Datum → String
  | .map _ | .table _ => "\x7b...\x7d"
  | _ => "[...]"

def inBrackets (parts : List String) : String := "[" ++ String.intercalate ", " parts ++ "]"

def inBraces (parts : List String) : String := "\x7b" ++ String.intercalate ", " parts ++ "\x7d"

mutual

/-- The text of a datum inside the knots `around`, texts in quotes. -/
def within (around : List (Nat × String)) : Datum → String
  | .null => "None"
  | .bool b => if b then "True" else "False"
  | .int i => toString i
  | .float x => Decimal.plain.show x
  | .text s => Text.quote s
  | .bytes bs => bytesText bs
  | .date d => dateText d
  | .instant i => instantText i
  | .list items => inBrackets (withinAll around items)
  | .pair a b => "(" ++ a.within around ++ ", " ++ b.within around ++ ")"
  | .set members =>
    if members.isEmpty then "set()" else inBraces (withinAll around members)
  | .map entries => inBraces (withinNamed around entries)
  | .table entries => inBraces (withinTable around entries)
  | .knot n content =>
    match around.find? fun k => k.1 == n with
    | some k => k.2
    | none => content.within ((n, content.ellipsis) :: around)
  | .again n => ((around.find? fun k => k.1 == n).map Prod.snd).getD "[...]"

def withinAll (around : List (Nat × String)) : List Datum → List String
  | [] => []
  | d :: ds => d.within around :: withinAll around ds

def withinNamed (around : List (Nat × String)) : List (String × Datum) → List String
  | [] => []
  | (k, d) :: es => (Text.quote k ++ ": " ++ d.within around) :: withinNamed around es

def withinTable (around : List (Nat × String)) : List (Datum × Datum) → List String
  | [] => []
  | (k, d) :: es => (k.within around ++ ": " ++ d.within around) :: withinTable around es

end

/-- The text of a datum inside another one; texts stand in quotes. -/
def inner (d : Datum) : String := d.within []

/-! ### what cannot be shown -/

mutual

/-- A datum holds an integer with too many digits. -/
def holdsLong : Datum → Bool
  | .int i => Decimal.isLong i
  | .list items | .set items => anyLong items
  | .pair a b => a.holdsLong || b.holdsLong
  | .map entries => anyLongNamed entries
  | .table entries => anyLongTable entries
  | .knot _ content => content.holdsLong
  | _ => false

def anyLong : List Datum → Bool
  | [] => false
  | d :: ds => d.holdsLong || anyLong ds

def anyLongNamed : List (String × Datum) → Bool
  | [] => false
  | (_, d) :: es => d.holdsLong || anyLongNamed es

def anyLongTable : List (Datum × Datum) → Bool
  | [] => false
  | (k, d) :: es => k.holdsLong || d.holdsLong || anyLongTable es

end

/-- The kind of a datum that may hold a long integer. -/
def kindName : Datum → String
  | .list _ => "list"
  | .pair _ _ => "tuple"
  | .set _ => "set"
  | .map _ | .table _ => "dict"
  | .knot _ content => content.kindName
  | _ => "int"

/-- A date and a time of day with a blank between them, and the offset in figures. -/
def instantPlain (i : Instant) : String :=
  let offset := match i.offset with
    | some 0 => "+00:00".toList
    | m => Instant.offsetChars m
  String.ofList <| Instant.dateChars i.date ++ ' ' :: Instant.padded 2 i.hour ++ ':' ::
    Instant.padded 2 i.minute ++ ':' :: Instant.padded 2 i.second ++ Instant.microChars i.micro
    ++ offset

/-- A datum on its own: texts and dates without what marks them as such. -/
def shown (d : Datum) : String :=
  if d.holdsLong then "<unprintable " ++ d.kindName ++ " object>"
  else match d with
    | .text s => s
    | .date d => String.ofList (Instant.dateChars d)
    | .instant i => instantPlain i
    | d => d.inner

end Ladybug.Datum
