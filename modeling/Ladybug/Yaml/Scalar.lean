import Ladybug.Datum.Shown
import Ladybug.Decimal.Arithmetic
import Ladybug.Decimal.Whole
import Ladybug.Text.Base64
import Ladybug.Text.Case
import Ladybug.Yaml.Looks

/-!
# Values of scalars

* `scalarDatum`                       the datum of a scalar whose tag promises one
* `boolOf`, `intOf`, `floatOf`, `bytesOf`   its readings

Numbers may have underscores, and may be given in units of sixty with colons between them.
-/

namespace Ladybug.Yaml
open Ladybug

def boolOf (s : String) : Except Failure Bool :=
  let w := s.map Char.toLower
  if yesWords.contains w then .ok true
  else if noWords.contains w then .ok false
  else .error .unknownWord

/-! ### whole numbers -/

def withoutLines (s : String) : List Char := s.toList.filter (· != '_')

/-- the most characters of a text that is shown as no whole number -/
def mostShown : Nat := 200

/-- what is said of a text that is no whole number in a base -/
def noNumber (base : Nat) (cs : List Char) : Failure :=
  .value ("invalid literal for int() with base " ++ toString base ++ ": "
    ++ String.ofList ((Text.quote (String.ofList cs)).toList.take mostShown))

def wholeIn (base : Nat) (cs : List Char) : Except Failure Int :=
  match Decimal.whole base cs with
  | .ok n => .ok n
  | .error .malformed => .error (noNumber base cs)
  | .error (.tooLong digits) => .error (.value (Decimal.tooLongMessage digits))

/-- parts in units of sixty -/
def sixties (parts : List Int) : Int := parts.foldl (fun n p => 60 * n + p) 0

/-- A number without its sign; its beginning tells the base. -/
def unsignedInt (cs : List Char) : Except Failure Int :=
  match cs with
  | [] => .error .noDigits
  | ['0'] => .ok 0
  | '0' :: 'b' :: ds => wholeIn 2 ds
  | '0' :: 'x' :: ds => wholeIn 16 ds
  | '0' :: _ => wholeIn 8 cs
  | _ =>
    if cs.contains ':' then ((cs.splitOn ':').mapM (wholeIn 10)).map sixties else wholeIn 10 cs

def intOf (s : String) : Except Failure Int :=
  let cs := withoutLines s
  (unsignedInt (unsigned cs)).map fun n => if cs.head? == some '-' then -n else n

/-! ### numbers with a point -/

def numberIn (cs : List Char) : Except Failure Binary :=
  match Decimal.number? (String.ofList cs) with
  | some x => .ok x
  | none =>
    .error (.value ("could not convert string to float: " ++ Text.quote (String.ofList cs)))

/-- The sum of parts, the last one first, each counting sixty times as much as the one before. -/
def sixtiesFrom (unit : Nat) (sum : Binary) : List Binary → Except Failure Binary
  | [] => .ok sum
  | x :: xs =>
    let weight := Binary.ofInt unit
    if weight.isInfinite then .error .tooLarge
    else sixtiesFrom (60 * unit) (sum.add (x.mul weight)) xs

def unsignedFloat (cs : List Char) : Except Failure Binary :=
  if cs == ".inf".toList then .ok (.infinite false)
  else if cs == ".nan".toList then .ok .nan
  else if cs.contains ':' then do
    let parts ← (cs.splitOn ':').mapM numberIn
    sixtiesFrom 1 .zero parts.reverse
  else numberIn cs

def floatOf (s : String) : Except Failure Binary :=
  let cs := (Text.lower (String.ofList (withoutLines s))).toList
  if cs.isEmpty then .error .noDigits
  else (unsignedFloat (unsigned cs)).map fun x =>
    if cs.head? == some '-' then Decimal.negate x else x

/-! ### bytes -/

def bytesOf (s : String) : Except Failure (List UInt8) :=
  if !s.toList.all fun c => c.toNat < 0x80 then .error .malformed
  else (Text.decode64? s.toList).elim (.error .malformed) .ok

/-! ### all scalars -/

def scalarTags : List String :=
  ["str", "null", "bool", "int", "float", "binary", "timestamp"].map core

/-- The datum of a text under one of the tags for scalars. -/
def scalarDatum (tag text : String) : Except Failure Datum :=
  if tag == core "str" then .ok (.text text)
  else if tag == core "null" then .ok .null
  else if tag == core "bool" then (boolOf text).map .bool
  else if tag == core "int" then (intOf text).map .int
  else if tag == core "float" then (floatOf text).map .float
  else if tag == core "binary" then (bytesOf text).map .bytes
  else if tag == core "timestamp" then dateOf text
  else .error .malformed

end Ladybug.Yaml
