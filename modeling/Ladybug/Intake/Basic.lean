import Ladybug.Datum
import Ladybug.Intake.Written
import Ladybug.Text.Bytes
import Ladybug.Text.Half
import Ladybug.Word

/-!
# Intake: data checked on the way in

A document may hold anything. What is taken from it is read by type, a few obvious conversions are
made, and the first thing that does not fit is reported with its place.

* `Issue`                    a place and what is wrong there
* `Intake`                   a value or an issue
* `Intake.int`, `Intake.float`, `Intake.bool`, `Intake.text`   the scalars
* `Intake.list`, `Intake.record`, `Intake.field`               lists and records
-/

namespace Ladybug

/-- The path holds the names and indices that lead to the place. -/
structure Issue where
  path : List String
  message : String
deriving DecidableEq, Repr

namespace Issue

def place (i : Issue) : String := String.intercalate "." i.path

def text (i : Issue) : String := i.place ++ ": " ++ i.message

/-- the issue as part of a longer message, without a place if that is the whole document -/
def textIn (i : Issue) : String := if i.place.isEmpty then i.message else i.text

end Issue

abbrev Intake (α : Type) := Except Issue α

namespace Intake

def fail {α : Type} (message : String) : Intake α := .error ⟨[], message⟩

/-- The same reading, one step further down. -/
def under {α : Type} (step : String) : Intake α → Intake α
  | .ok a => .ok a
  | .error i => .error { i with path := step :: i.path }

/-! ### texts and what they write -/

def notUnicode : String :=
  "Input should be a valid string, unable to parse raw data as a unicode string"

/-- The characters that a datum writes, if it is a text or bytes: no halves, and bytes only if they
are a text. -/
def writing? (notText : String) : Datum → Option (Intake (List Char))
  | .text s => some ((Text.plain? s.toList).elim (fail notUnicode) .ok)
  | .bytes bs => some ((Text.decode? bs).elim (fail notText) .ok)
  | _ => none

/-- What a datum writes, as `read` understands it. -/
def written {α : Type} (notWritten flaw : String) (read : List Char → Intake α) (d : Datum) :
    Intake α :=
  match writing? flaw d with
  | none => fail notWritten
  | some (.error i) => .error i
  | some (.ok cs) => read cs

def text : Datum → Intake String
  | .text s => .ok s
  | d =>
    let read (cs : List Char) : Intake String := .ok (String.ofList (Text.taken cs))
    written "Input should be a valid string" notUnicode read d

/-- a text of at least one character, and without halves -/
def someText (d : Datum) : Intake String := do
  let s ← text d
  if Text.hasHalf s then fail notUnicode
  else if s.isEmpty then fail "String should have at least 1 character"
  else return s

/-! ### integers -/

def notInteger : String := "Input should be a valid integer"
def tooManyDigits : String := "Unable to parse input string as an integer, exceeded maximum size"
def notFinite : String := "Input should be a finite number"

def noInteger : String := notInteger ++ ", unable to parse string as an integer"

def readInt (cs : List Char) : Intake Int :=
  match writtenInt cs with
  | .ok i => .ok i
  | .error .tooLong => fail tooManyDigits
  | .error .malformed => fail noInteger

def int : Datum → Intake Int
  | .int i => .ok i
  | .bool b => .ok (if b then 1 else 0)
  | .float x =>
    match x.toInt? with
    | none => fail notFinite
    | some i =>
      if !x.isIntegral then fail (notInteger ++ ", got a number with a fractional part")
      else if wordLimit ≤ i.natAbs then fail tooManyDigits
      else .ok i
  | d => written notInteger noInteger readInt d

/-- a lower bound -/
def atLeast (least : Int) (i : Int) : Intake Int :=
  if i < least then fail ("Input should be greater than or equal to " ++ toString least)
  else .ok i

def atMost (greatest : Int) (i : Int) : Intake Int :=
  if greatest < i then fail ("Input should be less than or equal to " ++ toString greatest)
  else .ok i

/-- an integer with a lower bound -/
def intFrom (least : Int) (d : Datum) : Intake Int := do atLeast least (← int d)

def nat (d : Datum) : Intake Nat := do return (← intFrom 0 d).toNat

/-! ### truth values -/

def trueWords : List String := ["1", "on", "t", "true", "y", "yes"]
def falseWords : List String := ["0", "off", "f", "false", "n", "no"]

def notBool : String := "Input should be a valid boolean"

def noBool : String := notBool ++ ", unable to interpret input"

/-- The truth value of an integer: zero or one. Another integer of a word is told apart from one
that is larger. -/
def boolOfInt (i : Int) : Intake Bool :=
  if i = 1 then .ok true
  else if i = 0 then .ok false
  else fail (if fitsWord i then noBool else notBool)

def readBool (cs : List Char) : Intake Bool :=
  let w := String.ofList (cs.map Char.toLower)
  if trueWords.contains w then .ok true
  else if falseWords.contains w then .ok false
  else fail noBool

def bool : Datum → Intake Bool
  | .bool b => .ok b
  | .int i => boolOfInt i
  | .float x =>
    match x.toInt? with
    | some i => if x.isIntegral && i.natAbs < wordLimit then boolOfInt i else fail notBool
    | none => fail notBool
  | d => written notBool noBool readBool d

/-! ### numbers -/

def notNumber : String := "Input should be a valid number"

def noNumber : String := notNumber ++ ", unable to parse string as a number"

def float : Datum → Intake Binary
  | .float x => .ok x
  | .int i =>
    let x := Binary.ofInt i
    if x.isInfinite then fail notNumber else .ok x
  | .bool b => .ok (.ofInt (if b then 1 else 0))
  | d => written notNumber noNumber (fun cs => (writtenFloat? cs).elim (fail noNumber) .ok) d

/-- nothing, or what another reading gives -/
def optional {α : Type} (read : Datum → Intake α) : Datum → Intake (Option α)
  | .null => .ok none
  | d => (read d).map some

/-! ### choices -/

/-- the words of a choice, in quotes -/
def alternatives (names : List String) : String :=
  let quoted := names.map fun n => "'" ++ n ++ "'"
  match quoted.getLast? with
  | none => ""
  | some last =>
    match quoted.dropLast with
    | [] => last
    | init => String.intercalate ", " init ++ " or " ++ last

/-- one of some values by its name -/
def choice {α : Type} (all : List α) (name : α → String) (d : Datum) : Intake α :=
  let refusal := "Input should be " ++ alternatives (all.map name)
  written refusal refusal (fun cs =>
    (all.find? fun a => name a == String.ofList cs).elim (fail refusal) .ok) d

/-- one of some values by its name, which must be a text -/
def exactChoice {α : Type} (all : List α) (name : α → String) : Datum → Intake α
  | .text s => choice all name (.text s)
  | _ => fail ("Input should be " ++ alternatives (all.map name))

/-! ### lists and records -/

/-- the items of a list from an index on -/
def items {α : Type} (read : Datum → Intake α) : Nat → List Datum → Intake (List α)
  | _, [] => .ok []
  | i, d :: ds => do
    let a ← under (toString i) (read d)
    return a :: (← items read (i + 1) ds)

/-- What a datum holds in a row: a list, a set, or two data. -/
def inRow? (d : Datum) : Option (List Datum) :=
  match d.opened with
  | .list ds | .set ds => some ds
  | .pair a b => some [a, b]
  | _ => none

def notList : String := "Input should be a valid list"

def list {α : Type} (read : Datum → Intake α) (d : Datum) : Intake (List α) :=
  match inRow? d with
  | some ds => items read 0 ds
  | none => fail notList

/-- a list of fixed shape -/
def row {α : Type} (read : Datum → Intake α) (d : Datum) : Intake (List α) :=
  match inRow? d with
  | some ds => items read 0 ds
  | none => fail "Input should be a valid tuple"

abbrev Entries := List (String × Datum)

/-- The entries of a map; of a table, those that have a name. -/
def entries? (d : Datum) : Option Entries :=
  match d.opened with
  | .map es => some es
  | .table es => some <| es.filterMap fun e =>
    match e.1 with
    | .text name => some (name, e.2)
    | _ => none
  | _ => none

/-- The entries of a record with a name of its own. -/
def record (name : String) (d : Datum) : Intake Entries :=
  match entries? d with
  | some es => .ok es
  | none => fail ("Input should be a valid dictionary or instance of " ++ name)

/-- the first of some names that the entries have, and its value -/
def lookup (es : Entries) : List String → Option (String × Datum)
  | [] => none
  | n :: ns => match Datum.find? es n with
    | some d => some (n, d)
    | none => lookup es ns

/-- A field that must be there, under the first of its names that occurs. -/
def field {α : Type} (es : Entries) (names : List String) (read : Datum → Intake α) : Intake α :=
  match lookup es names with
  | some (n, d) => under n (read d)
  | none => under (names.headD "") (fail "Field required")

def fieldOr {α : Type} (es : Entries) (names : List String) (missing : α)
    (read : Datum → Intake α) : Intake α :=
  match lookup es names with
  | some (n, d) => under n (read d)
  | none => .ok missing

/-- what a check of a whole record says -/
def unfit {α : Type} (message : String) : Intake α := fail ("Value error, " ++ message)

end Intake

end Ladybug
