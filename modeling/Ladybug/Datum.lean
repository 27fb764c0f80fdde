import Ladybug.Decimal.Binary
import Ladybug.Instant.Basic

/-!
# Data as documents hold them

* `Datum`           what a document may say: a scalar, or a collection of data
* `Datum.get?`      the value of a name in a map
* `insert`          one more entry of a map; a name that is there keeps its place
* `Datum.opened`    a collection that contains itself, unfolded once
-/

namespace Ladybug

/-- A map keeps its entries in the order in which they came, each name once; a table is a map some
of whose keys are no texts. A collection inside which it occurs again, or in which one around it
occurs again, is a knot: inside `content` the knots of these numbers stand as `again`. -/
inductive Datum where
  | null
  | bool (value : Bool)
  | int (value : Int)
  | float (value : Binary)
  | text (value : String)
  | bytes (value : List UInt8)
  | date (value : Date)
  | instant (value : Instant)
  | list (items : List Datum)
  | pair (first second : Datum)
  | set (members : List Datum)
  | map (entries : List (String × Datum))
  | table (entries : List (Datum × Datum))
  | knot (number : Nat) (content : Datum)
  | again (number : Nat)
deriving Inhabited

namespace Datum

/-- Entries with one more: a new name comes last, a known one gets a new value in its old place. -/
def insert (entries : List (String × Datum)) (name : String) (value : Datum) :
    List (String × Datum) :=
  match entries with
  | [] => [(name, value)]
  | e :: es => if e.1 == name then (name, value) :: es else e :: insert es name value

/-- entries in the order given, a repeated name with its last value -/
def ofEntries (entries : List (String × Datum)) : Datum :=
  .map (entries.foldl (fun es e => insert es e.1 e.2) [])

def find? (entries : List (String × Datum)) (name : String) : Option Datum :=
  (entries.find? fun e => e.1 == name).map Prod.snd

def get? : Datum → String → Option Datum
  | .map entries, name => find? entries name
  | _, _ => none

/-! ### knots -/

section
variable (number : Nat) (whole : Datum)

mutual

/-- The same with `whole` where the knot of a number occurs again. -/
def fill (d : Datum) : Datum :=
  match d with
  | .again n => if n = number then whole else .again n
  | .knot n content => if n = number then .knot n content else .knot n (fill content)
  | .list items => .list (fillAll items)
  | .pair a b => .pair (fill a) (fill b)
  | .map entries => .map (fillNamed entries)
  | .table entries => .table (fillTable entries)
  | d => d
termination_by structural d

def fillAll (ds : List Datum) : List Datum :=
  match ds with
  | [] => []
  | d :: ds => fill d :: fillAll ds
termination_by structural ds

def fillNamed (es : List (String × Datum)) : List (String × Datum) :=
  match es with
  | [] => []
  | (k, d) :: es => (k, fill d) :: fillNamed es
termination_by structural es

def fillTable (es : List (Datum × Datum)) : List (Datum × Datum) :=
  match es with
  | [] => []
  | (k, d) :: es => (k, fill d) :: fillTable es
termination_by structural es

end

end

/-- What a knot holds, the knot itself standing wherever it occurs again; any other datum as it
is. -/
def opened : Datum → Datum
  | .knot n content => fill n (.knot n content) content
  | d => d

end Datum

end Ladybug
