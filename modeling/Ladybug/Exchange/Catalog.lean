import Ladybug.Intake.Scenario
import Ladybug.Yaml.Reader

/-!
# Catalogs of scenarios as YAML

`readCatalog` reads the scenarios of a document. One that says nothing has none.
-/

namespace Ladybug.Exchange
open Ladybug

/-- Why a text is no catalog. -/
inductive CatalogError where
  | text (failure : Yaml.Failure)
  | content (issue : Issue)
deriving DecidableEq, Repr

/-- Null, false, zero, and texts, bytes and collections without anything in them. -/
def saysNothing : Datum → Bool
  | .null | .bool false | .int 0 | .text "" | .bytes [] | .list [] | .set [] | .map [] => true
  | .float (.finite _ 0 _) => true
  | _ => false

def catalogOf (d : Datum) : Intake (List Scenario) :=
  Intake.catalog (if saysNothing d then .map [] else d)

def readCatalog (content : String) : Except CatalogError (List Scenario) :=
  match Yaml.read content with
  | .error f => .error (.text f)
  | .ok d =>
    match catalogOf d with
    | .error i => .error (.content i)
    | .ok scenarios => .ok scenarios

end Ladybug.Exchange
