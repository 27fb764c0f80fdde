import Ladybug.Text.Blank
import Ladybug.Text.Case

/-!
# Identifiers

* `Ids`        a source of ids: `state-1`, `state-2`, and so on, counted for each stem
* `Ids.draw`   the next id of a stem
* `slug`       a name in lower-case letters, digits and single dashes, for use in a stem
-/

namespace Ladybug

/-- how many ids each stem has given -/
structure Ids where
  counts : List (String × Nat) := []
deriving DecidableEq, Repr

namespace Ids

def count (ids : Ids) (stem : String) : Nat :=
  ((ids.counts.find? fun e => e.1 == stem).map Prod.snd).getD 0

def draw (ids : Ids) (stem : String) : String × Ids :=
  let n := ids.count stem + 1
  (stem ++ "-" ++ toString n, ⟨(stem, n) :: ids.counts⟩)

/-- ids for a row of stems -/
def drawAll (ids : Ids) : List String → List String
  | [] => []
  | stem :: stems => (ids.draw stem).1 :: (ids.draw stem).2.drawAll stems

end Ids

def isSlugChar (c : Char) : Bool := ('a' ≤ c && c ≤ 'z') || ('0' ≤ c && c ≤ '9')

/-- The runs of slug characters, a dash between two of them; `gap` says that a dash is due. -/
def dashed : (gap : Bool) → List Char → List Char
  | _, [] => []
  | gap, c :: cs =>
    if isSlugChar c then (if gap then ['-', c] else [c]) ++ dashed false cs
    else match cs.dropWhile (fun c => !isSlugChar c) with
      | [] => []
      | _ => dashed true cs

/-- A name as part of an id; a name without letters or digits becomes `state`. -/
def slug (name : String) : String :=
  match dashed false ((Text.lower name).toList.dropWhile fun c => !isSlugChar c) with
  | [] => "state"
  | cs => String.ofList cs

end Ladybug
