/-!
# Lines: one line end for all

Files end their lines with a line feed, a carriage return, or both. `unify` makes each of them one
line feed.
-/

namespace Ladybug.Text

def unify : List Char → List Char
  | [] => []
  | '\r' :: '\n' :: cs => '\n' :: unify cs
  | c :: cs => (if c == '\r' then '\n' else c) :: unify cs

/-- The number of the line on which the text `rest` of `whole` starts, counted from one. -/
def lineAt (whole rest : List Char) : Nat :=
  1 + (whole.count '\n' - rest.count '\n')

/-- texts joined by a separator -/
def joinWith (sep : String) (parts : List String) : String := sep.intercalate parts

end Ladybug.Text
