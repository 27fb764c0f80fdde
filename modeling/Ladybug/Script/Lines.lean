import Ladybug.Script.Mistake
import Ladybug.Script.Scan

/-!
# Line ends and indentation as tokens

* `Lines.step`    what one token adds, given the blocks and brackets that are open
* `withLines`     tokens with line ends, and with the beginnings and ends of indented blocks
* `tokenize`      the tokens of a script, laid out as its dialect needs
-/

namespace Ladybug.Script

/-- The state of laying out: the tokens so far with the last one first, the columns of the open
blocks with the innermost one first, the number of open brackets, and the line of the last token. -/
structure Lines where
  done : List Token := []
  columns : List Nat := []
  depth : Nat := 0
  line : Nat := 0

namespace Lines

def opens (t : Token) : Bool := t.kind == .op && ["(", "[", "\x7b"].contains t.text
def closes (t : Token) : Bool := t.kind == .op && [")", "]", "\x7d"].contains t.text

def depthAfter (depth : Nat) (t : Token) : Nat :=
  if opens t then depth + 1 else if closes t then depth - 1 else depth

def column (columns : List Nat) : Nat := columns.headD 0

/-- the blocks that a token in some column closes, and those that stay open -/
def leave (column : Nat) : List Nat → Nat × List Nat
  | [] => (0, [])
  | c :: cs => if column < c then let (n, cs) := leave column cs; (n + 1, cs) else (0, c :: cs)

/-- The layout tokens of a new line of an indented script, the last one first. -/
def indentation (columns : List Nat) (t : Token) : Except Mistake (List Token × List Nat) :=
  if column columns < t.column then
    .ok ([⟨.indent, "", t.line, t.column⟩], t.column :: columns)
  else
    let (n, rest) := leave t.column columns
    if t.column = column rest then
      .ok (List.replicate n ⟨.dedent, "", t.line, t.column⟩, rest)
    else .error (.indentation t.line)

def step (indented : Bool) (s : Lines) (t : Token) : Except Mistake Lines :=
  let after (layout : List Token) (columns : List Nat) : Lines :=
    ⟨t :: (layout ++ s.done), columns, depthAfter s.depth t, t.line⟩
  if s.depth = 0 ∧ s.line < t.line then
    let newline := if s.done.isEmpty then [] else [⟨.newline, "", s.line, 0⟩]
    if indented then
      match indentation s.columns t with
      | .error m => .error m
      | .ok (layout, columns) => .ok (after (layout ++ newline) columns)
    else .ok (after newline s.columns)
  else .ok (after [] s.columns)

/-- The last line end, and the ends of the blocks that are still open. -/
def finish (s : Lines) : List Token :=
  if s.done.isEmpty then []
  else
    let newline : Token := ⟨.newline, "", s.line, 0⟩
    let dedent : Token := ⟨.dedent, "", s.line + 1, 0⟩
    (List.replicate s.columns.length dedent ++ newline :: s.done).reverse

end Lines

def withLines (indented : Bool) (ts : List Token) : Except Mistake (List Token) :=
  match ts.foldlM (Lines.step indented) {} with
  | .error m => .error m
  | .ok s => .ok s.finish

def tokenize (d : Dialect) (source : String) : Except Mistake (List Token) :=
  match d with
  | .indented => withLines true (scan d source)
  | .ended => withLines false (scan d source)
  | .braced | .functional => .ok (scan d source)

/-- the line on which a script ends -/
def endLine (ts : List Token) : Nat := ((ts.getLast?).map Token.line).getD 1

end Ladybug.Script
