import Ladybug.Script.Dialect
import Ladybug.Script.Token
import Ladybug.Text.Blank
import Ladybug.Text.Digit
import Ladybug.Text.Word

/-!
# Scanning: from characters to tokens

A script is cut into pieces, each of them a token or a gap; the pieces together are the script.

* `comment?`   the length of a comment at the start of a text
* `cut`        the kind and the length of the first piece
* `pieces`     all pieces of a text
* `scan`       the tokens among them, with their places
-/

namespace Ladybug.Script

/-- A piece is a token of some kind, or a gap: blanks, a comment, or a character without meaning. -/
structure Piece where
  kind : Option Kind
  text : List Char
deriving DecidableEq, Repr

/-! ### comments -/

/-- how far a mark stands behind the start of a text, `n` being the way already gone; the mark
itself is counted in -/
def upTo? (mark : List Char) : List Char → Nat → Option Nat
  | [], _ => none
  | c :: cs, n =>
    if mark.isPrefixOf (c :: cs) then some (n + mark.length) else upTo? mark cs (n + 1)

def lineLength (cs : List Char) : Nat := (cs.takeWhile (· != '\n')).length

/-- no letter, number or underscore comes next -/
def wordEnds : List Char → Bool
  | [] => true
  | c :: _ => !Text.isWord c

def blockBegin : List Char := "=begin".toList
def blockEnd : List Char := "=end".toList

/-- the way to the end of the line that ends a block comment -/
def blockEnd? : (lineStart : Bool) → List Char → Nat → Option Nat
  | _, [], _ => none
  | lineStart, c :: cs, n =>
    if lineStart && blockEnd.isPrefixOf (c :: cs) && wordEnds (cs.drop 3) then
      some (n + lineLength (c :: cs))
    else blockEnd? (c == '\n') cs (n + 1)

/-- A text between a mark and its next occurrence, both of which belong to it. -/
def between? (first last s : List Char) : Option Nat :=
  if first.isPrefixOf s then upTo? last (s.drop first.length) first.length else none

/-- The length of a comment at the start of a text; `lineStart` says that a line begins there. -/
def comment? (d : Dialect) (lineStart : Bool) (s : List Char) : Option Nat :=
  match d with
  | .braced | .functional =>
    if "//".toList.isPrefixOf s then some (lineLength s)
    else between? ['/', '*'] ['*', '/'] s
  | .indented =>
    if ['#'].isPrefixOf s then some (lineLength s)
    else match between? ['"', '"', '"'] ['"', '"', '"'] s with
      | some n => some n
      | none => between? ['\'', '\'', '\''] ['\'', '\'', '\''] s
  | .ended =>
    if ['#'].isPrefixOf s then some (lineLength s)
    else if lineStart && blockBegin.isPrefixOf s && wordEnds (s.drop 6) then
      blockEnd? false (s.drop 6) 6
    else none

/-! ### tokens -/

def isGap (c : Char) : Bool := c == ' ' || c == '\t' || c == '\r' || c == '\x0c'

def isNameStart (c : Char) : Bool :=
  ('a' ≤ c && c ≤ 'z') || ('A' ≤ c && c ≤ 'Z') || c == '_'

def isNameChar (c : Char) : Bool := isNameStart c || ('0' ≤ c && c ≤ '9')

/-- the length of what follows the first digit of a number -/
def numberRest (cs : List Char) : Nat :=
  let whole := (cs.takeWhile Text.isDigit).length
  match cs.drop whole with
  | '.' :: ds =>
    let decimals := (ds.takeWhile Text.isDigit).length
    if decimals = 0 then whole else whole + 1 + decimals
  | _ => whole

/-- the length of what follows the opening quote of a string that is closed on its line -/
def stringRest? (quote : Char) : List Char → Nat → Option Nat
  | [], _ => none
  | '\\' :: [], _ => none
  | '\\' :: c :: cs, n => if c == '\n' then none else stringRest? quote cs (n + 2)
  | c :: cs, n =>
    if c == quote then some (n + 1) else if c == '\n' then none else stringRest? quote cs (n + 1)

def longOps : List (Char × Char) :=
  [('&', '&'), ('|', '|'), ('=', '='), ('!', '='), ('<', '='), ('>', '='), (':', ':')]

/-- How much of an operator follows its first character. What is marked belongs to its mark. -/
def opRest (c : Char) : List Char → Nat
  | [] => 0
  | c' :: _ => if c == Text.mark || longOps.contains (c, c') then 1 else 0

/-- The kind of the first piece of `c :: rest`, and how much of `rest` belongs to it. -/
def cut (d : Dialect) (lineStart : Bool) (c : Char) (rest : List Char) : Option Kind × Nat :=
  if isGap c then (none, (rest.takeWhile isGap).length)
  else if c == '\n' then (none, 0)
  else match comment? d lineStart (c :: rest) with
  | some n => (none, n - 1)
  | none =>
    if isNameStart c then (some .name, (rest.takeWhile isNameChar).length)
    else if Text.isDigit c then (some .number, numberRest rest)
    else
      let string := if c == '"' || c == '\'' then stringRest? c rest 0 else none
      match string with
      | some n => (some .string, n)
      | none => if Text.isBlank c then (none, 0) else (some .op, opRest c rest)

/-- The pieces of a text after those in `done`, the last of which comes first. -/
def piecesFrom (d : Dialect) (lineStart : Bool) (s : List Char) (done : List Piece) : List Piece :=
  match s with
  | [] => done.reverse
  | c :: rest =>
    let (kind, n) := cut d lineStart c rest
    let text := c :: rest.take n
    piecesFrom d (text.getLast? == some '\n') (rest.drop n) (⟨kind, text⟩ :: done)
termination_by s.length
decreasing_by simp only [List.length_drop, List.length_cons]; omega

def pieces (d : Dialect) (s : List Char) : List Piece := piecesFrom d true s []

/-- the tokens among some pieces, the first of which starts at a place -/
def place : Place → List Piece → List Token → List Token
  | _, [], done => done.reverse
  | p, piece :: ps, done =>
    let done := match piece.kind with
      | some k => ⟨k, String.ofList piece.text, p.line, p.column⟩ :: done
      | none => done
    place (p.after piece.text) ps done

def scan (d : Dialect) (source : String) : List Token := place {} (pieces d source.toList) []

end Ladybug.Script
