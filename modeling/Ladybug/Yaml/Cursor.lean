
/-!
# Places in a YAML text

* `Cursor`        what is left of a text, and where that begins
* `Cursor.next`   one character further
* `isBreak`, `isBlank`, `isGap`   the characters that separate
* `breaksIn`, `folded`            line ends as they count in a scalar
* `Failure`       why a text gives no data
-/

namespace Ladybug.Yaml
open Ladybug

/-- Apart from texts that break the rules of the format there are scalars whose tag promises a value
that they do not write. -/
inductive Failure where
  | malformed
  | value (message : String)
  | noDigits
  | noDate
  | unknownWord
  | tooLarge
  | notText
deriving DecidableEq, Repr

/-! ### characters -/

def isBreak (c : Char) : Bool :=
  c == '\n' || c == '\r' || c == '\x85' || c == '\u2028' || c == '\u2029'

def isBlank (c : Char) : Bool := c == ' ' || c == '\t'

def isSpace (c : Char) : Bool := c == ' '

/-- a blank, a line end, or the end of the text -/
def isGap : Option Char → Bool
  | some c => isBlank c || isBreak c
  | none => true

/-- a space, a line end, or the end of the text -/
def isGapOrSpace : Option Char → Bool
  | some c => isSpace c || isBreak c
  | none => true

def isLineEnd : Option Char → Bool
  | some c => isBreak c
  | none => true

def isOneOf (s : String) : Option Char → Bool
  | some c => s.toList.contains c
  | none => false

/-- letters and digits of ASCII, a hyphen and an underscore -/
def isNameChar (c : Char) : Bool := c.isAlphanum || c == '-' || c == '_'

/-- the characters that a text may hold -/
def isPrintable (c : Char) : Bool :=
  let n := c.toNat
  n == 0x9 || n == 0xA || n == 0xD || (0x20 ≤ n && n ≤ 0x7E) || n == 0x85
    || (0xA0 ≤ n && n ≤ 0xD7FF) || (0xE000 ≤ n && n ≤ 0xFFFD)
    || 0x10000 ≤ n

/-- The line ends among some characters; two of them keep their own character. -/
def breaksIn : List Char → List Char
  | [] => []
  | '\r' :: '\n' :: cs => '\n' :: breaksIn cs
  | c :: cs =>
    if c == '\u2028' || c == '\u2029' then c :: breaksIn cs
    else if isBreak c then '\n' :: breaksIn cs
    else breaksIn cs

/-- Line ends inside a folded scalar: a single one is a space, of several the first is dropped. -/
def folded : List Char → List Char
  | [] => []
  | b :: bs => if b != '\n' then b :: bs else if bs.isEmpty then [' '] else bs

/-! ### places -/

structure Cursor where
  rest : List Char
  index : Nat := 0
  line : Nat := 0
  column : Nat := 0
deriving DecidableEq, Repr

namespace Cursor

def peek (c : Cursor) : Option Char := c.rest.head?

def peekAt (c : Cursor) (n : Nat) : Option Char := c.rest[n]?

/-- A carriage return before a line feed does not end the line, and a byte order mark has no
width. -/
def next (c : Cursor) : Cursor :=
  match c.rest with
  | [] => c
  | ch :: rest =>
    if isBreak ch && !(ch == '\r' && rest.head? == some '\n') then
      ⟨rest, c.index + 1, c.line + 1, 0⟩
    else ⟨rest, c.index + 1, c.line, if ch == '\uFEFF' then c.column else c.column + 1⟩

/-- A list of one character more than are left, as a bound for loops that read on from here. -/
def steps (c : Cursor) : List Char := ' ' :: c.rest

def skip : Nat → Cursor → Cursor
  | 0, c => c
  | n + 1, c => skip n c.next

/-- characters of a kind, and what comes after them -/
def run (p : Char → Bool) (c : Cursor) : List Char × Cursor :=
  let cs := c.rest.takeWhile p
  (cs, c.skip cs.length)

def skipWhile (p : Char → Bool) (c : Cursor) : Cursor := (c.run p).2

/-- the rest of the line, its end excluded -/
def lineRest (c : Cursor) : List Char × Cursor := c.run fun ch => !isBreak ch

/-- A line end as it counts, and what comes after it. -/
def lineBreak? (c : Cursor) : Option (Char × Cursor) :=
  match c.rest with
  | '\r' :: '\n' :: _ => some ('\n', c.skip 2)
  | ch :: _ =>
    if ch == '\u2028' || ch == '\u2029' then some (ch, c.next)
    else if isBreak ch then some ('\n', c.next)
    else none
  | [] => none

/-- three hyphens or points at the beginning of a line, and nothing beside them -/
def isMarker (mark : Char) (c : Cursor) : Bool :=
  match c.rest with
  | a :: b :: d :: rest =>
    c.column == 0 && a == mark && b == mark && d == mark && isGap rest.head?
  | _ => false

def startsDocument (c : Cursor) : Bool := c.isMarker '-'
def endsDocument (c : Cursor) : Bool := c.isMarker '.'
def separates (c : Cursor) : Bool := c.startsDocument || c.endsDocument

/-- Spaces and a comment up to the end of the line, which is passed. -/
def finishLine (c : Cursor) : Except Failure Cursor :=
  let c := c.skipWhile isSpace
  let c := if c.peek == some '#' then c.lineRest.2 else c
  match c.lineBreak? with
  | some (_, c) => .ok c
  | none => if c.peek.isNone then .ok c else .error .malformed

end Cursor

end Ladybug.Yaml
