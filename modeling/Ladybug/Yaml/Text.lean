import Ladybug.Text.Digit
import Ladybug.Yaml.Token

/-!
# Scalars of YAML

* `plain`    a scalar without quotes, which may go on over several lines
* `quoted`   a scalar in quotes of one kind
* `block`    lines that are indented below a sign
-/

namespace Ladybug.Yaml

/-! ### plain scalars -/

def isFlowSign (c : Option Char) : Bool := isOneOf ",[]\x7b\x7d" c

/-- The characters before a gap and before what ends a plain scalar: a colon before a gap, and among
brackets some signs more. -/
def plainRun (flow : Bool) : List Char → List Char
  | [] => []
  | c :: cs =>
    if isGap (some c) then []
    else if c == ':' && (isGap cs.head? || flow && isFlowSign cs.head?) then []
    else if flow && (c == '?' || isFlowSign (some c)) then []
    else c :: plainRun flow cs

/-- what stands between two pieces of a plain scalar -/
structure Between where
  text : List Char
  newLine : Bool
  cursor : Cursor

/-- Spaces, or line ends that are folded; nothing where a document begins or ends. -/
def between (c : Cursor) : Between :=
  let (spaces, c) := c.run isSpace
  if c.lineBreak?.isSome then
    let (cs, c) := c.run fun ch => isSpace ch || isBreak ch
    ⟨if c.separates then [] else folded (breaksIn cs), true, c⟩
  else ⟨spaces, false, c⟩

structure Plain where
  text : List Char
  newLine : Bool
  cursor : Cursor

/-- The scalar with the pieces from a place on. It ends before a comment, and before a line that is
not indented enough. -/
def plainFrom (flow : Bool) (indent : Int) : (bound done : List Char) → Between → Plain
  | [], done, b => ⟨done, b.newLine, b.cursor⟩
  | _ :: bound, done, b =>
    let c := b.cursor
    let piece := if c.peek == some '#' then [] else plainRun flow c.rest
    if piece.isEmpty then ⟨done, b.newLine, c⟩
    else
      let done := done ++ b.text ++ piece
      let b := between (c.skip piece.length)
      if b.text.isEmpty || (!flow && b.cursor.column < indent) then ⟨done, b.newLine, b.cursor⟩
      else plainFrom flow indent bound done b

/-- A plain scalar, and whether it ended at the beginning of a line. -/
def plain (flow : Bool) (indent : Int) (c : Cursor) : Plain :=
  plainFrom flow indent c.steps [] ⟨[], false, c⟩

/-! ### quoted scalars -/

/-- the escapes of one letter -/
def escapes : List (Char × Char) :=
  [('0', '\x00'), ('a', '\x07'), ('b', '\x08'), ('t', '\t'), ('\t', '\t'), ('n', '\n'),
   ('v', '\x0B'), ('f', '\x0C'), ('r', '\r'), ('e', '\x1B'), (' ', ' '), ('"', '"'), ('\\', '\\'),
   ('/', '/'), ('N', '\x85'), ('_', '\xA0'), ('L', '\u2028'), ('P', '\u2029')]

/-- how many digits follow the letter of a code -/
def codeLength? (c : Char) : Option Nat :=
  if c == 'x' then some 2 else if c == 'u' then some 4 else if c == 'U' then some 8 else none

/-- the text of a code point -/
def textOfCode (n : Nat) : Except Failure (List Char) :=
  if 0x7FFFFFFF < n then .error .tooLarge
  else if 0x10FFFF < n then .error (.value "chr() arg not in range(0x110000)")
  else .ok (Text.ofCode n)

def hexNumber? (cs : List Char) : Option Nat :=
  cs.foldlM (fun n c => (Text.hexValue? c).map (16 * n + ·)) 0

/-- What an escape stands for, the place being after the backslash. -/
def escape (c : Cursor) : Result (List Char × Cursor) :=
  match c.rest with
  | [] => .error .malformed
  | ch :: rest =>
    match escapes.find? fun e => e.1 == ch with
    | some e => .ok ([e.2], c.next)
    | none =>
      match codeLength? ch with
      | some n =>
        let ds := rest.take n
        match hexNumber? ds with
        | some code =>
          if ds.length < n then .error .malformed
          else match textOfCode code with
            | .ok ds => .ok (ds, c.skip (n + 1))
            | .error e => .error e
        | none => .error .malformed
      | none =>
        if isBreak ch then
          let (cs, c) := c.run fun ch => isBlank ch || isBreak ch
          if c.separates then .error .malformed else .ok ((breaksIn cs).drop 1, c)
        else .error .malformed

/-- Blanks as they are, or line ends and the blanks around them folded. -/
def quotedGap (c : Cursor) : Result (List Char × Cursor) :=
  let (blanks, c) := c.run isBlank
  match c.peek with
  | none => .error .malformed
  | some ch =>
    if isBreak ch then
      let (cs, c) := c.run fun ch => isBlank ch || isBreak ch
      if c.separates then .error .malformed else .ok (folded (breaksIn cs), c)
    else .ok (blanks, c)

/-- A piece of a quoted scalar, nothing at its end. -/
def quotedPiece (double : Bool) (c : Cursor) : Option (Result (List Char × Cursor)) :=
  match c.rest with
  | [] => some (.error .malformed)
  | ch :: rest =>
    if isBlank ch || isBreak ch then some (quotedGap c)
    else if double then
      if ch == '"' then none
      else if ch == '\\' then some (escape c.next)
      else some (.ok ([ch], c.next))
    else if ch == '\'' then
      if rest.head? == some '\'' then some (.ok (['\''], c.skip 2)) else none
    else some (.ok ([ch], c.next))

/-- The scalar up to its closing quote, the pieces before the place in reverse. -/
def quotedFrom (double : Bool) :
    (bound : List Char) → List (List Char) → Cursor → Result (List Char × Cursor)
  | [], _, _ => .error .malformed
  | _ :: bound, done, c =>
    match quotedPiece double c with
    | none => .ok (done.reverse.flatten, c.next)
    | some (.error e) => .error e
    | some (.ok (cs, c)) => quotedFrom double bound (cs :: done) c

/-- A scalar in quotes, the place being that of the opening quote. -/
def quoted (double : Bool) (c : Cursor) : Result (List Char × Cursor) :=
  quotedFrom double c.steps [] c.next

/-! ### block scalars -/

/-- What to do with the line ends at the end: keep one, keep all, or none. -/
inductive Chomp where
  | clip
  | keep
  | strip
deriving DecidableEq, Repr

def chomp? : Option Char → Option Chomp
  | some '+' => some .keep
  | some '-' => some .strip
  | _ => none

def indentDigit? : Option Char → Option Nat
  | some c => if '0' ≤ c && c ≤ '9' then some (c.toNat - '0'.toNat) else none
  | none => none

/-- The sign for the end and the digit for the indentation, in either order. -/
def blockHeader (c : Cursor) : Result ((Chomp × Option Nat) × Cursor) := do
  let (chomp, indent, c) := match chomp? c.peek with
    | some chomp =>
      match indentDigit? c.next.peek with
      | some n => (chomp, some n, c.skip 2)
      | none => (chomp, none, c.next)
    | none =>
      match indentDigit? c.peek with
      | some n =>
        match chomp? c.next.peek with
        | some chomp => (chomp, some n, c.skip 2)
        | none => (.clip, some n, c.next)
      | none => (.clip, none, c)
  need (indent != some 0 && isGapOrSpace c.peek)
  return ((chomp, indent), ← c.finishLine)

/-- Empty lines before the first line of a scalar whose indentation is not given, and the widest
indentation among them. -/
def openingBreaks : (bound : List Char) → (widest : Nat) → Cursor → List Char × Nat × Cursor
  | [], widest, c => ([], widest, c)
  | _ :: bound, widest, c =>
    match c.lineBreak? with
    | some (b, c) =>
      let (bs, widest, c) := openingBreaks bound widest c
      (b :: bs, widest, c)
    | none =>
      if c.peek == some ' ' then openingBreaks bound (max widest c.next.column) c.next
      else ([], widest, c)

/-- spaces up to a column -/
def indentTo (indent : Nat) (c : Cursor) : Cursor :=
  c.skip ((c.rest.take (indent - c.column)).takeWhile isSpace).length

/-- Empty lines, and the indentation of the line after them. -/
def blockBreaks (indent : Nat) : (bound : List Char) → Cursor → List Char × Cursor
  | [], c => ([], indentTo indent c)
  | _ :: bound, c =>
    let c := indentTo indent c
    match c.lineBreak? with
    | some (b, c) =>
      let (bs, c) := blockBreaks indent bound c
      (b :: bs, c)
    | none => ([], c)

/-- The lines of a scalar from one of them on, after empty lines. The last line end and the empty
lines after it are given apart. -/
def blockLines (fold : Bool) (indent : Nat) : (bound done breaks lastBreak : List Char) →
    Cursor → List Char × List Char × List Char × Cursor
  | [], done, breaks, lastBreak, c => (done, lastBreak, breaks, c)
  | _ :: bound, done, breaks, lastBreak, c =>
    if c.column != indent || c.peek.isNone then (done, lastBreak, breaks, c)
    else
      let solid := !isOneOf " \t" c.peek
      let (text, c) := c.lineRest
      let done := done ++ breaks ++ text
      let (lastBreak, c) := match c.lineBreak? with
        | some (b, c) => ([b], c)
        | none => ([], c)
      let (breaks, c) := blockBreaks indent c.steps c
      if c.column == indent && c.peek.isSome then
        let joint :=
          if fold && lastBreak == ['\n'] && solid && !isOneOf " \t" c.peek then
            (if breaks.isEmpty then [' '] else [])
          else lastBreak
        blockLines fold indent bound (done ++ joint) breaks lastBreak c
      else (done, lastBreak, breaks, c)

/-- A block scalar at its sign, inside a block that is indented by `outer`. -/
def block (fold : Bool) (outer : Int) (c : Cursor) : Result (List Char × Cursor) := do
  let ((chomp, given), c) ← blockHeader c.next
  let least := max 1 (outer + 1).toNat
  let (breaks, indent, c) := match given with
    | some n =>
      let indent := least + n - 1
      let (breaks, c) := blockBreaks indent c.steps c
      (breaks, indent, c)
    | none =>
      let (breaks, widest, c) := openingBreaks c.steps 0 c
      (breaks, max least widest, c)
  let (text, lastBreak, breaks, c) := blockLines fold indent c.steps [] breaks [] c
  let tail := match chomp with
    | .clip => lastBreak
    | .keep => lastBreak ++ breaks
    | .strip => []
  return (text ++ tail, c)

end Ladybug.Yaml
