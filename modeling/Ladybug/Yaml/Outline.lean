import Ladybug.Yaml.Text

/-!
# The outline of a YAML text

Indentation and colons are turned into tokens: a deeper line opens a block, a shallower one closes
it, and a colon makes a key of what stands before it on its line.

* `Outline`        the tokens so far, the blocks that are open, and the place
* `PossibleKey`    a place where a key begins if a colon follows
* `Outline.step`   one more sign of the text
* `tokens`         the tokens of a text
-/

namespace Ladybug.Yaml

/-- `place` counts the tokens before the key. A key is required where it begins a line of an open
block. -/
structure PossibleKey where
  place : Nat
  required : Bool
  index : Nat
  line : Nat
  column : Nat
deriving Repr

/-- The tokens are in reverse. `depth` counts the open brackets; `keys` holds a possible key for
each depth at most; a key may begin at the place if `fresh`. -/
structure Outline where
  cursor : Cursor
  depth : Nat := 0
  indent : Int := -1
  outer : List Int := []
  fresh : Bool := true
  keys : List (Nat × PossibleKey) := []
  tokens : List Token := []
  count : Nat := 0
deriving Repr

namespace Outline

def emit (t : Token) (o : Outline) : Outline :=
  { o with tokens := t :: o.tokens, count := o.count + 1 }

/-- A token put in after the first `place` tokens. -/
def insertAt (place : Nat) (t : Token) (o : Outline) : Outline :=
  let later := o.count - place
  { o with tokens := o.tokens.take later ++ t :: o.tokens.drop later, count := o.count + 1 }

def moveTo (c : Cursor) (o : Outline) : Outline := { o with cursor := c }

def flow (o : Outline) : Bool := o.depth != 0

/-! ### blocks -/

/-- Closes the blocks that are indented more than a column. -/
def closeFrom (column : Int) : (outer : List Int) → Outline → Outline
  | [], o => { o with outer := [] }
  | i :: outer, o =>
    if column < o.indent then closeFrom column outer ({ o with indent := i }.emit .closeBlock)
    else { o with outer := i :: outer }

def closeBlocks (column : Int) (o : Outline) : Outline :=
  if o.flow then o else closeFrom column o.outer o

/-- Opens a block at a column unless one is open there; its token is put in at a place. -/
def openBlock (t : Token) (column : Nat) (place : Nat) (o : Outline) : Outline :=
  if o.indent < column then
    { o with outer := o.indent :: o.outer, indent := column }.insertAt place t
  else o

/-! ### possible keys -/

def key? (o : Outline) : Option PossibleKey :=
  (o.keys.find? fun k => k.1 == o.depth).map Prod.snd

def withoutKey (o : Outline) : Outline := { o with keys := o.keys.filter fun k => k.1 != o.depth }

/-- The possible key of this depth is none after all. -/
def dropKey (o : Outline) : Result Outline :=
  if o.key?.any PossibleKey.required then .error .malformed else .ok o.withoutKey

/-- A key may begin here. -/
def saveKey (o : Outline) : Result Outline :=
  if !o.fresh then .ok o
  else do
    let o ← o.dropKey
    let c := o.cursor
    let k : PossibleKey :=
      ⟨o.count, !o.flow && o.indent == Int.ofNat c.column, c.index, c.line, c.column⟩
    return { o with keys := (o.depth, k) :: o.keys }

/-- a key ends on its line, and soon -/
def longestKey : Nat := 1024

def isStale (c : Cursor) (k : PossibleKey) : Bool :=
  k.line != c.line || longestKey < c.index - k.index

def dropStaleKeys (o : Outline) : Result Outline :=
  if o.keys.any fun k => isStale o.cursor k.2 && k.2.required then .error .malformed
  else .ok { o with keys := o.keys.filter fun k => !isStale o.cursor k.2 }

/-! ### from sign to sign -/

/-- Spaces, comments and line ends. After a line end a key may begin, except among brackets. -/
def toNext : (bound : List Char) → Outline → Outline
  | [], o => o
  | _ :: bound, o =>
    let c := o.cursor.skipWhile isSpace
    let c := if c.peek == some '#' then c.lineRest.2 else c
    match c.lineBreak? with
    | some (_, c) => toNext bound { o with cursor := c, fresh := o.fresh || !o.flow }
    | none => o.moveTo c

/-- A byte order mark before everything else is passed over. -/
def passMark (o : Outline) : Outline :=
  if o.cursor.index == 0 && o.cursor.peek == some '\uFEFF' then o.moveTo o.cursor.next else o

/-- a sign of one character -/
def sign (t : Token) (o : Outline) : Outline := (o.emit t).moveTo o.cursor.next

def mark (t : Token) (o : Outline) : Result Outline := do
  let o ← (o.closeBlocks (-1)).dropKey
  return ({ o with fresh := false }.emit t).moveTo (o.cursor.skip 3)

def directiveLine (o : Outline) : Result Outline := do
  let o ← (o.closeBlocks (-1)).dropKey
  let (d, c) ← directive o.cursor
  return ({ o with fresh := false }.emit (.directive d)).moveTo c

def openBracket (t : Token) (o : Outline) : Result Outline := do
  let o ← o.saveKey
  return { o with depth := o.depth + 1, fresh := true }.sign t

def closeBracket (t : Token) (o : Outline) : Result Outline := do
  need o.flow
  let o ← o.dropKey
  return { o with depth := o.depth - 1, fresh := false }.sign t

def comma (o : Outline) : Result Outline := do
  let o ← o.dropKey
  return { o with fresh := true }.sign .comma

/-- The hyphen of an item, which may open a block. -/
def item (o : Outline) : Result Outline := do
  need (o.flow || o.fresh)
  let o := if o.flow then o else o.openBlock .openBlockList o.cursor.column o.count
  let o ← o.dropKey
  return { o with fresh := true }.sign .item

/-- The question mark of a key. -/
def longKey (o : Outline) : Result Outline := do
  need (o.flow || o.fresh)
  let o := if o.flow then o else o.openBlock .openBlockMap o.cursor.column o.count
  let o ← o.dropKey
  return { o with fresh := !o.flow }.sign .key

/-- The colon of a value. What may be a key becomes one, and opens a block if it begins further to
the right than the last one. -/
def value (o : Outline) : Result Outline :=
  match o.key? with
  | some k =>
    let o := o.withoutKey.insertAt k.place .key
    let o := if o.flow then o else o.openBlock .openBlockMap k.column k.place
    .ok ({ o with fresh := false }.sign .value)
  | none => do
    need (o.flow || o.fresh)
    let o := if o.flow then o else o.openBlock .openBlockMap o.cursor.column o.count
    let o ← { o with fresh := !o.flow }.dropKey
    return o.sign .value

/-- A property or an alias, which may begin a key. -/
def property (read : Cursor → Result (Token × Cursor)) (o : Outline) : Result Outline := do
  let o ← o.saveKey
  let (t, c) ← read o.cursor
  return ({ o with fresh := false }.emit t).moveTo c

def quotedScalar (double : Bool) : Outline → Result Outline :=
  property fun c => do
    let (cs, c) ← quoted double c
    return (.scalar (String.ofList cs) false, c)

def blockScalar (fold : Bool) (o : Outline) : Result Outline := do
  let o ← o.dropKey
  let (cs, c) ← block fold o.indent o.cursor
  return ({ o with fresh := true }.emit (.scalar (String.ofList cs) false)).moveTo c

def plainScalar (o : Outline) : Result Outline := do
  let o ← o.saveKey
  let p := plain o.flow (o.indent + 1) o.cursor
  return ({ o with fresh := p.newLine }.emit (.scalar (String.ofList p.text) true)).moveTo p.cursor

/-- A scalar without quotes begins with a character that means nothing else here. -/
def startsPlain (o : Outline) (ch : Char) : Bool :=
  !isOneOf "-?:,[]\x7b\x7d#&*!|>'\"%@\x60\t" (some ch)
    || (!isGap (o.cursor.peekAt 1) && (ch == '-' || (!o.flow && (ch == '?' || ch == ':'))))

/-- The sign at the place, `ch` being its first character. -/
def take (o : Outline) (ch : Char) : Result Outline :=
  let gapAfter := isGap (o.cursor.peekAt 1)
  if ch == '%' && o.cursor.column == 0 then o.directiveLine
  else if o.cursor.startsDocument then o.mark .documentStart
  else if o.cursor.endsDocument then o.mark .documentEnd
  else if ch == '[' then o.openBracket .openList
  else if ch == '\x7b' then o.openBracket .openMap
  else if ch == ']' then o.closeBracket .closeList
  else if ch == '\x7d' then o.closeBracket .closeMap
  else if ch == ',' then o.comma
  else if ch == '-' && gapAfter then o.item
  else if ch == '?' && (o.flow || gapAfter) then o.longKey
  else if ch == ':' && (o.flow || gapAfter) then o.value
  else if ch == '*' then
    o.property fun c => do let (s, c) ← name c; return (.alias s, c)
  else if ch == '&' then
    o.property fun c => do let (s, c) ← name c; return (.anchor s, c)
  else if ch == '!' then o.property tag
  else if ch == '|' && !o.flow then o.blockScalar false
  else if ch == '>' && !o.flow then o.blockScalar true
  else if ch == '\'' then o.quotedScalar false
  else if ch == '"' then o.quotedScalar true
  else if o.startsPlain ch then o.plainScalar
  else .error .malformed

/-- The end of the text closes all blocks. -/
def finish (o : Outline) : Result Outline := do
  let o ← (o.closeBlocks (-1)).dropKey
  return o.emit .finish

/-- One more sign, or the end of the text. -/
def step (o : Outline) : Result (Outline × Bool) := do
  let o ← (o.passMark.toNext o.cursor.steps).dropStaleKeys
  let o := o.closeBlocks o.cursor.column
  match o.cursor.peek with
  | none => return (← o.finish, true)
  | some ch => return (← (← o.take ch).dropStaleKeys, false)

/-- The outline where the next step fails. Tokens from the first possible key on could still have
been put after another one, so they are not known. -/
def breakOff (f : Failure) (o : Outline) : Outline :=
  let known := (o.keys.map fun k => k.2.place).foldl min o.count
  { o with tokens := .broken f :: o.tokens.drop (o.count - known), count := known + 1 }

def run : (fuel : Nat) → Outline → Outline
  | 0, o => o.breakOff .malformed
  | fuel + 1, o =>
    match o.step with
    | .error f => o.breakOff f
    | .ok (o, true) => o
    | .ok (o, false) => run fuel o

end Outline

/-- The tokens of a text of printable characters. Each sign of it is at least one character long. -/
def tokens (s : List Char) : Result (List Token) :=
  if !s.all isPrintable then .error .malformed
  else .ok (Outline.run (s.length + 1) { cursor := ⟨s, 0, 0, 0⟩ }).tokens.reverse

end Ladybug.Yaml
