import Ladybug.Decimal.Whole
import Ladybug.Text.Bytes
import Ladybug.Text.Digit
import Ladybug.Yaml.Cursor

/-!
# Tokens of YAML

* `Token`       the marks of structure, properties of nodes, and scalars
* `name`, `tag`, `directive`   the tokens that hold names, read from their place
-/

namespace Ladybug.Yaml

/-- A directive names a version or the meaning of a handle; others say nothing. -/
inductive Directive where
  | version (major : Nat)
  | handle (name meaning : String)
  | unknown
deriving DecidableEq, Repr

/-- The last token is `finish`, or `broken` where no token can be read from the text. -/
inductive Token where
  | directive (d : Directive)
  | documentStart
  | documentEnd
  | openBlockList
  | openBlockMap
  | closeBlock
  | openList
  | closeList
  | openMap
  | closeMap
  | comma
  | item
  | key
  | value
  | alias (name : String)
  | anchor (name : String)
  | tag (handle : Option String) (suffix : String)
  | scalar (text : String) (plain : Bool)
  | finish
  | broken (failure : Failure)
deriving DecidableEq, Repr

abbrev Result := Except Failure

/-- succeeds if a condition holds -/
def need (b : Bool) : Result Unit := if b then .ok () else .error .malformed

/-! ### anchors and aliases -/

/-- The name after the sign of an anchor or an alias. -/
def name (c : Cursor) : Result (String × Cursor) := do
  let (cs, c) := c.next.run isNameChar
  need (!cs.isEmpty && (isGap c.peek || isOneOf "?:,]\x7d%@\x60" c.peek))
  return (String.ofList cs, c)

/-! ### tags -/

/-- a byte written as a percent sign and two digits -/
def escapedByte? : List Char → Option UInt8
  | '%' :: a :: b :: _ => do
    let a ← Text.hexValue? a
    let b ← Text.hexValue? b
    some (16 * a + b).toUInt8
  | _ => none

/-- Bytes written one after the other. -/
def escapedBytes : (bound : List Char) → Cursor → Result (List UInt8 × Cursor)
  | [], c => .ok ([], c)
  | _ :: bound, c =>
    if c.peek == some '%' then
      match escapedByte? c.rest with
      | none => .error .malformed
      | some b =>
        match escapedBytes bound (c.skip 3) with
        | .ok (bs, c) => .ok (b :: bs, c)
        | .error e => .error e
    else .ok ([], c)

def isTagChar (c : Char) : Bool := c.isAlphanum || isOneOf "-;/?:@&=+$,_.!~*'()[]" (some c)

/-- The characters of a tag; bytes that stand for one are put together. -/
def tagText : (bound : List Char) → Cursor → Result (List Char × Cursor)
  | [], c => .ok ([], c)
  | _ :: bound, c =>
    let (cs, c) := c.run isTagChar
    if c.peek == some '%' then
      match escapedBytes c.rest c with
      | .error e => .error e
      | .ok (bs, c) =>
        match Text.decode? bs with
        | none => .error .malformed
        | some es =>
          match tagText bound c with
          | .ok (more, c) => .ok (cs ++ Text.taken es ++ more, c)
          | .error e => .error e
    else .ok (cs, c)

def someTagText (c : Cursor) : Result (String × Cursor) := do
  need (match c.peek with
    | some ch => isTagChar ch || ch == '%'
    | none => false)
  let (cs, c) ← tagText c.steps c
  return (String.ofList cs, c)

/-- An exclamation mark, or a name between two of them. -/
def handle (c : Cursor) : Result (String × Cursor) := do
  need (c.peek == some '!')
  if c.peekAt 1 == some ' ' then return ("!", c.next)
  let (cs, c) := c.next.run isNameChar
  need (c.peek == some '!')
  return ("!" ++ String.ofList cs ++ "!", c.next)

/-- The tag at a place: in full, without a name, or a handle and a name. -/
def tag (c : Cursor) : Result (Token × Cursor) := do
  let (t, c) ← show Result (Token × Cursor) from
    if c.peekAt 1 == some '<' then do
      let (s, c) ← someTagText (c.skip 2)
      need (c.peek == some '>')
      return (.tag none s, c.next)
    else if isGap (c.peekAt 1) then .ok (.tag none "!", c.next)
    else do
      let word := c.next.rest.takeWhile fun ch => !isGapOrSpace (some ch)
      let (h, c) ← if word.contains '!' then handle c else .ok ("!", c.next)
      let (s, c) ← someTagText c
      return (.tag (some h) s, c)
  need (isGapOrSpace c.peek)
  return (t, c)

/-! ### directives -/

/-- digits as a number -/
def digits (c : Cursor) : Result (Nat × Cursor) := do
  let (cs, c) := c.run fun ch => '0' ≤ ch && ch ≤ '9'
  need (!cs.isEmpty)
  if Decimal.mostDigits < cs.length then .error (.value (Decimal.tooLongMessage cs.length))
  else return (Text.digitsValue cs, c)

def versionDirective (c : Cursor) : Result (Directive × Cursor) := do
  let (major, c) ← digits (c.skipWhile isSpace)
  need (c.peek == some '.')
  let (_, c) ← digits c.next
  need (isGapOrSpace c.peek)
  return (.version major, c)

def handleDirective (c : Cursor) : Result (Directive × Cursor) := do
  let (h, c) ← handle (c.skipWhile isSpace)
  need (c.peek == some ' ')
  let (s, c) ← someTagText (c.skipWhile isSpace)
  need (isGapOrSpace c.peek)
  return (.handle h s, c)

/-- The directive after its sign, to the end of its line. -/
def directive (c : Cursor) : Result (Directive × Cursor) := do
  let (cs, c) := c.next.run isNameChar
  need (!cs.isEmpty && isGapOrSpace c.peek)
  let (d, c) ← show Result (Directive × Cursor) from
    if cs == "YAML".toList then versionDirective c
    else if cs == "TAG".toList then handleDirective c
    else .ok (.unknown, c.lineRest.2)
  return (d, ← c.finishLine)

end Ladybug.Yaml
