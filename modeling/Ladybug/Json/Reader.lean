import Ladybug.Datum
import Ladybug.Decimal.Whole
import Ladybug.Text.Half
import Ladybug.Text.Line

/-!
# Reading JSON

* `Cause`      what is wrong with a text, and its wording
* `Malformed`  a cause and the line on which the mistake stands
* `read`       the datum that a text writes

Besides the standard's values, `NaN`, `Infinity` and `-Infinity` are read as numbers. A name that
an object repeats keeps its first place and its last value.
-/

namespace Ladybug.Json
open Ladybug

inductive Cause where
  | byteOrderMark
  | value
  | name
  | colon
  | comma
  | extraData
  | unterminated
  | control
  | escape
  | hexEscape
  | tooLong (digits : Nat)
deriving DecidableEq, Repr

def Cause.message : Cause → String
  | .byteOrderMark => "Unexpected UTF-8 BOM (decode using utf-8-sig)"
  | .value => "Expecting value"
  | .name => "Expecting property name enclosed in double quotes"
  | .colon => "Expecting ':' delimiter"
  | .comma => "Expecting ',' delimiter"
  | .extraData => "Extra data"
  | .unterminated => "Unterminated string starting at"
  | .control => "Invalid control character at"
  | .escape => "Invalid \\escape"
  | .hexEscape => "Invalid \\uXXXX escape"
  | .tooLong digits => Decimal.tooLongMessage digits

/-- a cause, and the text from the place of the mistake on -/
structure Mistake where
  cause : Cause
  rest : List Char

structure Malformed where
  cause : Cause
  line : Nat
deriving DecidableEq, Repr

def isSpace (c : Char) : Bool := c == ' ' || c == '\t' || c == '\n' || c == '\r'

def skip (s : List Char) : List Char := s.dropWhile isSpace

/-! ### strings -/

def escape? : Char → Option Nat
  | '"' => some 34
  | '\\' => some 92
  | '/' => some 47
  | 'b' => some 8
  | 'f' => some 12
  | 'n' => some 10
  | 'r' => some 13
  | 't' => some 9
  | _ => none

def hexUnit? (a b c d : Char) : Option Nat := do
  let a ← Text.hexValue? a
  let b ← Text.hexValue? b
  let c ← Text.hexValue? c
  let d ← Text.hexValue? d
  some (a * 4096 + b * 256 + c * 16 + d)

/-- A piece of a string: a character as it stands, or a code unit that an escape gives. -/
inductive Piece where
  | char (c : Char)
  | unit (u : Nat)
deriving DecidableEq, Repr

/-- The characters of a row of pieces: escapes of the two halves of a pair give one character. -/
def joined : List Piece → List Char
  | [] => []
  | .char c :: rest => c :: joined rest
  | .unit h :: .unit l :: rest =>
    if 0xD800 ≤ h && h < 0xDC00 && 0xDC00 ≤ l && l < 0xE000 then
      Char.ofNat (0x10000 + (h - 0xD800) * 0x400 + (l - 0xDC00)) :: joined rest
    else Text.ofCode h ++ joined (.unit l :: rest)
  | .unit u :: rest => Text.ofCode u ++ joined rest

/-- The pieces up to the closing quote, `start` being the text from the opening one on. -/
def pieces (start : List Char) :
    List Char → List Piece → Except Mistake (List Piece × List Char)
  | [], _ => .error ⟨.unterminated, start⟩
  | '"' :: rest, done => .ok (done.reverse, rest)
  | '\\' :: [], _ => .error ⟨.unterminated, start⟩
  | '\\' :: 'u' :: a :: b :: c :: d :: e :: rest, done =>
    match hexUnit? a b c d with
    | some u => pieces start (e :: rest) (.unit u :: done)
    | none => .error ⟨.hexEscape, a :: b :: c :: d :: e :: rest⟩
  | '\\' :: 'u' :: rest, _ => .error ⟨.hexEscape, rest⟩
  | '\\' :: c :: rest, done =>
    match escape? c with
    | some u => pieces start rest (.unit u :: done)
    | none => .error ⟨.escape, '\\' :: c :: rest⟩
  | c :: rest, done =>
    if c.toNat ≤ 0x1F then .error ⟨.control, c :: rest⟩
    else pieces start rest (.char c :: done)

/-- The string whose opening quote has been read, and the text after the closing one. -/
def string (rest : List Char) : Except Mistake (String × List Char) :=
  match pieces ('"' :: rest) rest [] with
  | .ok (ps, rest) => .ok (String.ofList (joined ps), rest)
  | .error m => .error m

/-! ### numbers -/

def isDigit (c : Char) : Bool := '0' ≤ c && c ≤ '9'

/-- a point and digits, if the text starts with both -/
def fraction (s : List Char) : List Char × List Char :=
  match s with
  | '.' :: rest =>
    match rest.takeWhile isDigit with
    | [] => ([], s)
    | ds => (ds, rest.dropWhile isDigit)
  | _ => ([], s)

/-- a power of ten, if the text starts with one -/
def power (s : List Char) : Option Int × List Char :=
  match s with
  | e :: rest =>
    if e == 'e' || e == 'E' then
      let (negative, digits) := match rest with
        | '+' :: r => (false, r)
        | '-' :: r => (true, r)
        | r => (false, r)
      match digits.takeWhile isDigit with
      | [] => (none, s)
      | ds =>
        let n := Int.ofNat (Text.digitsValue ds)
        (some (if negative then -n else n), digits.dropWhile isDigit)
    else (none, s)
  | [] => (none, s)

/-- A whole number. The count of its digits is limited. -/
def wholeNumber (negative : Bool) (ds : List Char) : Except Cause Datum :=
  if Decimal.mostDigits < ds.length then .error (.tooLong ds.length)
  else
    let n := Int.ofNat (Text.digitsValue ds)
    .ok (.int (if negative then -n else n))

/-- the digits in front of a number without a sign: a zero, or digits that do not begin with one -/
def wholeDigits (s : List Char) : List Char :=
  match s with
  | '0' :: _ => ['0']
  | _ => s.takeWhile isDigit

/-- A number: it ends before a fraction or a power that is not complete. -/
def number? (s : List Char) : Option (Except Cause Datum × List Char) :=
  let (negative, s) := match s with
    | '-' :: r => (true, r)
    | r => (false, r)
  let whole := wholeDigits s
  match whole with
  | [] => none
  | _ =>
    let rest := s.drop whole.length
    let (decimals, rest) := fraction rest
    let (power, rest) := power rest
    if decimals.isEmpty && power.isNone then
      some (wholeNumber negative whole, rest)
    else
      let m := Text.digitsValue (whole ++ decimals)
      some (.ok (.float (Binary.ofDecimal negative m (power.getD 0 - decimals.length))), rest)

/-! ### values -/

/-- the names that stand for a value -/
def words : List (String × Datum) :=
  [("null", .null), ("true", .bool true), ("false", .bool false), ("NaN", .float .nan),
    ("Infinity", .float (.infinite false)), ("-Infinity", .float (.infinite true))]

def word? (s : List Char) : Option (Datum × List Char) :=
  words.findSome? fun w =>
    if w.1.toList.isPrefixOf s then some (w.2, s.drop w.1.length) else none

mutual

/-- The value at the start of a text, and the text after it. -/
def value : Nat → List Char → Except Mistake (Datum × List Char)
  | 0, s => .error ⟨.value, s⟩
  | fuel + 1, s =>
    match s with
    | '"' :: rest =>
      match string rest with
      | .ok (t, rest) => .ok (.text t, rest)
      | .error m => .error m
    | '[' :: rest =>
      match skip rest with
      | ']' :: rest => .ok (.list [], rest)
      | rest => items fuel rest []
    | '\x7b' :: rest =>
      match skip rest with
      | '\x7d' :: rest => .ok (.map [], rest)
      | rest => members fuel rest []
    | _ =>
      match word? s with
      | some r => .ok r
      | none =>
        match number? s with
        | some (.ok d, rest) => .ok (d, rest)
        | some (.error cause, _) => .error ⟨cause, s⟩
        | none => .error ⟨.value, s⟩

/-- the items of a list from one of them on, those before it in reverse -/
def items : Nat → List Char → List Datum → Except Mistake (Datum × List Char)
  | 0, s, _ => .error ⟨.value, s⟩
  | fuel + 1, s, done =>
    match value fuel s with
    | .error m => .error m
    | .ok (d, rest) =>
      match skip rest with
      | ']' :: rest => .ok (.list (d :: done).reverse, rest)
      | ',' :: rest => items fuel (skip rest) (d :: done)
      | rest => .error ⟨.comma, rest⟩

/-- the entries of an object from one of them on, with those before it -/
def members : Nat → List Char → List (String × Datum) → Except Mistake (Datum × List Char)
  | 0, s, _ => .error ⟨.name, s⟩
  | fuel + 1, s, done =>
    match s with
    | '"' :: rest =>
      match string rest with
      | .error m => .error m
      | .ok (name, rest) =>
        match skip rest with
        | ':' :: rest =>
          match value fuel (skip rest) with
          | .error m => .error m
          | .ok (d, rest) =>
            let done := Datum.insert done name d
            match skip rest with
            | '\x7d' :: rest => .ok (.map done, rest)
            | ',' :: rest => members fuel (skip rest) done
            | rest => .error ⟨.comma, rest⟩
        | rest => .error ⟨.colon, rest⟩
    | _ => .error ⟨.name, s⟩

end

/-- A whole text: one value with nothing but blanks around it. -/
def document (s : List Char) : Except Mistake Datum :=
  match s with
  | '\uFEFF' :: _ => .error ⟨.byteOrderMark, s⟩
  | _ =>
    match value (2 * s.length + 2) (skip s) with
    | .error m => .error m
    | .ok (d, rest) =>
      match skip rest with
      | [] => .ok d
      | rest => .error ⟨.extraData, rest⟩

def read (s : String) : Except Malformed Datum :=
  match document s.toList with
  | .ok d => .ok d
  | .error m => .error ⟨m.cause, Text.lineAt s.toList m.rest⟩

end Ladybug.Json
