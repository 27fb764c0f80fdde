import Ladybug.Datum.Shown

/-!
# Writing JSON

* `Form`       the decisions of a written form: which characters are escaped, how numbers look
* `indented`   a datum with one item on each line, two blanks for each level
* `compact`    a datum on one line
-/

namespace Ladybug.Json
open Ladybug

structure Form where
  escape : (code : Nat) → List Char
  float : Binary → String

/-- `\u` and four digits -/
def unitEscape (n : Nat) : List Char := '\\' :: 'u' :: Text.hexDigits 4 n

/-- The letters after the backslash of the code points that have one. -/
def escapeLetters : List (Char × Char) :=
  [('"', '"'), ('\\', '\\'), ('\n', 'n'), ('\r', 'r'), ('\t', 't'), ('\x08', 'b'), ('\x0C', 'f')]

/-- The escapes that a quote, a backslash and the controls need. -/
def escapeControl (code : Nat) : List Char :=
  match escapeLetters.find? fun e => e.1.toNat == code with
  | some e => ['\\', e.2]
  | none => if code < 0x20 then unitEscape code else Text.ofCode code

/-- The same, and every code point outside ASCII by its code units. -/
def escapeAscii (code : Nat) : List Char :=
  if code < 0x7F then escapeControl code
  else if code < 0x10000 then unitEscape code
  else
    let n := code - 0x10000
    unitEscape (0xD800 + n / 0x400) ++ unitEscape (0xDC00 + n % 0x400)

/-- worlds, commands and progress: ASCII only -/
def ascii : Form := ⟨escapeAscii, Decimal.plain.show⟩

/-- saved programs: letters of all scripts as they are -/
def unicode : Form := ⟨escapeControl, Decimal.saved.show⟩

def Form.string (f : Form) (s : String) : List Char :=
  '"' :: (Text.codes s.toList).flatMap f.escape ++ ['"']

/-- Scalars, and lists and objects without items. What has no form of its own is written as the text
that messages show. -/
def Form.scalar (f : Form) : Datum → List Char
  | .null => "null".toList
  | .bool b => (if b then "true" else "false").toList
  | .int i => (toString i).toList
  | .float x => (f.float x).toList
  | .text s => f.string s
  | .list _ => ['[', ']']
  | .map _ => ['\x7b', '\x7d']
  | d => f.string d.shown

/-- a line end and the blanks of a level -/
def newLine (level : Nat) : List Char := '\n' :: List.replicate (2 * level) ' '

mutual

def Form.lines (f : Form) (level : Nat) : Datum → List Char
  | .list (d :: ds) =>
    '[' :: newLine (level + 1) ++ f.lines (level + 1) d ++ f.itemLines (level + 1) ds
      ++ newLine level ++ [']']
  | .map ((k, d) :: es) =>
    '\x7b' :: newLine (level + 1) ++ f.string k ++ [':', ' '] ++ f.lines (level + 1) d
      ++ f.entryLines (level + 1) es ++ newLine level ++ ['\x7d']
  | d => f.scalar d

def Form.itemLines (f : Form) (level : Nat) : List Datum → List Char
  | [] => []
  | d :: ds => ',' :: newLine level ++ f.lines level d ++ f.itemLines level ds

def Form.entryLines (f : Form) (level : Nat) : List (String × Datum) → List Char
  | [] => []
  | (k, d) :: es =>
    ',' :: newLine level ++ f.string k ++ [':', ' '] ++ f.lines level d ++ f.entryLines level es

end

/-- One item on each line. -/
def indented (f : Form) (d : Datum) : String := String.ofList (f.lines 0 d)

mutual

def Form.line (f : Form) : Datum → List Char
  | .list (d :: ds) => '[' :: f.line d ++ f.itemRest ds ++ [']']
  | .map ((k, d) :: es) =>
    '\x7b' :: f.string k ++ [':', ' '] ++ f.line d ++ f.entryRest es ++ ['\x7d']
  | d => f.scalar d

def Form.itemRest (f : Form) : List Datum → List Char
  | [] => []
  | d :: ds => ',' :: ' ' :: f.line d ++ f.itemRest ds

def Form.entryRest (f : Form) : List (String × Datum) → List Char
  | [] => []
  | (k, d) :: es => ',' :: ' ' :: f.string k ++ [':', ' '] ++ f.line d ++ f.entryRest es

end

/-- All on one line. -/
def compact (f : Form) (d : Datum) : String := String.ofList (f.line d)

end Ladybug.Json
