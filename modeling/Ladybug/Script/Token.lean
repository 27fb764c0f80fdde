import Ladybug.Text.Half

/-!
# Tokens of a script

* `Token`      a word of a script with its kind, its text and its place
* `Place`      a line, counted from one, and a column, counted from zero
* `Place.after`   the place where a text ends that starts at a place
-/

namespace Ladybug.Script

inductive Kind where
  | name
  | number
  | string
  | op
  | newline
  | indent
  | dedent
deriving DecidableEq, Repr

def Kind.label : Kind → String
  | .name => "name"
  | .number => "number"
  | .string => "string"
  | .op => "op"
  | .newline => "newline"
  | .indent => "indent"
  | .dedent => "dedent"

structure Place where
  line : Nat := 1
  column : Nat := 0
deriving DecidableEq, Repr

/-- The place after a code point. -/
def Place.next (p : Place) (code : Nat) : Place :=
  if code == '\n'.toNat then ⟨p.line + 1, 0⟩ else ⟨p.line, p.column + 1⟩

def Place.after (p : Place) (cs : List Char) : Place := (Text.codes cs).foldl Place.next p

structure Token where
  kind : Kind
  text : String
  line : Nat
  column : Nat
deriving DecidableEq, Repr

namespace Token

def isOp (t : Token) (text : String) : Bool := t.kind == .op && t.text == text

def isName (t : Token) (text : String) : Bool := t.kind == .name && t.text == text

def isNameIn (t : Token) (texts : List String) : Bool :=
  t.kind == .name && texts.contains t.text

/-- the token in a message: its text, or the label of a token without one -/
def shown (t : Token) : String := if t.text.isEmpty then t.kind.label else t.text

end Token

end Ladybug.Script
