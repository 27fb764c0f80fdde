import Ladybug.Script.Mistake
import Ladybug.Script.Tree

/-!
# Reading conditions

    condition := all (or all)*
    all       := unary (and unary)*
    unary     := not unary | ( condition ) | literal | receiver . sensor

A parser takes tokens and gives what it read and the tokens after it. Every reader below is
one function of the reader for what may be nested in it, so that nesting alone is counted: a negation
and a parenthesis once each.

* `Setting`              the dialect of a script, with the spellings of its words
* `Parser`               tokens to a result and the rest, or a mistake
* `chain`                operands with separators between them
* `unary`, `condition`   the grammar, for conditions nested up to a depth
* `member`               a receiver, a point and a name
-/

namespace Ladybug.Script

/-- The dialect of a script and the line of its last token, which mistakes at its end name. -/
structure Setting where
  dialect : Dialect
  lastLine : Nat
deriving Repr

abbrev Parser (α : Type) := List Token → Except Mistake (α × List Token)

namespace Setting

def notWords (s : Setting) : List String := if s.dialect.hasBraces then [] else ["not"]
def andWords (s : Setting) : List String := if s.dialect.hasBraces then [] else ["and"]
def orWords (s : Setting) : List String := if s.dialect.hasBraces then [] else ["or"]

def trueWord (s : Setting) : String := if s.dialect = .indented then "True" else "true"
def falseWord (s : Setting) : String := if s.dialect = .indented then "False" else "false"

/-- The mistake of finding something else, or nothing, where something was wanted. -/
def wanted (s : Setting) (w : Wanted) : List Token → Mistake
  | [] => .ended w s.dialect s.lastLine
  | t :: _ => .found w t

/-- the line of the next token -/
def lineOf (s : Setting) : List Token → Nat
  | [] => s.lastLine
  | t :: _ => t.line

/-- an operator that must come next -/
def expect (s : Setting) (text context : String) : Parser Unit
  | t :: ts => if t.isOp text then .ok ((), ts) else .error (.found (.op text context) t)
  | [] => .error (s.wanted (.op text context) [])

end Setting

/-- the tokens after an operator, if it comes next -/
def acceptOp (text : String) : List Token → Option (List Token)
  | t :: ts => if t.isOp text then some ts else none
  | [] => none

def acceptName (text : String) : List Token → Option (List Token)
  | t :: ts => if t.isName text then some ts else none
  | [] => none

/-- no more than there is without an optional operator -/
def skipOp (text : String) (ts : List Token) : List Token := (acceptOp text ts).getD ts

def skipName (text : String) (ts : List Token) : List Token := (acceptName text ts).getD ts

/-! ### calls -/

/-- The parentheses after a called name; one dialect can do without them. -/
def callParens (s : Setting) (name : String) (ts : List Token) : Except Mistake (List Token) :=
  match acceptOp "(" ts with
  | some ts =>
    match s.expect ")" ("to close the call to kara." ++ name) ts with
    | .ok (_, ts) => .ok ts
    | .error m => .error m
  | none =>
    if s.dialect = .ended then .ok ts else .error (s.wanted (.call name) ts)

/-- A point, a name and parentheses, all after the receiver: the token of the name. -/
def member (s : Setting) : Parser Token := fun ts =>
  match s.expect "." ("after '" ++ receiver ++ "'") ts with
  | .error m => .error m
  | .ok (_, ts) =>
    match ts with
    | t :: rest =>
      if t.kind = .name then
        let rest := if s.dialect = .ended then skipOp "?" rest else rest
        match callParens s t.text rest with
        | .ok rest => .ok (t, rest)
        | .error m => .error m
      else .error (s.wanted .memberName ts)
    | [] => .error (s.wanted .memberName [])

/-- A sensor after the receiver. -/
def sensorCall (s : Setting) : Parser Expr := fun ts =>
  match member s ts with
  | .error m => .error m
  | .ok (t, rest) =>
    match sensor? t.text with
    | some d => .ok (.sensor d t.line, rest)
    | none =>
      match command? t.text with
      | some _ => .error (.commandAsCondition t.text t.line)
      | none => .error (.unknownMember t.text t.line s.dialect)

/-! ### operators -/

def isNot (s : Setting) (t : Token) : Bool := t.isOp "!" || t.isNameIn s.notWords
def isAnd (s : Setting) (t : Token) : Bool := t.isOp "&&" || t.isNameIn s.andWords
def isOr (s : Setting) (t : Token) : Bool := t.isOp "||" || t.isNameIn s.orWords

/-- Items after separators, those before them in reverse; there are no more separators than
tokens in `bound`. -/
def chainFrom {α : Type} (sep : Token → Bool) (item : Parser α) :
    (bound : List Token) → List α → Parser (List α)
  | [], done, ts => .ok (done.reverse, ts)
  | _ :: _, done, [] => .ok (done.reverse, [])
  | _ :: bound, done, t :: ts =>
    if sep t then
      match item ts with
      | .ok (a, ts) => chainFrom sep item bound (a :: done) ts
      | .error m => .error m
    else .ok (done.reverse, t :: ts)

/-- One item, or several with separators between them. -/
def chain {α : Type} (sep : Token → Bool) (item : Parser α) : Parser (List α) := fun ts =>
  match item ts with
  | .ok (a, rest) => chainFrom sep item rest [a] rest
  | .error m => .error m

/-- a single operand as it is, several under one node -/
def joined (node : List Expr → Nat → Expr) (line : Nat) : List Expr → Expr
  | [e] => e
  | es => node es line

def junction (s : Setting) (sep : Token → Bool) (node : List Expr → Nat → Expr)
    (item : Parser Expr) : Parser Expr := fun ts =>
  match chain sep item ts with
  | .ok (es, rest) => .ok (joined node (s.lineOf ts) es, rest)
  | .error m => .error m

/-- A condition made of operands that `operand` reads. -/
def conditionOf (s : Setting) (operand : Parser Expr) : Parser Expr :=
  junction s (isOr s) .or (junction s (isAnd s) .and operand)

/-- An operand in which operands are nested at most `depth` deep. -/
def unary (s : Setting) : (depth : Nat) → Parser Expr
  | 0, _ => .error .tooDeep
  | _ + 1, [] => .error (s.wanted .sensor [])
  | depth + 1, t :: ts =>
    if isNot s t then
      match unary s depth ts with
      | .ok (e, rest) => .ok (.not e t.line, rest)
      | .error m => .error m
    else if t.isOp "(" then
      match conditionOf s (unary s depth) ts with
      | .error m => .error m
      | .ok (e, rest) =>
        match s.expect ")" "to close the parenthesis" rest with
        | .ok (_, rest) => .ok (e, rest)
        | .error m => .error m
    else if t.isName s.trueWord then .ok (.literal true t.line, ts)
    else if t.isName s.falseWord then .ok (.literal false t.line, ts)
    else if t.isName receiver then sensorCall s ts
    else .error (.found .sensor t)

def condition (s : Setting) (depth : Nat) : Parser Expr := conditionOf s (unary s depth)

end Ladybug.Script
