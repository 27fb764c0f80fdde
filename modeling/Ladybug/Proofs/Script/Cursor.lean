import Ladybug.Script.Parse

/-!
# The reader of scripts as it walks over an array of tokens

Tokens stand in an array with a cell for the end of the script after them, and a cursor points to
one of the cells. Neither the loops nor the nesting are bounded by the tokens that are left: all that
may go on for ever has some fuel, of which every round and every call takes one. A cell or a block
that is not there stops the reader.

* `Stop`, `Reading`   why reading stops, and what moves a cursor
* `layout`            line ends and indentation, with a stack of columns
* `findEntry`         the cell in which the body of the entry routine begins
* `program`           a script from its text, with some fuel
-/

namespace Ladybug.Script

/-- Why reading stops: a mistake in the script, a cell behind the last one, a column of a block when
no block is open, or no more fuel. -/
inductive Stop where
  | mistake (m : Mistake)
  | outside
  | bare
  | spent
deriving DecidableEq, Repr

abbrev Checked (α : Type) := Except Stop α

abbrev Reading (α : Type) := StateT Nat (Except Stop) α

namespace Cursor

/-! ### lines -/

/-- the innermost one of the columns -/
def top : List Nat → Checked Nat
  | [] => throw .bare
  | c :: _ => pure c

/-- Closes the blocks that are indented further than a token. -/
def leave (t : Token) : (columns : List Nat) → (out : List Token) → Checked (List Nat × List Token)
  | [], _ => throw .bare
  | c :: columns, out =>
    if t.column < c then leave t columns (⟨.dedent, "", t.line, t.column⟩ :: out)
    else return (c :: columns, out)

/-- Opens or closes blocks before the first token of a line. -/
def indent (t : Token) (columns : List Nat) (out : List Token) :
    Checked (List Nat × List Token) := do
  let (columns, out) :=
    if (← top columns) < t.column then
      (t.column :: columns, ⟨.indent, "", t.line, t.column⟩ :: out)
    else (columns, out)
  let (columns, out) ← leave t columns out
  if t.column ≠ (← top columns) then throw (.mistake (.indentation t.line))
  return (columns, out)

structure Laying where
  out : List Token := []
  columns : List Nat := [0]
  depth : Nat := 0
  line : Nat := 0

def layoutStep (indented : Bool) (s : Laying) (t : Token) : Checked Laying := do
  let mut out := s.out
  let mut columns := s.columns
  if s.depth = 0 ∧ s.line < t.line then
    if !out.isEmpty then out := ⟨.newline, "", s.line, 0⟩ :: out
    if indented then (columns, out) ← indent t columns out
  return ⟨t :: out, columns, Lines.depthAfter s.depth t, t.line⟩

def layout (indented : Bool) (ts : List Token) : Checked (List Token) := do
  let s ← ts.foldlM (layoutStep indented) {}
  let newline : Token := ⟨.newline, "", s.line, 0⟩
  let dedent : Token := ⟨.dedent, "", s.line + 1, 0⟩
  let out := if s.out.isEmpty then [] else newline :: s.out
  return (List.replicate s.columns.tail.length dedent ++ out).reverse

def tokenize (d : Dialect) (source : String) : Checked (List Token) :=
  match d with
  | .indented => layout true (scan d source)
  | .ended => layout false (scan d source)
  | .braced | .functional => pure (scan d source)

/-! ### cells -/

/-- a cell of the array: a token, or the end of the script after the last one -/
def cell (ts : List Token) (i : Nat) : Checked (Option Token) :=
  match (ts.map some ++ [none])[i]? with
  | some c => pure c
  | none => throw .outside

/-- Whether the cells from `i` on hold what a pattern says. -/
def matchesFrom (ts : List Token) : Nat → List (Kind × String) → Checked Bool
  | _, [] => pure true
  | i, f :: fs => do
    match ← cell ts i with
    | some t => if (t.kind, t.text) = f then matchesFrom ts (i + 1) fs else return false
    | none => return false

/-- The same, if the array is long enough. -/
def matchesAt (ts : List Token) (i : Nat) (pattern : List (Kind × String)) : Checked Bool :=
  if ts.length + 1 < i + pattern.length then pure false else matchesFrom ts i pattern

/-- the cell of a body whose header begins at `i` -/
def bodyAt (d : Dialect) (ts : List Token) (i : Nat) : Checked (Option Nat) := do
  let entry := (Kind.name, d.entryName)
  let braces (keyword : String) : Checked (Option Nat) := do
    if ← matchesAt ts i [(.name, keyword), entry, (.op, "("), (.op, ")"), (.op, "\x7b")] then
      return some (i + 4)
    else return none
  let colon (pattern : List (Kind × String)) : Checked Bool := do
    if ← matchesAt ts i pattern then
      return (← cell ts (i + pattern.length)).any (·.isOp ":")
    else return false
  match d with
  | .braced => braces "void"
  | .functional => braces "function"
  | .indented =>
    if ← colon [(.name, "def"), entry, (.op, "("), (.name, "self"), (.op, ")")] then
      return some (i + 5)
    else if ← colon [(.name, "def"), entry, (.op, "("), (.op, ")")] then return some (i + 4)
    else return none
  | .ended =>
    if ← matchesAt ts i [(.name, "def"), entry] then
      if ← matchesAt ts (i + 2) [(.op, "("), (.op, ")")] then return some (i + 4)
      else return some (i + 2)
    else return none

/-- The first body at or after cell `i`, `n` being the number of cells to look at. -/
def findFrom (d : Dialect) (ts : List Token) : (n i : Nat) → Checked (Option Nat)
  | 0, _ => pure none
  | n + 1, i => do
    match ← bodyAt d ts i with
    | some j => return some j
    | none => findFrom d ts n (i + 1)

def findEntry (d : Dialect) (ts : List Token) : Checked (Option Nat) :=
  findFrom d ts (ts.length + 1) 0

/-! ### the cursor -/

/-- What is read: the tokens of a script in some dialect. -/
structure Input extends Setting where
  tokens : List Token

variable (x : Input)

def current : Reading (Option Token) := do cell x.tokens (← get)

/-- The cursor stays at the end of the script. -/
def advance : Reading Unit := do
  if (← current x).isSome then modify (· + 1)

/-- Takes the current token if it passes a test. -/
def accept (test : Token → Bool) : Reading (Option Token) := do
  match ← current x with
  | some t => if test t then do advance x; return some t else return none
  | none => return none

def acceptOp (text : String) : Reading (Option Token) := accept x (·.isOp text)

def acceptName (text : String) : Reading (Option Token) := accept x (·.isName text)

def acceptNames (texts : List String) : Reading (Option Token) := accept x (·.isNameIn texts)

/-- an operator, by its sign or by a word -/
def acceptEither (sign : String) (words : List String) : Reading (Option Token) := do
  match ← acceptOp x sign with
  | some t => return some t
  | none => acceptNames x words

def error {α : Type} (w : Wanted) : Reading α := do
  match ← current x with
  | some t => throw (.mistake (.found w t))
  | none => throw (.mistake (.ended w x.dialect x.lastLine))

/-- a token that must come next -/
def expect (test : Token → Bool) (w : Wanted) : Reading Token := do
  match ← accept x test with
  | some t => return t
  | none => error x w

def expectOp (text context : String) : Reading Unit := do
  let _ ← expect x (·.isOp text) (.op text context)

/-- Takes the current token if it passes a test, whether there is one or not. -/
def optional (test : Token → Bool) : Reading Unit := do let _ ← accept x test

def line : Reading Nat := do
  match ← current x with
  | some t => return t.line
  | none => return x.lastLine

/-! ### conditions -/

def mark : Reading Unit := if x.dialect = .ended then optional x (·.isOp "?") else return ()

def parens (name : String) : Reading Unit := do
  match ← acceptOp x "(" with
  | some _ => expectOp x ")" ("to close the call to kara." ++ name)
  | none => if x.dialect = .ended then return () else error x (.call name)

/-- what follows the receiver -/
def member : Reading Token := do
  expectOp x "." ("after '" ++ receiver ++ "'")
  let t ← expect x (·.kind == .name) .memberName
  mark x
  parens x t.text
  return t

def sensor : Reading Expr := do
  let t ← member x
  match sensor? t.text with
  | some d => return .sensor d t.line
  | none =>
    match command? t.text with
    | some _ => throw (.mistake (.commandAsCondition t.text t.line))
    | none => throw (.mistake (.unknownMember t.text t.line x.dialect))

def call : Reading Stmt := do
  let t ← member x
  match command? t.text with
  | some c => return .command c t.line
  | none =>
    match sensor? t.text with
    | some d => return .ask (.sensor d t.line) t.line
    | none => throw (.mistake (.unknownMember t.text t.line x.dialect))

mutual

def condition : (fuel : Nat) → Reading Expr
  | 0 => throw .spent
  | fuel + 1 => do
    let l ← line x
    let es ← orRest fuel [← conjunction fuel]
    return joined .or l es

def orRest : (fuel : Nat) → List Expr → Reading (List Expr)
  | 0, _ => throw .spent
  | fuel + 1, done => do
    match ← acceptEither x "||" x.orWords with
    | some _ => orRest fuel ((← conjunction fuel) :: done)
    | none => return done.reverse

def conjunction : (fuel : Nat) → Reading Expr
  | 0 => throw .spent
  | fuel + 1 => do
    let l ← line x
    let es ← andRest fuel [← unary fuel]
    return joined .and l es

def andRest : (fuel : Nat) → List Expr → Reading (List Expr)
  | 0, _ => throw .spent
  | fuel + 1, done => do
    match ← acceptEither x "&&" x.andWords with
    | some _ => andRest fuel ((← unary fuel) :: done)
    | none => return done.reverse

def unary : (fuel : Nat) → Reading Expr
  | 0 => throw .spent
  | fuel + 1 => do
    match ← acceptEither x "!" x.notWords with
    | some t => return .not (← unary fuel) t.line
    | none => primary fuel

def primary : (fuel : Nat) → Reading Expr
  | 0 => throw .spent
  | fuel + 1 => do
    if let some _ ← acceptOp x "(" then
      let e ← condition fuel
      expectOp x ")" "to close the parenthesis"
      return e
    else if let some t ← acceptName x x.trueWord then return .literal true t.line
    else if let some t ← acceptName x x.falseWord then return .literal false t.line
    else if let some _ ← acceptName x receiver then sensor x
    else error x .sensor

end

/-! ### braces -/

namespace Braces

def test (fuel : Nat) (keyword : String) : Reading Expr := do
  expectOp x "(" ("after '" ++ keyword ++ "'")
  let e ← condition x fuel
  expectOp x ")" ("to close the '" ++ keyword ++ "' condition")
  return e

mutual

def blockRest : (fuel : Nat) → List Stmt → Reading (List Stmt)
  | 0, _ => throw .spent
  | fuel + 1, done => do
    if let some _ ← acceptOp x "\x7d" then return done.reverse
    else if (← current x).isNone then error x .closingBrace
    else blockRest fuel ((← statement fuel).reverse ++ done)

def body : (fuel : Nat) → Reading (List Stmt)
  | 0 => throw .spent
  | fuel + 1 => do
    if let some _ ← acceptOp x "\x7b" then blockRest fuel []
    else statement fuel

def statement : (fuel : Nat) → Reading (List Stmt)
  | 0 => throw .spent
  | fuel + 1 => do
    if let some _ ← acceptOp x ";" then return []
    else if let some _ ← acceptOp x "\x7b" then blockRest fuel []
    else if let some t ← acceptName x "while" then
      let e ← test x fuel "while"
      return [.loop e (← body fuel) t.line]
    else if let some t ← acceptName x "do" then
      let b ← body fuel
      let _ ← expect x (·.isName "while") .whileAfterDo
      let e ← test x fuel "while"
      optional x (·.isOp ";")
      return b ++ [.loop e b t.line]
    else if let some t ← acceptName x "if" then
      let e ← test x fuel "if"
      let b ← body fuel
      return [← branches t.line fuel [(e, b)]]
    else if let some _ ← acceptName x receiver then
      let c ← call x
      optional x (·.isOp ";")
      return [c]
    else error x .statement

def branches (line : Nat) : (fuel : Nat) → List Branch → Reading Stmt
  | 0, _ => throw .spent
  | fuel + 1, done => do
    if let some _ ← acceptName x "else" then
      if let some _ ← acceptName x "if" then
        let e ← test x fuel "if"
        branches line fuel ((e, ← body fuel) :: done)
      else return .choice done.reverse (← body fuel) line
    else return .choice done.reverse [] line

end

def entry (fuel : Nat) : Reading (List Stmt) := do
  expectOp x "\x7b" "to open the main program"
  blockRest x fuel []

end Braces

/-! ### indentation -/

namespace Indents

def simple : Reading (List Stmt) := do
  if let some _ ← acceptName x "pass" then return []
  else if let some _ ← acceptName x receiver then return [← call x]
  else error x .statement

/-- Simple statements with semicolons between them, after some others. -/
def simplesFrom : (fuel : Nat) → List Stmt → Reading (List Stmt)
  | 0, _ => throw .spent
  | fuel + 1, done => do
    let done := (← simple x).reverse ++ done
    if let some _ ← acceptOp x ";" then
      if (← current x).any (·.kind == .newline) then return done.reverse
      else simplesFrom fuel done
    else return done.reverse

def simples (fuel : Nat) : Reading (List Stmt) := do
  let stmts ← simplesFrom x fuel []
  let _ ← expect x (·.kind == .newline) .lineEnd
  return stmts

def test (fuel : Nat) (keyword : String) : Reading Expr := do
  let e ← condition x fuel
  expectOp x ":" ("after the '" ++ keyword ++ "' condition")
  return e

mutual

def suite : (fuel : Nat) → Reading (List Stmt)
  | 0 => throw .spent
  | fuel + 1 => do
    if (← current x).any (·.kind == .newline) then
      advance x
      if (← current x).any (·.kind == .indent) then
        advance x
        let stmts ← block fuel []
        advance x
        return stmts
      else error x .indentedBlock
    else simples x fuel

def block : (fuel : Nat) → List Stmt → Reading (List Stmt)
  | 0, _ => throw .spent
  | fuel + 1, done => do
    if (← current x).any (·.kind == .dedent) then return done.reverse
    else if (← current x).isNone then return done.reverse
    else block fuel ((← statement fuel).reverse ++ done)

def statement : (fuel : Nat) → Reading (List Stmt)
  | 0 => throw .spent
  | fuel + 1 => do
    if let some t ← acceptName x "while" then
      let e ← test x fuel "while"
      return [.loop e (← suite fuel) t.line]
    else if let some t ← acceptName x "if" then
      let e ← test x fuel "if"
      let b ← suite fuel
      return [← branches t.line fuel [(e, b)]]
    else simples x fuel

def branches (line : Nat) : (fuel : Nat) → List Branch → Reading Stmt
  | 0, _ => throw .spent
  | fuel + 1, done => do
    if let some _ ← acceptName x "elif" then
      let e ← test x fuel "elif"
      branches line fuel ((e, ← suite fuel) :: done)
    else if let some _ ← acceptName x "else" then
      expectOp x ":" "after 'else'"
      return .choice done.reverse (← suite fuel) line
    else return .choice done.reverse [] line

end

def entry (fuel : Nat) : Reading (List Stmt) := do
  expectOp x ":" "after the method definition"
  suite x fuel

end Indents

/-! ### `end` -/

namespace Ends

/-- Takes separators as long as there are some. -/
def skip : (fuel : Nat) → Reading Unit
  | 0 => throw .spent
  | fuel + 1 => do
    if let some _ ← accept x Ends.isSeparator then skip fuel
    else return ()

def test (fuel : Nat) (negated : Bool) (line : Nat) : Reading Expr := do
  let e ← condition x fuel
  return if negated then .not e line else e

/-- The modifiers that follow a statement. -/
def modifiers : (fuel : Nat) → Stmt → Reading Stmt
  | 0, _ => throw .spent
  | fuel + 1, c => do
    if let some t ← acceptNames x ["if", "unless", "while", "until"] then
      modifiers fuel (Ends.modified t (← condition x fuel) c)
    else return c

mutual

def body : (fuel : Nat) → Reading (List Stmt)
  | 0 => throw .spent
  | fuel + 1 => do
    skip x fuel
    bodyRest fuel []

def bodyRest : (fuel : Nat) → List Stmt → Reading (List Stmt)
  | 0, _ => throw .spent
  | fuel + 1, done => do
    if (← current x).any (·.isNameIn Ends.terminators) then return done.reverse
    else if (← current x).isNone then error x .closingEnd
    else
      let stmts ← statement fuel
      skip x fuel
      bodyRest fuel (stmts.reverse ++ done)

def block : (fuel : Nat) → Reading (List Stmt)
  | 0 => throw .spent
  | fuel + 1 => do
    let stmts ← body fuel
    let _ ← expect x (·.isName "end") .closingEnd
    return stmts

def statement : (fuel : Nat) → Reading (List Stmt)
  | 0 => throw .spent
  | fuel + 1 => do
    if let some t ← acceptNames x ["while", "until"] then
      let e ← test x fuel (t.text == "until") t.line
      optional x (·.isName "do")
      return [.loop e (← block fuel) t.line]
    else if let some t ← acceptName x "loop" then
      let _ ← expect x (·.isName "do") .doAfterLoop
      return [.loop (.literal true t.line) (← block fuel) t.line]
    else if let some t ← acceptNames x ["if", "unless"] then
      let e ← test x fuel (t.text == "unless") t.line
      optional x (·.isName "then")
      let b ← body fuel
      return [← branches t.line fuel [(e, b)]]
    else if let some _ ← acceptName x receiver then return [← modifiers x fuel (← call x)]
    else error x .statement

def branches (line : Nat) : (fuel : Nat) → List Branch → Reading Stmt
  | 0, _ => throw .spent
  | fuel + 1, done => do
    if let some _ ← acceptName x "elsif" then
      let e ← condition x fuel
      optional x (·.isName "then")
      branches line fuel ((e, ← body fuel) :: done)
    else
      let otherwise ← lastBranch fuel
      let _ ← expect x (·.isName "end") .closingEnd
      return .choice done.reverse otherwise line

def lastBranch : (fuel : Nat) → Reading (List Stmt)
  | 0 => throw .spent
  | fuel + 1 => do
    if let some _ ← acceptName x "else" then body fuel else return []

end

end Ends

/-! ### texts -/

def entry (fuel : Nat) : Reading (List Stmt) :=
  match x.dialect with
  | .braced | .functional => Braces.entry x fuel
  | .indented => Indents.entry x fuel
  | .ended => Ends.block x fuel

/-- The program in a text. -/
def program (fuel : Nat) (d : Dialect) (source : String) : Checked Program := do
  let ts ← tokenize d source
  match ← findEntry d ts with
  | none => throw (.mistake (.missingEntry d))
  | some i =>
    let x : Input := { dialect := d, lastLine := endLine ts, tokens := ts }
    let (stmts, _) ← (entry x fuel).run i
    return ⟨stmts, ((← cell ts i).map Token.line).getD x.lastLine⟩

def compile (fuel : Nat) (source dialect : String) : Checked Program :=
  match Dialect.ofName? dialect with
  | none => throw (.mistake (.unknownDialect dialect))
  | some d => program fuel d source

end Cursor

end Ladybug.Script
