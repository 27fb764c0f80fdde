import Ladybug.Script.Condition

/-!
# Reading statements

A statement gives a list of statements: an empty one gives none, and a loop that tests its condition
at the end gives its body once and then the loop.

* `call`               a command, or a sensor read for nothing
* `repeated`           statements up to a token that ends them
* `Braces`, `Indents`, `Ends`   blocks, bodies and statements of the three kinds of dialects
-/

namespace Ladybug.Script

/-- A command or a sensor after the receiver. -/
def call (s : Setting) : Parser Stmt := fun ts =>
  match member s ts with
  | .error m => .error m
  | .ok (t, rest) =>
    match command? t.text with
    | some c => .ok (.command c t.line, rest)
    | none =>
      match sensor? t.text with
      | some d => .ok (.ask (.sensor d t.line) t.line, rest)
      | none => .error (.unknownMember t.text t.line s.dialect)

/-- Statements as long as `more` says so of the tokens that are left, those before them in reverse.
There are no more of them than tokens in `bound`. -/
def repeatedFrom (more : List Token → Except Mistake Bool) (item : Parser (List Stmt)) :
    (bound : List Token) → List Stmt → Parser (List Stmt)
  | bound, done, ts =>
    match more ts, bound with
    | .error m, _ => .error m
    | .ok false, _ | .ok true, [] => .ok (done.reverse, ts)
    | .ok true, _ :: bound =>
      match item ts with
      | .error m => .error m
      | .ok (stmts, rest) => repeatedFrom more item bound (stmts.reverse ++ done) rest

/-- Statements as long as `more` says so. Every one of them takes a token at least. -/
def repeated (more : List Token → Except Mistake Bool) (item : Parser (List Stmt)) :
    Parser (List Stmt) := fun ts => repeatedFrom more item ts [] ts

abbrev Branch := Expr × List Stmt

/-! ### braces -/

namespace Braces

def more (s : Setting) : List Token → Except Mistake Bool
  | [] => .error (s.wanted .closingBrace [])
  | t :: _ => .ok (!t.isOp "\x7d")

/-- Statements up to a closing brace, which is taken too. -/
def blockRest (s : Setting) (stmt : Parser (List Stmt)) : Parser (List Stmt) := fun ts =>
  match repeated (more s) stmt ts with
  | .ok (body, rest) => .ok (body, rest.drop 1)
  | .error m => .error m

/-- A block or a single statement. -/
def body (s : Setting) (stmt : Parser (List Stmt)) : Parser (List Stmt) := fun ts =>
  match acceptOp "\x7b" ts with
  | some ts => blockRest s stmt ts
  | none => stmt ts

/-- a condition in parentheses -/
def test (s : Setting) (depth : Nat) (keyword : String) : Parser Expr := fun ts =>
  match s.expect "(" ("after '" ++ keyword ++ "'") ts with
  | .error m => .error m
  | .ok (_, ts) =>
    match condition s depth ts with
    | .error m => .error m
    | .ok (e, ts) =>
      match s.expect ")" ("to close the '" ++ keyword ++ "' condition") ts with
      | .error m => .error m
      | .ok (_, ts) => .ok (e, ts)

def branch (s : Setting) (depth : Nat) (keyword : String) (stmt : Parser (List Stmt)) :
    Parser Branch := fun ts =>
  match test s depth keyword ts with
  | .error m => .error m
  | .ok (e, ts) =>
    match body s stmt ts with
    | .error m => .error m
    | .ok (b, ts) => .ok ((e, b), ts)

/-- The rest of a choice after some branches, the last of which comes first. There are fewer
branches than tokens in `bound`. -/
def branches (s : Setting) (depth : Nat) (stmt : Parser (List Stmt)) (line : Nat) :
    (bound : List Token) → List Branch → Parser Stmt
  | [], done, ts => .ok (.choice done.reverse [] line, ts)
  | _ :: bound, done, ts =>
    match acceptName "else" ts with
    | none => .ok (.choice done.reverse [] line, ts)
    | some ts =>
      match acceptName "if" ts with
      | some ts =>
        match branch s depth "if" stmt ts with
        | .error m => .error m
        | .ok (b, ts) => branches s depth stmt line bound (b :: done) ts
      | none =>
        match body s stmt ts with
        | .error m => .error m
        | .ok (otherwise, ts) => .ok (.choice done.reverse otherwise line, ts)

/-- A loop after its keyword. -/
def loop (s : Setting) (depth : Nat) (stmt : Parser (List Stmt)) (line : Nat) :
    Parser (List Stmt) := fun ts =>
  match branch s depth "while" stmt ts with
  | .error m => .error m
  | .ok ((e, b), ts) => .ok ([.loop e b line], ts)

/-- A loop that tests its condition at the end, after its keyword. -/
def doLoop (s : Setting) (depth : Nat) (stmt : Parser (List Stmt)) (line : Nat) :
    Parser (List Stmt) := fun ts =>
  match body s stmt ts with
  | .error m => .error m
  | .ok (b, ts) =>
    match acceptName "while" ts with
    | none => .error (s.wanted .whileAfterDo ts)
    | some ts =>
      match test s depth "while" ts with
      | .error m => .error m
      | .ok (e, ts) => .ok (b ++ [.loop e b line], skipOp ";" ts)

def choice (s : Setting) (depth : Nat) (stmt : Parser (List Stmt)) (line : Nat) :
    Parser (List Stmt) := fun ts =>
  match branch s depth "if" stmt ts with
  | .error m => .error m
  | .ok (b, rest) =>
    match branches s depth stmt line ts [b] rest with
    | .error m => .error m
    | .ok (c, rest) => .ok ([c], rest)

/-- A statement in which statements are nested at most `depth` deep. -/
def statement (s : Setting) : (depth : Nat) → Parser (List Stmt)
  | 0, _ => .error .tooDeep
  | _ + 1, [] => .error (s.wanted .statement [])
  | depth + 1, t :: ts =>
    if t.isOp ";" then .ok ([], ts)
    else if t.isOp "\x7b" then blockRest s (statement s depth) ts
    else if t.isName "while" then loop s depth (statement s depth) t.line ts
    else if t.isName "do" then doLoop s depth (statement s depth) t.line ts
    else if t.isName "if" then choice s depth (statement s depth) t.line ts
    else if t.isName receiver then
      match call s ts with
      | .error m => .error m
      | .ok (c, ts) => .ok ([c], skipOp ";" ts)
    else .error (.found .statement t)

/-- The body of the entry routine with its braces. -/
def entry (s : Setting) (depth : Nat) : Parser (List Stmt) := fun ts =>
  match s.expect "\x7b" "to open the main program" ts with
  | .error m => .error m
  | .ok (_, ts) => blockRest s (statement s depth) ts

end Braces

/-! ### indentation -/

namespace Indents

def isKind (kind : Kind) : List Token → Bool
  | t :: _ => t.kind == kind
  | [] => false

def simple (s : Setting) : Parser (List Stmt)
  | t :: ts =>
    if t.isName "pass" then .ok ([], ts)
    else if t.isName receiver then
      match call s ts with
      | .error m => .error m
      | .ok (c, ts) => .ok ([c], ts)
    else .error (.found .statement t)
  | [] => .error (s.wanted .statement [])

/-- Simple statements after semicolons, those before them in reverse. A semicolon may also stand
at the end of the line. There are fewer statements than tokens in `bound`. -/
def simplesFrom (s : Setting) : (bound : List Token) → List Stmt → Parser (List Stmt)
  | [], done, ts => .ok (done.reverse, ts)
  | _ :: bound, done, ts =>
    match acceptOp ";" ts with
    | none => .ok (done.reverse, ts)
    | some ts =>
      if isKind .newline ts then .ok (done.reverse, ts)
      else
        match simple s ts with
        | .error m => .error m
        | .ok (stmts, ts) => simplesFrom s bound (stmts.reverse ++ done) ts

/-- Simple statements with semicolons between them, up to the end of the line. -/
def simples (s : Setting) : Parser (List Stmt) := fun ts =>
  match simple s ts with
  | .error m => .error m
  | .ok (first, rest) =>
    match simplesFrom s ts first.reverse rest with
    | .error m => .error m
    | .ok (stmts, rest) =>
      if isKind .newline rest then .ok (stmts, rest.drop 1) else .error (s.wanted .lineEnd rest)

def more : List Token → Except Mistake Bool
  | [] => .ok false
  | t :: _ => .ok (t.kind != .dedent)

/-- An indented block, or simple statements on the same line. -/
def suite (s : Setting) (stmt : Parser (List Stmt)) : Parser (List Stmt) := fun ts =>
  if isKind .newline ts then
    let ts := ts.drop 1
    if isKind .indent ts then
      let ts := ts.drop 1
      match repeated more stmt ts with
      | .error m => .error m
      | .ok (body, rest) => .ok (body, rest.drop 1)
    else .error (s.wanted .indentedBlock ts)
  else simples s ts

/-- a condition, a colon and a block -/
def branch (s : Setting) (depth : Nat) (keyword : String) (stmt : Parser (List Stmt)) :
    Parser Branch := fun ts =>
  match condition s depth ts with
  | .error m => .error m
  | .ok (e, ts) =>
    match s.expect ":" ("after the '" ++ keyword ++ "' condition") ts with
    | .error m => .error m
    | .ok (_, ts) =>
      match suite s stmt ts with
      | .error m => .error m
      | .ok (b, ts) => .ok ((e, b), ts)

/-- The rest of a choice after some branches, the last of which comes first. There are fewer
branches than tokens in `bound`. -/
def branches (s : Setting) (depth : Nat) (stmt : Parser (List Stmt)) (line : Nat) :
    (bound : List Token) → List Branch → Parser Stmt
  | [], done, ts => .ok (.choice done.reverse [] line, ts)
  | _ :: bound, done, ts =>
    match acceptName "elif" ts with
    | some ts =>
      match branch s depth "elif" stmt ts with
      | .error m => .error m
      | .ok (b, ts) => branches s depth stmt line bound (b :: done) ts
    | none =>
      match acceptName "else" ts with
      | none => .ok (.choice done.reverse [] line, ts)
      | some ts =>
        match s.expect ":" "after 'else'" ts with
        | .error m => .error m
        | .ok (_, ts) =>
          match suite s stmt ts with
          | .error m => .error m
          | .ok (otherwise, ts) => .ok (.choice done.reverse otherwise line, ts)

def loop (s : Setting) (depth : Nat) (stmt : Parser (List Stmt)) (line : Nat) :
    Parser (List Stmt) := fun ts =>
  match branch s depth "while" stmt ts with
  | .error m => .error m
  | .ok ((e, b), ts) => .ok ([.loop e b line], ts)

def choice (s : Setting) (depth : Nat) (stmt : Parser (List Stmt)) (line : Nat) :
    Parser (List Stmt) := fun ts =>
  match branch s depth "if" stmt ts with
  | .error m => .error m
  | .ok (b, rest) =>
    match branches s depth stmt line ts [b] rest with
    | .error m => .error m
    | .ok (c, rest) => .ok ([c], rest)

/-- A statement in which statements are nested at most `depth` deep. -/
def statement (s : Setting) : (depth : Nat) → Parser (List Stmt)
  | 0, _ => .error .tooDeep
  | _ + 1, [] => .error (s.wanted .statement [])
  | depth + 1, t :: ts =>
    if t.isName "while" then loop s depth (statement s depth) t.line ts
    else if t.isName "if" then choice s depth (statement s depth) t.line ts
    else simples s (t :: ts)

/-- The body of the entry routine after its header. -/
def entry (s : Setting) (depth : Nat) : Parser (List Stmt) := fun ts =>
  match s.expect ":" "after the method definition" ts with
  | .error m => .error m
  | .ok (_, ts) => suite s (statement s depth) ts

end Indents

/-! ### `end` -/

namespace Ends

def terminators : List String := ["end", "else", "elsif"]

def isSeparator (t : Token) : Bool := t.kind == .newline || t.isOp ";"

def skip (ts : List Token) : List Token := ts.dropWhile isSeparator

def more (s : Setting) (ts : List Token) : Except Mistake Bool :=
  match ts with
  | [] => .error (s.wanted .closingEnd [])
  | t :: _ => .ok (!t.isNameIn terminators)

/-- a statement and the separators after it -/
def separated (stmt : Parser (List Stmt)) : Parser (List Stmt) := fun ts =>
  match stmt ts with
  | .error m => .error m
  | .ok (stmts, ts) => .ok (stmts, skip ts)

/-- Statements up to a word that ends them. -/
def body (s : Setting) (stmt : Parser (List Stmt)) : Parser (List Stmt) := fun ts =>
  repeated (more s) (separated stmt) (skip ts)

def close (s : Setting) (ts : List Token) : Except Mistake (List Token) :=
  match acceptName "end" ts with
  | some ts => .ok ts
  | none => .error (s.wanted .closingEnd ts)

def block (s : Setting) (stmt : Parser (List Stmt)) : Parser (List Stmt) := fun ts =>
  match body s stmt ts with
  | .error m => .error m
  | .ok (b, ts) =>
    match close s ts with
    | .error m => .error m
    | .ok ts => .ok (b, ts)

/-- a condition that a keyword may turn round -/
def test (s : Setting) (depth : Nat) (negated : Bool) (line : Nat) : Parser Expr := fun ts =>
  match condition s depth ts with
  | .error m => .error m
  | .ok (e, ts) => .ok (if negated then .not e line else e, ts)

def branch (s : Setting) (depth : Nat) (negated : Bool) (line : Nat) (stmt : Parser (List Stmt)) :
    Parser Branch := fun ts =>
  match test s depth negated line ts with
  | .error m => .error m
  | .ok (e, ts) =>
    match body s stmt (skipName "then" ts) with
    | .error m => .error m
    | .ok (b, ts) => .ok ((e, b), ts)

/-- The rest of a choice after some branches, the last of which comes first. There are fewer
branches than tokens in `bound`. -/
def branches (s : Setting) (depth : Nat) (stmt : Parser (List Stmt)) (line : Nat) :
    (bound : List Token) → List Branch → Parser Stmt
  | [], done, ts => .ok (.choice done.reverse [] line, ts)
  | _ :: bound, done, ts =>
    match acceptName "elsif" ts with
    | some ts =>
      match branch s depth false line stmt ts with
      | .error m => .error m
      | .ok (b, ts) => branches s depth stmt line bound (b :: done) ts
    | none =>
      match acceptName "else" ts with
      | none =>
        match close s ts with
        | .error m => .error m
        | .ok ts => .ok (.choice done.reverse [] line, ts)
      | some ts =>
        match block s stmt ts with
        | .error m => .error m
        | .ok (otherwise, ts) => .ok (.choice done.reverse otherwise line, ts)

def loop (s : Setting) (depth : Nat) (negated : Bool) (stmt : Parser (List Stmt)) (line : Nat) :
    Parser (List Stmt) := fun ts =>
  match test s depth negated line ts with
  | .error m => .error m
  | .ok (e, ts) =>
    match block s stmt (skipName "do" ts) with
    | .error m => .error m
    | .ok (b, ts) => .ok ([.loop e b line], ts)

def forever (s : Setting) (stmt : Parser (List Stmt)) (line : Nat) : Parser (List Stmt) :=
  fun ts =>
    match acceptName "do" ts with
    | none => .error (s.wanted .doAfterLoop ts)
    | some ts =>
      match block s stmt ts with
      | .error m => .error m
      | .ok (b, ts) => .ok ([.loop (.literal true line) b line], ts)

def choice (s : Setting) (depth : Nat) (negated : Bool) (stmt : Parser (List Stmt)) (line : Nat) :
    Parser (List Stmt) := fun ts =>
  match branch s depth negated line stmt ts with
  | .error m => .error m
  | .ok (b, rest) =>
    match branches s depth stmt line ts [b] rest with
    | .error m => .error m
    | .ok (c, rest) => .ok ([c], rest)

/-- The statement that a modifier makes of the one before it. -/
def modified (keyword : Token) (e : Expr) (stmt : Stmt) : Stmt :=
  let e := if keyword.isNameIn ["unless", "until"] then .not e keyword.line else e
  if keyword.isNameIn ["if", "unless"] then .choice [(e, [stmt])] [] keyword.line
  else .loop e [stmt] keyword.line

/-- A statement with the modifiers that follow it; there are no more of them than tokens in
`bound`. -/
def modifiers (s : Setting) (depth : Nat) : (bound : List Token) → Stmt → Parser Stmt
  | [], stmt, ts => .ok (stmt, ts)
  | _ :: _, stmt, [] => .ok (stmt, [])
  | _ :: bound, stmt, t :: ts =>
    if t.isNameIn ["if", "unless", "while", "until"] then
      match condition s depth ts with
      | .error m => .error m
      | .ok (e, ts) => modifiers s depth bound (modified t e stmt) ts
    else .ok (stmt, t :: ts)

/-- A statement in which statements are nested at most `depth` deep. -/
def statement (s : Setting) : (depth : Nat) → Parser (List Stmt)
  | 0, _ => .error .tooDeep
  | _ + 1, [] => .error (s.wanted .statement [])
  | depth + 1, t :: ts =>
    if t.isName "while" then loop s depth false (statement s depth) t.line ts
    else if t.isName "until" then loop s depth true (statement s depth) t.line ts
    else if t.isName "loop" then forever s (statement s depth) t.line ts
    else if t.isName "if" then choice s depth false (statement s depth) t.line ts
    else if t.isName "unless" then choice s depth true (statement s depth) t.line ts
    else if t.isName receiver then
      match call s ts with
      | .error m => .error m
      | .ok (c, ts) =>
        match modifiers s depth ts c ts with
        | .error m => .error m
        | .ok (c, ts) => .ok ([c], ts)
    else .error (.found .statement t)

/-- The body of the entry routine after its header. -/
def entry (s : Setting) (depth : Nat) : Parser (List Stmt) := block s (statement s depth)

end Ends

end Ladybug.Script
