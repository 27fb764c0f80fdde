import Ladybug.Script.Lines
import Ladybug.Script.Statement

/-!
# From a text to a program

Only the entry routine of a script is read; what stands around it does not matter.

* `entryBody?`    the tokens from the body of the entry routine on
* `parseTokens`   the program in some tokens
* `parse`         the program in a text, blocks and conditions being nested up to a depth
* `compile`       the same with the depth that running programs are held to
-/

namespace Ladybug.Script

def startsWith (pattern : List (Kind × String)) (ts : List Token) : Bool :=
  (ts.take pattern.length).map (fun t => (t.kind, t.text)) == pattern

/-- The headers of an entry routine, each with the number of tokens before the body. -/
def headers (d : Dialect) : List (List (Kind × String) × Nat) :=
  let entry := (Kind.name, d.entryName)
  match d with
  | .braced =>
    [([(.name, "void"), entry, (.op, "("), (.op, ")"), (.op, "\x7b")], 4)]
  | .functional =>
    [([(.name, "function"), entry, (.op, "("), (.op, ")"), (.op, "\x7b")], 4)]
  | .indented =>
    [([(.name, "def"), entry, (.op, "("), (.name, "self"), (.op, ")"), (.op, ":")], 5),
     ([(.name, "def"), entry, (.op, "("), (.op, ")"), (.op, ":")], 4)]
  | .ended =>
    [([(.name, "def"), entry, (.op, "("), (.op, ")")], 4), ([(.name, "def"), entry], 2)]

/-- The tokens from the body of the entry routine on. -/
def entryBody? (d : Dialect) : List Token → Option (List Token)
  | [] => none
  | t :: ts =>
    match (headers d).find? fun h => startsWith h.1 (t :: ts) with
    | some h => some ((t :: ts).drop h.2)
    | none => entryBody? d ts

def entry (s : Setting) (depth : Nat) : Parser (List Stmt) :=
  match s.dialect with
  | .braced | .functional => Braces.entry s depth
  | .indented => Indents.entry s depth
  | .ended => Ends.entry s depth

def parseTokens (d : Dialect) (depth : Nat) (ts : List Token) : Except Mistake Program :=
  match entryBody? d ts with
  | none => .error (.missingEntry d)
  | some body =>
    let s : Setting := ⟨d, endLine ts⟩
    match entry s depth body with
    | .error m => .error m
    | .ok (stmts, _) => .ok ⟨stmts, s.lineOf body⟩

def parse (d : Dialect) (depth : Nat) (source : String) : Except Mistake Program :=
  match tokenize d source with
  | .error m => .error m
  | .ok ts => parseTokens d depth ts

/-- How deep blocks and conditions may be nested in a program that is compiled or run. It stands for
the recursion limit of the machine that a reader runs on. There every call counts, and a block or a
parenthesis takes several; here each block, negation and parenthesis counts once. -/
def nestingLimit : Nat := 400

/-- The program in a text, the dialect being given by its name. -/
def compile (source dialect : String) : Except Mistake Program :=
  match Dialect.ofName? dialect with
  | none => .error (.unknownDialect dialect)
  | some d => parse d nestingLimit source

/-- Why a text is no program, if so. -/
def validate (source dialect : String) : Option Fault :=
  match compile source dialect with
  | .error m => some m.fault
  | .ok _ => none

end Ladybug.Script
