import Ladybug.Script.Parse

/-!
# Programs as texts

A program is written as an outline, lines with the lines that belong to them; an outline is written
as rows, each as far to the right as its level says. Every dialect has its own words and its own
ends of blocks.

* `Expr.faces`        the tokens of a condition; conjunctions and disjunctions inside another
  condition stand in parentheses
* `Stmt.outlines`     the lines of a statement
* `programOutlines`   the lines of a program, from the header of the entry routine on
* `print`             the text of a program
-/

namespace Ladybug.Script

/-! ### words -/

/-- the kind and the text of a token -/
abbrev Face := Kind × String

def Token.face (t : Token) : Face := (t.kind, t.text)

def word (s : String) : Face := (.name, s)
def sign (s : String) : Face := (.op, s)

def notFace (d : Dialect) : Face := if d = .indented then word "not" else sign "!"
def andFace (d : Dialect) : Face := if d = .indented then word "and" else sign "&&"
def orFace (d : Dialect) : Face := if d = .indented then word "or" else sign "||"

def literalName (d : Dialect) (b : Bool) : String :=
  match d with
  | .indented => if b then "True" else "False"
  | _ => if b then "true" else "false"

def commandName (d : Dialect) : Command → String
  | .moveForward => "move"
  | .turnLeft => if d.hasBraces then "turnLeft" else "turn_left"
  | .turnRight => if d.hasBraces then "turnRight" else "turn_right"
  | .placeClover => if d.hasBraces then "putLeaf" else "put_leaf"
  | .pickClover => if d.hasBraces then "removeLeaf" else "remove_leaf"

def sensorName (d : Dialect) : Detector → String
  | .treeFront => if d.hasBraces then "treeFront" else "tree_front"
  | .treeLeft => if d.hasBraces then "treeLeft" else "tree_left"
  | .treeRight => if d.hasBraces then "treeRight" else "tree_right"
  | .mushroomFront => if d.hasBraces then "mushroomFront" else "mushroom_front"
  | .onLeaf => if d.hasBraces then "onLeaf" else "on_leaf"

/-- a name that is called on the receiver, and what follows it -/
def memberFaces (name : String) (after : List Face) : List Face :=
  word receiver :: sign "." :: word name :: after

def commandFaces (d : Dialect) (c : Command) : List Face :=
  memberFaces (commandName d c) (if d = .ended then [] else [sign "(", sign ")"])

def sensorFaces (d : Dialect) (s : Detector) : List Face :=
  memberFaces (sensorName d s) (if d = .ended then [sign "?"] else [sign "(", sign ")"])

/-! ### conditions -/

def Expr.isJunction : Expr → Bool
  | .and _ _ | .or _ _ => true
  | _ => false

/-- the tokens of an operand, given those that it has elsewhere -/
def Expr.enclosed (e : Expr) (fs : List Face) : List Face :=
  if e.isJunction then sign "(" :: fs ++ [sign ")"] else fs

mutual

def Expr.faces (d : Dialect) : Expr → List Face
  | .sensor s _ => sensorFaces d s
  | .literal b _ => [word (literalName d b)]
  | .not e _ => notFace d :: e.enclosed (e.faces d)
  | .and es _ => (separatedFaces d (andFace d) es).tail
  | .or es _ => (separatedFaces d (orFace d) es).tail

/-- operands, each with the separator before it -/
def separatedFaces (d : Dialect) (sep : Face) : List Expr → List Face
  | [] => []
  | e :: es => sep :: e.enclosed (e.faces d) ++ separatedFaces d sep es

end

/-! ### statements -/

/-- A line of a script, and the lines one level deeper that belong to it. -/
inductive Outline where
  | line (faces : List Face) (below : List Outline)

/-- a line with nothing below -/
def Outline.bare (faces : List Face) : Outline := .line faces []

/-- what ends a simple statement -/
def stopFaces (d : Dialect) : List Face := if d.hasBraces then [sign ";"] else []

/-- the line that begins a block with a condition -/
def headFaces (d : Dialect) (words : List String) (condition : List Face) : List Face :=
  words.map word ++
    match d with
    | .braced | .functional => sign "(" :: condition ++ [sign ")", sign "\x7b"]
    | .indented => condition ++ [sign ":"]
    | .ended => condition

def elseFaces (d : Dialect) : List Face :=
  word "else" ::
    match d with
    | .braced | .functional => [sign "\x7b"]
    | .indented => [sign ":"]
    | .ended => []

def elseIfWords (d : Dialect) : List String :=
  match d with
  | .braced | .functional => ["else", "if"]
  | .indented => ["elif"]
  | .ended => ["elsif"]

/-- a block, which must not be empty in an indented script -/
def filled (d : Dialect) (block : List Outline) : List Outline :=
  if d = .indented ∧ block.isEmpty then [.bare [word "pass"]] else block

/-- a line and its block, with the brace at the end of the block -/
def part (d : Dialect) (head : List Face) (block : List Outline) : List Outline :=
  .line head block :: if d.hasBraces then [.bare [sign "\x7d"]] else []

/-- what ends a loop, a choice or a program -/
def endLines (d : Dialect) : List Outline := if d = .ended then [.bare [word "end"]] else []

mutual

def Stmt.outlines (d : Dialect) : Stmt → List Outline
  | .command c _ => [.bare (commandFaces d c ++ stopFaces d)]
  | .ask e _ => [.bare (e.faces d ++ stopFaces d)]
  | .loop e body _ =>
    part d (headFaces d ["while"] (e.faces d)) (filled d (blockOutlines d body)) ++ endLines d
  | .choice branches otherwise _ =>
    branchOutlines d ["if"] branches ++
      (if otherwise.isEmpty then []
        else part d (elseFaces d) (filled d (blockOutlines d otherwise))) ++
      endLines d

def blockOutlines (d : Dialect) : List Stmt → List Outline
  | [] => []
  | s :: rest => s.outlines d ++ blockOutlines d rest

def branchOutlines (d : Dialect) (words : List String) : List (Expr × List Stmt) → List Outline
  | [] => []
  | (e, body) :: rest =>
    part d (headFaces d words (e.faces d)) (filled d (blockOutlines d body)) ++
      branchOutlines d (elseIfWords d) rest

end

/-! ### programs -/

def headerFaces : Dialect → List Face
  | .braced =>
    [word "void", word "myProgram", sign "(", sign ")", sign "\x7b"]
  | .functional =>
    [word "function", word "myProgram", sign "(", sign ")", sign "\x7b"]
  | .indented =>
    [word "def", word "my_program", sign "(", word "self", sign ")", sign ":"]
  | .ended => [word "def", word "my_program"]

def programOutlines (d : Dialect) (body : List Stmt) : List Outline :=
  part d (headerFaces d) (filled d (blockOutlines d body)) ++ endLines d

/-- A line of a text and its level. -/
structure Row where
  level : Nat
  faces : List Face

mutual

def Outline.rows (level : Nat) : Outline → List Row
  | .line faces below => ⟨level, faces⟩ :: rowsOf (level + 1) below

def rowsOf (level : Nat) : List Outline → List Row
  | [] => []
  | o :: os => o.rows level ++ rowsOf level os

end

/-! ### texts -/

/-- two tokens that would be read as one, or as others, if nothing stood between them -/
def runTogether (f g : Face) : Bool :=
  if f.1 = .name then g.1 == .name
  else longOps.any fun p => f.2.toList == [p.1] && g.2.toList.head? == some p.2

/-- a word after which a parenthesis belongs to a condition, not to a call -/
def isKeyword (f : Face) : Bool :=
  ["while", "if", "elif", "elsif", "not", "and", "or", "&&", "||"].contains f.2

/-- whether a blank stands between two tokens of a line -/
def spaced (f g : Face) : Bool :=
  runTogether f g ||
    !(["(", ".", "!"].contains f.2 || [")", ";", ".", ":", "?"].contains g.2
      || g.2 == "(" && !isKeyword f)

def Face.piece (f : Face) : Piece := ⟨some f.1, f.2.toList⟩

def gap (width : Nat) : Piece := ⟨none, List.replicate width ' '⟩

def lineFeed : Piece := ⟨none, ['\n']⟩

/-- the tokens of a line with the blanks between them -/
def spread : List Face → List Piece
  | [] => []
  | [f] => [Face.piece f]
  | f :: g :: fs =>
    Face.piece f :: (if spaced f g then [gap 1] else []) ++ spread (g :: fs)

/-- the width of a level -/
def levelWidth : Nat := 4

def Row.column (r : Row) : Nat := levelWidth * r.level

def Row.pieces (r : Row) : List Piece :=
  (if r.level = 0 then [] else [gap r.column]) ++ spread r.faces ++ [lineFeed]

def textOf (ps : List Piece) : List Char := ps.flatMap Piece.text

def outlineText (os : List Outline) : String :=
  String.ofList (textOf ((rowsOf 0 os).flatMap Row.pieces))

/-- The text of a program in a dialect. -/
def print (d : Dialect) (body : List Stmt) : String := outlineText (programOutlines d body)

end Ladybug.Script
