import Ladybug.Fault
import Ladybug.Script.Dialect
import Ladybug.Script.Token

/-!
# Mistakes: why a text is no script

* `Wanted`          what a script should have gone on with
* `Mistake`         the causes, and `Mistake.fault`, their report
-/

namespace Ladybug.Script

/-- What should come next. -/
inductive Wanted where
  | op (text context : String)
  | sensor
  | memberName
  | call (name : String)
  | closingBrace
  | whileAfterDo
  | doAfterLoop
  | closingEnd
  | indentedBlock
  | lineEnd
  | statement
deriving DecidableEq, Repr

def Wanted.text : Wanted → String
  | .op text context => "Expected '" ++ text ++ "' " ++ context
  | .sensor => "Expected a sensor such as kara.treeFront()"
  | .memberName => "Expected a method name after 'kara.'"
  | .call name => "Expected '()' after kara." ++ name
  | .closingBrace => "Expected '\x7d'"
  | .whileAfterDo => "Expected 'while' after a do block"
  | .doAfterLoop => "Expected 'do' after 'loop'"
  | .closingEnd => "Expected 'end'"
  | .indentedBlock => "Expected an indented block"
  | .lineEnd => "Expected the end of the line"
  | .statement => "Expected a statement"

inductive Mistake where
  | unknownDialect (name : String)
  | missingEntry (dialect : Dialect)
  | indentation (line : Nat)
  | found (wanted : Wanted) (token : Token)
  | ended (wanted : Wanted) (dialect : Dialect) (line : Nat)
  | commandAsCondition (name : String) (line : Nat)
  | unknownMember (name : String) (line : Nat) (dialect : Dialect)
  | tooDeep
deriving DecidableEq, Repr

/-- what to look for when a script stops too early -/
def hint : Dialect → String
  | .braced | .functional => "Check if you have matching brackets \x7b\x7d and parentheses ()."
  | .indented => "Check the indentation of your blocks."
  | .ended => "Check that every block has a matching 'end'."

namespace Mistake

def message : Mistake → String
  | unknownDialect name => "Unknown language '" ++ name ++ "'. Choose one of: "
    ++ String.intercalate ", " (Dialect.all.map Dialect.name)
  | missingEntry d => "Could not find the main program method. Please define a \""
    ++ d.entryName ++ "\" method in your code.\n\nExample:\n" ++ d.example_
  | indentation _ => "Inconsistent indentation."
  | found wanted t => "Syntax error on line " ++ toString t.line ++ ": " ++ wanted.text
    ++ ", found '" ++ t.shown ++ "'."
  | ended wanted d _ => "Syntax error: " ++ wanted.text ++ ", but the program ended. " ++ hint d
  | commandAsCondition name line => "Error on line " ++ toString line ++ ": \"kara." ++ name
    ++ "\" is a command and cannot be used as a condition."
  | unknownMember name line d => "Error on line " ++ toString line ++ ": \"" ++ name
    ++ "\" is not recognized. Did you spell it correctly? Available commands: "
    ++ d.commandList ++ "."
  | tooDeep => "Error: Your program is nested too deeply to parse."

def line? : Mistake → Option Nat
  | indentation line | ended _ _ line | commandAsCondition _ line | unknownMember _ line _ =>
    some line
  | found _ t => some t.line
  | _ => none

def reason? : Mistake → Option String
  | unknownDialect _ => some "unknown_dialect"
  | missingEntry _ => some "missing_entry"
  | tooDeep => some "too_deep"
  | _ => none

def fault (m : Mistake) : Fault :=
  .parse m.message (m.line?.map Int.ofNat) m.reason?

end Mistake

end Ladybug.Script
