/-!
# Arguments of a command line

* `Arguments`        the words, the options with their values, and whether help was asked for
* `Arguments.read`   the arguments, if every option is known and has its value
-/

namespace Ladybug.Console

structure Arguments where
  words : List String := []
  options : List (String × String) := []
  help : Bool := false
deriving DecidableEq, Repr

namespace Arguments

def addWord (word : String) (a : Arguments) : Arguments := { a with words := word :: a.words }

def addOption (name value : String) (a : Arguments) : Arguments :=
  { a with options := (name, value) :: a.options }

def askHelp (a : Arguments) : Arguments := { a with help := true }

/-- The value of an option, the last one if it is given again. -/
def value? (a : Arguments) (name : String) : Option String :=
  (a.options.reverse.find? fun o => o.1 == name).map Prod.snd

/-- what one argument is -/
inductive Shape where
  | word
  | help
  | option (name : String)
  | valued (name value : String)
  | unknown
deriving DecidableEq, Repr

def longHelp : String := "--help"

/-- the short form of asking for help, once or more often -/
def isShortHelp : List Char → Bool
  | '-' :: 'h' :: cs => cs.all (· == 'h')
  | _ => false

def shape (names : List String) (arg : String) : Shape :=
  let cs := arg.toList
  match cs with
  | '-' :: _ :: _ =>
    let name := String.ofList (cs.takeWhile (· != '='))
    match cs.dropWhile (· != '=') with
    | _ :: value =>
      if names.contains name then .valued name (String.ofList value) else .unknown
    | [] =>
      if names.contains name then .option name
      else if arg == longHelp || isShortHelp cs then .help
      else .unknown
  | _ => .word

/-- what ends the options -/
def endOfOptions : String := "--"

/-- The arguments, `names` being the options with a value. Unless options may stand among the words
the first word ends them. -/
def read (names : List String) (mixed : Bool) : List String → Option Arguments
  | [] => some {}
  | arg :: rest =>
    if arg == endOfOptions then some { words := rest }
    else match shape names arg with
      | .word =>
        if mixed then (read names mixed rest).map (addWord arg)
        else some { words := arg :: rest }
      | .help => (read names mixed rest).map askHelp
      | .valued name value => (read names mixed rest).map (addOption name value)
      | .option name =>
        match rest with
        | value :: rest => (read names mixed rest).map (addOption name value)
        | [] => none
      | .unknown => none

end Arguments

end Ladybug.Console
