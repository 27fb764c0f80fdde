import Ladybug.Yaml.Moment

/-!
# What plain scalars look like

`guess` gives the tag of a scalar that says none: it looks like a word for a truth value or for
nothing, like a number, a date, or one of the signs that stand for themselves. A line end at the end
does not count.
-/

namespace Ladybug.Yaml

/-! ### words -/

def capitalized (s : String) : String :=
  match s.toList with
  | [] => ""
  | c :: cs => String.ofList (c.toUpper :: cs)

/-- a word in small letters, with a capital, or in capitals -/
def spellings (s : String) : List String := [s, capitalized s, s.map Char.toUpper]

def yesWords : List String := ["yes", "true", "on"]
def noWords : List String := ["no", "false", "off"]

def isBoolText (s : String) : Bool := ((yesWords ++ noWords).flatMap spellings).contains s

def isNullText (s : String) : Bool := s.isEmpty || s == "~" || (spellings "null").contains s

/-! ### numbers -/

def isDigitOrLine (c : Char) : Bool := isDigit c || c == '_'

def unsigned : List Char → List Char
  | '+' :: cs => cs
  | '-' :: cs => cs
  | cs => cs

/-- a digit, and digits and underscores -/
def isDigits : List Char → Bool
  | c :: cs => isDigit c && cs.all isDigitOrLine
  | [] => false

/-- one digit, or two of which the first is at most five -/
def isSixtieth : List Char → Bool
  | [a] => isDigit a
  | [a, b] => '0' ≤ a && a ≤ '5' && isDigit b
  | _ => false

def inBase (digits : String) (cs : List Char) : Bool :=
  !cs.isEmpty && cs.all fun c => c == '_' || digits.toList.contains c

/-- digits that do not begin with a zero -/
def isCounting : List Char → Bool
  | c :: cs => isDigit c && c != '0' && cs.all isDigitOrLine
  | [] => false

def isIntText (s : String) : Bool :=
  match unsigned s.toList with
  | ['0'] => true
  | '0' :: 'b' :: cs => inBase "01" cs
  | '0' :: 'x' :: cs => inBase "0123456789abcdefABCDEF" cs
  | '0' :: cs => inBase "01234567" cs
  | cs =>
    match cs.splitOn ':' with
    | whole :: parts => isCounting whole && parts.all isSixtieth
    | [] => false

/-- nothing, or a power of ten with its sign -/
def isPower : List Char → Bool
  | [] => true
  | e :: sign :: ds =>
    (e == 'e' || e == 'E') && (sign == '+' || sign == '-') && !ds.isEmpty && ds.all isDigit
  | _ => false

/-- digits and underscores, and a power of ten -/
def isFraction (cs : List Char) : Bool := isPower (cs.dropWhile isDigitOrLine)

/-- A number with a point, its sign taken away. -/
def isPointed (cs : List Char) : Bool :=
  match cs.dropWhile (· != '.') with
  | _ :: rest =>
    match (cs.takeWhile (· != '.')).splitOn ':' with
    | [whole] => isDigits whole && isFraction rest
    | whole :: parts => isDigits whole && parts.all isSixtieth && rest.all isDigitOrLine
    | [] => false
  | [] => false

def isFloatText (s : String) : Bool :=
  let cs := s.toList
  let special (words : List String) (cs : List Char) : Bool :=
    words.any fun w => cs == '.' :: w.toList
  isPointed (unsigned cs) || special ["inf", "Inf", "INF"] (unsigned cs)
    || special ["nan", "NaN", "NAN"] cs
    || match cs with
      | '.' :: c :: rest => isDigit c && isFraction rest
      | _ => false

/-! ### all kinds -/

/-- the signs that would begin a property -/
def propertySigns : List String := ["!", "&", "*"]

/-- The tag of a scalar without a line end at its end. -/
def guessLine (s : String) : String :=
  core <|
    if isBoolText s then "bool"
    else if isFloatText s then "float"
    else if isIntText s then "int"
    else if s == "<<" then "merge"
    else if isNullText s then "null"
    else if isMoment s.toList then "timestamp"
    else if s == "=" then "value"
    else if propertySigns.contains s then "yaml"
    else "str"

/-- The tag of a scalar by its looks. -/
def guess (s : String) : String :=
  if s == "\n" then core "str" else guessLine (String.ofList (withoutLineEnd s.toList))

end Ladybug.Yaml
