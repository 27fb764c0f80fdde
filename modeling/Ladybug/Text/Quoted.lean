import Ladybug.Text.Digit
import Ladybug.Text.Half
import Ladybug.Text.Printable

/-!
# Quoted text: how a message shows a value that it found

`quote` puts a text between single quotes, or between double quotes when it holds a single quote
and no double one. Characters that cannot be shown are written by their number.
-/

namespace Ladybug.Text

/-- the quote that a text is shown in -/
def quoteMark (s : List Char) : Char :=
  if s.contains '\'' && !s.contains '"' then '"' else '\''

/-- a code point by its number -/
def quoteNumber (code : Nat) : List Char :=
  if code < 0x100 then '\\' :: 'x' :: hexDigits 2 code
  else if code < 0x10000 then '\\' :: 'u' :: hexDigits 4 code
  else '\\' :: 'U' :: hexDigits 8 code

/-- one character between the quotes `q` -/
def quoteChar (q c : Char) : List Char :=
  if c == q || c == '\\' then ['\\', c]
  else if c == '\n' then ['\\', 'n']
  else if c == '\r' then ['\\', 'r']
  else if c == '\t' then ['\\', 't']
  else if isPrintable c then [c]
  else quoteNumber c.toNat

def quoteCode (q : Char) (code : Nat) : List Char :=
  if isHalf code then quoteNumber code else quoteChar q (Char.ofNat code)

def quote (s : String) : String :=
  let cs := s.toList
  let q := quoteMark cs
  String.ofList (q :: (codes cs).flatMap (quoteCode q) ++ [q])

end Ladybug.Text
