/-!
# Blanks: what trimming removes

* `isSpace`   white space in the sense of the character database
* `isBlank`   the same and the four information separators, the blanks of a text line
* `trim`      a text without the blanks around it, for a given class
-/

namespace Ladybug.Text

/-- white space of the character database -/
def isSpace (c : Char) : Bool :=
  let n := c.toNat
  (9 ≤ n && n ≤ 13) || n == 32 || n == 133 || n == 160 || n == 5760
    || (8192 ≤ n && n ≤ 8202) || n == 8232 || n == 8233 || n == 8239 || n == 8287 || n == 12288

/-- white space, or one of the separators 28 to 31 -/
def isBlank (c : Char) : Bool :=
  isSpace c || (28 ≤ c.toNat && c.toNat ≤ 31)

section
variable (p : Char → Bool)

def dropEnd (s : List Char) : List Char := (s.reverse.dropWhile p).reverse

/-- The text between its first and its last character outside the class. -/
def trim (s : List Char) : List Char := dropEnd p (s.dropWhile p)

end

/-- trimming of blanks on strings -/
def trimBlanks (s : String) : String := String.ofList (trim isBlank s.toList)

end Ladybug.Text
