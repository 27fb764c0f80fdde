/-!
# Base 64: bytes written with 64 signs

`decode64?` reads the bytes of a text, three for four signs. Characters that are no signs do not
count, and a complete padding ends the text; one whose last group is not complete has none.
-/

namespace Ladybug.Text

/-- the sign of each number below 64 -/
def signs64 : List Char :=
  "ABCDEFGHIJKLMNOPQRSTUVWXYZabcdefghijklmnopqrstuvwxyz0123456789+/".toList

/-- The bytes so far, the last one first, the signs of the group that has begun, the value of those
bits of them that are in no byte yet, and the signs of padding after them. -/
structure Group where
  done : List UInt8 := []
  signs : Nat := 0
  left : Nat := 0
  padding : Nat := 0

/-- The group with one more sign. -/
def Group.add (g : Group) (n : Nat) : Group :=
  match g.signs with
  | 0 => { g with signs := 1, left := n, padding := 0 }
  | 1 => ⟨(g.left * 4 + n / 16).toUInt8 :: g.done, 2, n % 16, 0⟩
  | 2 => ⟨(g.left * 16 + n / 4).toUInt8 :: g.done, 3, n % 4, 0⟩
  | _ => ⟨(g.left * 64 + n).toUInt8 :: g.done, 0, 0, 0⟩

def decodeFrom (g : Group) : List Char → Option (List UInt8)
  | [] => if g.signs = 0 then some g.done.reverse else none
  | c :: cs =>
    if c == '=' then
      if g.signs < 2 then decodeFrom g cs
      else if 4 ≤ g.signs + g.padding + 1 then some g.done.reverse
      else decodeFrom { g with padding := g.padding + 1 } cs
    else match signs64.idxOf? c with
      | some n => decodeFrom (g.add n) cs
      | none => decodeFrom g cs

def decode64? (cs : List Char) : Option (List UInt8) := decodeFrom {} cs

end Ladybug.Text
