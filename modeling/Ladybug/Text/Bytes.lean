import Ladybug.Text.Half

/-!
# Bytes: texts as files hold them

* `encode`   the bytes of a text, one to four for a code point
* `decode?`  the characters that a row of bytes stands for; none when a sequence is cut off,
             overlong, out of range or a surrogate
-/

namespace Ladybug.Text

def encodeCode (n : Nat) : List UInt8 :=
  if n < 0x80 then [n.toUInt8]
  else if n < 0x800 then [(0xC0 + n / 64).toUInt8, (0x80 + n % 64).toUInt8]
  else if n < 0x10000 then
    [(0xE0 + n / 4096).toUInt8, (0x80 + n / 64 % 64).toUInt8, (0x80 + n % 64).toUInt8]
  else
    [(0xF0 + n / 262144).toUInt8, (0x80 + n / 4096 % 64).toUInt8, (0x80 + n / 64 % 64).toUInt8,
      (0x80 + n % 64).toUInt8]

def encode (cs : List Char) : List UInt8 := (codes cs).flatMap encodeCode

/-- a code point of at least `least` that is no surrogate -/
def scalar? (least n : Nat) : Option Char :=
  if least ≤ n && n.isValidChar then some (Char.ofNat n) else none

/-- A character of which `missing` bytes are still to come. -/
structure Pending where
  missing : Nat
  value : Nat
  least : Nat

/-- the characters read so far, the last one first, and the one begun -/
structure Decoding where
  done : List Char
  pending : Option Pending

/-- What the first byte of a character says. -/
def Decoding.first (done : List Char) (b : Nat) : Option Decoding :=
  if b < 0x80 then some ⟨Char.ofNat b :: done, none⟩
  else if b < 0xC0 then none
  else if b < 0xE0 then some ⟨done, some ⟨1, b - 0xC0, 0x80⟩⟩
  else if b < 0xF0 then some ⟨done, some ⟨2, b - 0xE0, 0x800⟩⟩
  else if b < 0xF8 then some ⟨done, some ⟨3, b - 0xF0, 0x10000⟩⟩
  else none

def Decoding.next (d : Decoding) (byte : UInt8) : Option Decoding :=
  let b := byte.toNat
  match d.pending with
  | none => Decoding.first d.done b
  | some p =>
    if 0x80 ≤ b && b < 0xC0 then
      let value := p.value * 64 + (b - 0x80)
      if p.missing ≤ 1 then (scalar? p.least value).map fun c => ⟨c :: d.done, none⟩
      else some ⟨d.done, some ⟨p.missing - 1, value, p.least⟩⟩
    else none

def decode? (bs : List UInt8) : Option (List Char) := do
  let d ← bs.foldlM Decoding.next ⟨[], none⟩
  if d.pending.isSome then none else some d.done.reverse

end Ladybug.Text
