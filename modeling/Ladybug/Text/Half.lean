/-!
# Halves: one code unit of a pair without the other

Documents that give characters by their code units may give one half of a pair alone, which is no
character. A text holds a half as a mark and a character after it. The mark is no character of any
script; where it stands for itself, it is held twice. All other characters stand for themselves.

* `ofCode`    a code point as texts hold it
* `codes`     the code points that a text holds
* `taken`     characters from outside as texts hold them; `held` does the same for a text
* `plain?`    the characters of a text as they are outside, if it holds no half
* `mended`    a text with every half replaced
* `outside`   a text as it is outside, every half replaced
-/

namespace Ladybug.Text

def mark : Char := '\uFFFF'

def isHalf (code : Nat) : Bool := 0xD800 ≤ code && code < 0xE000

/-- what lies between a half and the character after its mark -/
def halfShift : Nat := 0x800

def ofCode (code : Nat) : List Char :=
  if isHalf code then [mark, Char.ofNat (code + halfShift)]
  else if code == mark.toNat then [mark, mark]
  else [Char.ofNat code]

/-- the code point that a mark and the character after it hold -/
def marked (c : Char) : Nat := if c == mark then mark.toNat else c.toNat - halfShift

def codes : List Char → List Nat
  | [] => []
  | [c] => [c.toNat]
  | c :: d :: cs => if c == mark then marked d :: codes cs else c.toNat :: codes (d :: cs)

theorem toNat_ofNat_half {code : Nat} (h : isHalf code = true) :
    (Char.ofNat (code + halfShift)).toNat = code + halfShift := by
  simp only [isHalf, Bool.and_eq_true, decide_eq_true_eq] at h
  have hv : (code + halfShift).isValidChar := by
    simp only [Nat.isValidChar, halfShift]
    omega
  rw [Char.ofNat, dif_pos hv]
  rfl

/-- Every half is read back. -/
theorem codes_ofCode_half {code : Nat} (h : isHalf code = true) (cs : List Char) :
    codes (ofCode code ++ cs) = code :: codes cs := by
  have hn := toNat_ofNat_half h
  have hne : (Char.ofNat (code + halfShift) == mark) = false := by
    refine beq_eq_false_iff_ne.2 fun hm => ?_
    rw [hm] at hn
    simp only [isHalf, Bool.and_eq_true, decide_eq_true_eq] at h
    simp only [mark, halfShift] at hn
    have : '\uFFFF'.toNat = 0xFFFF := rfl
    omega
  simp [ofCode, h, codes, marked, hne, hn]

def taken (cs : List Char) : List Char := cs.flatMap fun c => ofCode c.toNat

def held (s : String) : String := String.ofList (taken s.toList)

def hasHalf (s : String) : Bool := (codes s.toList).any isHalf

def plain? (cs : List Char) : Option (List Char) :=
  (codes cs).mapM fun n => if isHalf n then none else some (Char.ofNat n)

/-- Each half as three signs for a character that is unknown, one for each of its bytes. -/
def mended (s : String) : String :=
  String.ofList <| (codes s.toList).flatMap fun n =>
    if isHalf n then List.replicate 3 '\uFFFD' else ofCode n

def outside (s : String) : String :=
  String.ofList <| (codes (mended s).toList).map Char.ofNat

end Ladybug.Text
