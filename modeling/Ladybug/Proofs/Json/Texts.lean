import Ladybug.Proofs.Json.Scalars

/-!
# Texts of all scripts in JSON

A saved program holds letters of all scripts as they are; only quotes, backslashes and controls are
escaped, and none of those is half of a pair.

* `ReadsCode`            what is written for a code point gives the code point, whatever comes next
* `readsText_of_codes`   a text is read back if each of its code points is
* `readsCode_unit`       four hexadecimal digits
* `unicode_readsCode`    every code point in a saved program
* `readsText_of_sound`   every text in a saved program is read back
-/

namespace Ladybug.Json
open Ladybug

/-- An escape that is no half of a pair stands for itself. -/
theorem joined_unit {n : Nat} (h : Text.isHalf n = false) (ps : List Piece) :
    joined (.unit n :: ps) = Text.ofCode n ++ joined ps := by
  cases ps with
  | nil => rfl
  | cons p ps =>
    cases p with
    | char c => rfl
    | unit l =>
      have hno : ¬ (0xD800 ≤ n ∧ n < 0xDC00) := by
        simp only [Text.isHalf, Bool.and_eq_false_iff, decide_eq_false_iff_not] at h
        omega
      simp [joined, hno]

/-- The text `cs`, which is written for a code point, gives the code point, whatever comes next. -/
def ReadsCode (cs : List Char) (n : Nat) : Prop :=
  ∃ qs : List Piece,
    (∀ start c rest done,
      pieces start (cs ++ c :: rest) done = pieces start (c :: rest) (qs.reverse ++ done))
    ∧ ∀ ps, joined (qs ++ ps) = Text.ofCode n ++ joined ps

/-- A text is read back if each of its code points is. -/
theorem readsText_of_codes {f : Form} {s : String} (h : Text.Sound s.toList)
    (hcodes : ∀ n ∈ Text.codes s.toList, ReadsCode (f.escape n) n) : f.ReadsText s := by
  have hread : ∃ ps, joined ps = s.toList ∧ ∀ start rest done,
      pieces start ((Text.codes s.toList).flatMap f.escape ++ '"' :: rest) done
        = .ok (done.reverse ++ ps, rest) := by
    generalize s.toList = cs at h hcodes
    induction h with
    | nil => exact ⟨[], rfl, fun start rest done => by rw [List.append_nil]; rfl⟩
    | @code n cs hn _ ih =>
      rw [Text.codes_ofCode hn, List.forall_mem_cons] at hcodes
      obtain ⟨qs, hpieces, hjoined⟩ := hcodes.1
      obtain ⟨ps, hps, hrest⟩ := ih hcodes.2
      refine ⟨qs ++ ps, by rw [hjoined, hps], fun start rest done => ?_⟩
      obtain ⟨c, more, hmore⟩ : ∃ c more,
          (Text.codes cs).flatMap f.escape ++ '"' :: rest = c :: more :=
        List.exists_cons_of_ne_nil (List.append_ne_nil_of_right_ne_nil _ (List.cons_ne_nil _ _))
      rw [Text.codes_ofCode hn, List.flatMap_cons, List.append_assoc, hmore, hpieces, ← hmore,
        hrest, List.reverse_append, List.reverse_reverse, List.append_assoc]
  intro rest
  obtain ⟨ps, hps, hpieces⟩ := hread
  rw [string, hpieces]
  simp only [List.reverse_nil, List.nil_append, hps, String.ofList_toList]

/-! ### escapes -/

/-- A code point below all halves. -/
theorem not_isHalf_of_lt {n : Nat} (h : n < 0xD800) : Text.isHalf n = false := by
  rw [Text.isHalf, decide_eq_false (Nat.not_le.mpr h), Bool.false_and]

theorem readsCode_letter {e : Char × Char} (h : e ∈ escapeLetters) :
    ReadsCode ['\\', e.2] e.1.toNat := by
  refine ⟨[.unit e.1.toNat], ?_, ?_⟩
  · simp only [escapeLetters, List.mem_cons, List.not_mem_nil, or_false] at h
    intro start c rest done
    rcases h with rfl | rfl | rfl | rfl | rfl | rfl | rfl <;> rfl
  · have hsmall : ∀ e ∈ escapeLetters, e.1.toNat < 0xD800 := by decide
    exact joined_unit (not_isHalf_of_lt (hsmall e h))

theorem hexDigits_four (n : Nat) :
    Text.hexDigits 4 n = [Text.hexDigit (n / 4096 % 16), Text.hexDigit (n / 256 % 16),
      Text.hexDigit (n / 16 % 16), Text.hexDigit (n % 16)] := by
  simp [Text.hexDigits, Nat.div_div_eq_div_mul]

theorem hexValue?_hexDigit {n : Nat} (h : n < 16) : Text.hexValue? (Text.hexDigit n) = some n := by
  have hall : ∀ n : Fin 16, Text.hexValue? (Text.hexDigit n) = some n.val := by decide
  exact hall ⟨n, h⟩

/-- Four digits are read as the code unit that they write. -/
theorem pieces_unit {n : Nat} (h : n < 0x10000) (start : List Char) (c : Char) (rest : List Char)
    (done : List Piece) :
    pieces start (unitEscape n ++ c :: rest) done = pieces start (c :: rest) (.unit n :: done) := by
  have hunit : hexUnit? (Text.hexDigit (n / 4096 % 16)) (Text.hexDigit (n / 256 % 16))
      (Text.hexDigit (n / 16 % 16)) (Text.hexDigit (n % 16)) = some n := by
    have hvalue : n / 4096 % 16 * 4096 + n / 256 % 16 * 256 + n / 16 % 16 * 16 + n % 16 = n := by
      omega
    have hdigit (m : Nat) : Text.hexValue? (Text.hexDigit (m % 16)) = some (m % 16) :=
      hexValue?_hexDigit (Nat.mod_lt m (by decide))
    simp only [hexUnit?, hdigit, Option.bind_eq_bind, Option.bind_some, hvalue]
  simp [unitEscape, hexDigits_four, pieces, hunit]

theorem readsCode_unit {n : Nat} (h : n < 0x10000) (hhalf : Text.isHalf n = false) :
    ReadsCode (unitEscape n) n :=
  ⟨[.unit n], pieces_unit h, joined_unit hhalf⟩

theorem unicode_readsCode {n : Nat} (hn : n < 0x110000) : ReadsCode (escapeControl n) n := by
  unfold escapeControl
  split
  case h_1 e he =>
    have hfound := List.find?_some (p := fun e : Char × Char => e.1.toNat == n) he
    have heq : e.1.toNat = n := beq_iff_eq.mp hfound
    exact heq ▸ readsCode_letter (List.mem_of_find?_eq_some he)
  case h_2 hnone =>
    split_ifs with hcontrol
    · exact readsCode_unit (by omega) (not_isHalf_of_lt (by omega))
    · refine ⟨(Text.ofCode n).map .char, fun start c rest done => pieces_chars ?_ _ _ _,
        joined_chars _⟩
      have hletter : ∀ e ∈ escapeLetters, e.1.toNat ≠ n := fun e he heq =>
        List.find?_eq_none.mp hnone e he (beq_iff_eq.mpr heq)
      have hquote : n ≠ '"'.toNat := Ne.symm (hletter ('"', '"') (by decide))
      have hslash : n ≠ '\\'.toNat := Ne.symm (hletter ('\\', '\\') (by decide))
      intro d hd
      have hcode := Text.toNat_of_mem_ofCode hn hd
      refine ⟨?_, ?_, by omega⟩
      · rintro rfl
        exact hcode.elim (fun h => hquote h.symm) (by decide)
      · rintro rfl
        exact hcode.elim (fun h => hslash h.symm) (by decide)

/-- **Every text in a saved program is read back.** -/
theorem readsText_of_sound {s : String} (h : Text.Sound s.toList) : unicode.ReadsText s :=
  readsText_of_codes h fun _ hn => unicode_readsCode (h.lt_of_mem_codes hn)

end Ladybug.Json
