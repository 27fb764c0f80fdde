import Ladybug.Proofs.Json.Floats
import Ladybug.Proofs.Json.Texts

/-!
# JSON in ASCII

Worlds, commands and progress are saved in ASCII. A code point outside ASCII is written by its code
units, two of them where it needs them.

* `ascii_readsCode`    every code point that is no half of a pair
* `readsText_ascii`    every text without halves is read back
* `Written`            the characters of saved documents: line feeds, and ASCII without controls
* `written_indented`   a document has no others
-/

namespace Ladybug.Json
open Ladybug

/-! ### reading back -/

/-- A pair of escapes for a code point above the first plane. -/
theorem readsCode_pair {n : Nat} (h : 0x10000 ≤ n) (hn : n < 0x110000) :
    ReadsCode
      (unitEscape (0xD800 + (n - 0x10000) / 0x400) ++ unitEscape (0xDC00 + (n - 0x10000) % 0x400))
      n := by
  have hhigh : (n - 0x10000) / 0x400 < 0x400 := by omega
  have hlow : (n - 0x10000) % 0x400 < 0x400 := by omega
  have hsum : 0x10000 + (n - 0x10000) / 0x400 * 0x400 + (n - 0x10000) % 0x400 = n := by omega
  generalize (n - 0x10000) / 0x400 = high at hhigh hsum
  generalize (n - 0x10000) % 0x400 = low at hlow hsum
  refine ⟨[.unit (0xD800 + high), .unit (0xDC00 + low)], fun start c rest done => ?_,
    fun ps => ?_⟩
  · rw [List.append_assoc]
    show pieces start (_ ++ '\\' :: ('u' :: Text.hexDigits 4 (0xDC00 + low) ++ c :: rest)) done = _
    rw [pieces_unit (by omega)]
    exact pieces_unit (by omega) start c rest _
  · have hpair : 0xD800 ≤ 0xD800 + high ∧ 0xD800 + high < 0xDC00 ∧ 0xDC00 ≤ 0xDC00 + low
        ∧ 0xDC00 + low < 0xE000 := by omega
    have hhalf : Text.isHalf n = false := by
      rw [Text.isHalf, decide_eq_false (show ¬ n < 0xE000 by omega), Bool.and_false]
    have hmark : Text.mark.toNat = 0xFFFF := rfl
    have hcode : Text.ofCode n = [Char.ofNat n] := Text.ofCode_eq_singleton hhalf (by omega)
    simp [joined, hpair, hcode, hsum]

theorem ascii_readsCode {n : Nat} (hn : n < 0x110000) (hhalf : Text.isHalf n = false) :
    ReadsCode (escapeAscii n) n := by
  unfold escapeAscii
  split_ifs with hascii hplane
  · exact unicode_readsCode hn
  · exact readsCode_unit hplane hhalf
  · exact readsCode_pair (Nat.le_of_not_lt hplane) hn

/-- **A text without halves is read back.** -/
theorem readsText_ascii {s : String} (h : Text.Sound s.toList) (hhalf : Text.hasHalf s = false) :
    ascii.ReadsText s := by
  refine readsText_of_codes h fun n hn => ascii_readsCode (h.lt_of_mem_codes hn) ?_
  exact Bool.eq_false_iff.mpr (List.any_eq_false.mp hhalf n hn)

/-! ### the characters of a document -/

/-- A line feed, or a character of ASCII that is no control. -/
def Written (c : Char) : Prop := c = '\n' ∨ 0x20 ≤ c.toNat ∧ c.toNat < 0x80

instance (c : Char) : Decidable (Written c) := inferInstanceAs (Decidable (_ ∨ _))

theorem written_digit {c : Char} (h : c.isDigit = true) : Written c :=
  Decimal.forall_digit (P := Written) (by decide) h

theorem written_hexDigits (width n : Nat) : ∀ c ∈ Text.hexDigits width n, Written c := by
  have hall : ∀ n : Fin 16, Written (Text.hexDigit n) := by decide
  induction width generalizing n with
  | zero => exact fun c hc => nomatch hc
  | succ width ih =>
    rw [Text.hexDigits, List.forall_mem_append, List.forall_mem_singleton]
    exact ⟨ih (n / 16), hall ⟨n % 16, Nat.mod_lt n (by decide)⟩⟩

theorem written_unitEscape (n : Nat) : ∀ c ∈ unitEscape n, Written c := by
  rw [unitEscape, List.forall_mem_cons, List.forall_mem_cons]
  exact ⟨by decide, by decide, written_hexDigits 4 n⟩

theorem written_escapeAscii (n : Nat) : ∀ c ∈ escapeAscii n, Written c := by
  unfold escapeAscii
  split_ifs with hascii
  · unfold escapeControl
    split
    case h_1 e he =>
      have hletters : ∀ e ∈ escapeLetters, Written e.2 := by decide
      rw [List.forall_mem_cons, List.forall_mem_singleton]
      exact ⟨by decide, hletters e (List.mem_of_find?_eq_some he)⟩
    case h_2 =>
      split_ifs with hcontrol
      · exact written_unitEscape n
      · have hmark : Text.mark.toNat = 0xFFFF := rfl
        have hhalf : Text.isHalf n = false := not_isHalf_of_lt (by omega)
        have hchar := Text.toNat_ofNat (show n < 0x110000 by omega) hhalf
        rw [Text.ofCode_eq_singleton hhalf (by omega), List.forall_mem_singleton]
        exact .inr (by omega)
  · exact written_unitEscape n
  · exact List.forall_mem_append.mpr ⟨written_unitEscape _, written_unitEscape _⟩

theorem written_string (s : String) : ∀ c ∈ ascii.string s, Written c := by
  rw [Form.string, List.forall_mem_append, List.forall_mem_cons, List.forall_mem_singleton]
  refine ⟨⟨by decide, fun c hc => ?_⟩, by decide⟩
  obtain ⟨n, -, hc⟩ := List.mem_flatMap.mp hc
  exact written_escapeAscii n c hc

/-! ### numbers -/

section
variable {ds : List Char} (h : ∀ c ∈ ds, Written c)
include h

theorem written_positional (point : Int) : ∀ c ∈ Decimal.positional ⟨ds, point⟩, Written c := by
  have hzeros (k : Nat) : ∀ c ∈ List.replicate k '0', Written c := fun c hc =>
    written_digit (isDigit_replicate k c hc)
  have hpoint : Written '.' := by decide
  have hzero : Written '0' := by decide
  unfold Decimal.positional
  dsimp only
  split_ifs
  · simp only [List.cons_append, List.forall_mem_cons, List.forall_mem_append]
    exact ⟨hzero, hpoint, hzeros _, h⟩
  · simp only [List.forall_mem_append, List.forall_mem_cons]
    exact ⟨⟨h, hzeros _⟩, hpoint, hzero, fun c hc => nomatch hc⟩
  · simp only [List.forall_mem_append, List.forall_mem_cons]
    exact ⟨fun c hc => h c (List.mem_of_mem_take hc), hpoint,
      fun c hc => h c (List.mem_of_mem_drop hc)⟩

theorem written_write (s : Decimal.Style) (point : Int) :
    ∀ c ∈ s.write ⟨ds, point⟩, Written c := by
  have hexponent (e : Int) : ∀ c ∈ s.exponent e, Written c := by
    have hsign : Written (if e < 0 then '-' else '+') := by split_ifs <;> decide
    obtain ⟨digits, hexponent, -, hdigits, -⟩ := exists_exponent s e
    rw [hexponent, List.forall_mem_cons, List.forall_mem_cons]
    exact ⟨by decide, hsign, fun c hc => written_digit (hdigits c hc)⟩
  have hpoint : Written '.' := by decide
  unfold Decimal.Style.write
  dsimp only
  split_ifs
  · exact written_positional h point
  · cases ds with
    | nil => exact hexponent (point - 1)
    | cons d ds =>
      rw [List.forall_mem_cons] at h
      cases ds with
      | nil => exact List.forall_mem_append.mpr ⟨List.forall_mem_singleton.mpr h.1, hexponent _⟩
      | cons e ds =>
        simp only [List.cons_append, List.forall_mem_cons, List.forall_mem_append] at h ⊢
        exact ⟨h.1, hpoint, h.2.1, h.2.2, hexponent _⟩

end

theorem written_search (i : Decimal.Interval) (n d : Nat) (point : Int) (left count : Nat) :
    ∀ c ∈ (Decimal.search i n d point left count).digits, Written c := by
  induction left generalizing count with
  | zero => exact fun c hc => written_digit (Decimal.isDigit_of_mem_toDigits hc)
  | succ left ih =>
    unfold Decimal.search
    split
    · exact fun c hc => written_digit (Decimal.isDigit_of_mem_toDigits hc)
    · exact ih (count + 1)

theorem written_shortest (m : Nat) (e : Int) : ∀ c ∈ (Decimal.shortest m e).digits, Written c := by
  unfold Decimal.shortest
  split_ifs with hzero
  · exact forall_of_all (by decide)
  · dsimp only
    generalize hr : Decimal.search _ _ _ _ _ _ = r
    have hdigits : ∀ c ∈ r.digits, Written c := hr ▸ written_search _ _ _ _ _ _
    rcases Decimal.exists_dropZeros r.digits with ⟨-, -, hdrop⟩ | ⟨k, hdrop⟩
    · rw [hdrop]
      exact forall_of_all (by decide)
    · rw [hdrop, List.forall_mem_append] at hdigits
      exact hdigits.1

theorem written_plain (x : Binary) : ∀ c ∈ (Decimal.plain.show x).toList, Written c := by
  cases x with
  | finite negative m e =>
    have hsign : ∀ c ∈ Decimal.sign negative, Written c := by
      cases negative <;> exact forall_of_all (by decide)
    rw [toList_show, List.forall_mem_append]
    exact ⟨hsign, written_write (written_shortest m e) _ _⟩
  | infinite negative => cases negative <;> exact forall_of_all (by decide)
  | nan => exact forall_of_all (by decide)

/-! ### data -/

theorem written_scalar (d : Datum) : ∀ c ∈ ascii.scalar d, Written c := by
  have hnumber : ∀ c ∈ Decimal.numberChars, Written c := forall_of_all (by decide)
  match d with
  | .null => exact forall_of_all (by decide)
  | .bool b => cases b <;> exact forall_of_all (by decide)
  | .int i => exact fun c hc => hnumber c (Decimal.mem_toString i c hc)
  | .float x => exact written_plain x
  | .list _ =>
    have hbrackets : ∀ c ∈ ['[', ']'], Written c := forall_of_all (by decide)
    exact hbrackets
  | .map _ =>
    have hbraces : ∀ c ∈ ['\x7b', '\x7d'], Written c := forall_of_all (by decide)
    exact hbraces
  | .text _ | .bytes _ | .date _ | .instant _ | .pair _ _ | .set _ | .table _ | .knot _ _
  | .again _ => exact written_string _

theorem written_newLine (level : Nat) : ∀ c ∈ newLine level, Written c := by
  rw [newLine, List.forall_mem_cons]
  exact ⟨.inl rfl, fun c hc => List.eq_of_mem_replicate hc ▸ by decide⟩

mutual

theorem written_lines (level : Nat) (d : Datum) : ∀ c ∈ ascii.lines level d, Written c := by
  match d with
  | .list (d :: ds) =>
    simp only [Form.lines, List.cons_append, List.forall_mem_cons, List.forall_mem_append]
    exact ⟨by decide, ⟨⟨⟨written_newLine _, written_lines _ d⟩, written_itemLines _ ds⟩,
      written_newLine _⟩, by decide, by simp⟩
  | .map ((k, d) :: es) =>
    simp only [Form.lines, List.cons_append, List.forall_mem_cons, List.forall_mem_append]
    exact ⟨by decide, ⟨⟨⟨⟨⟨written_newLine _, written_string k⟩, by decide, by decide, nofun⟩,
      written_lines _ d⟩, written_entryLines _ es⟩, written_newLine _⟩, by decide, by simp⟩
  | .list [] | .map [] | .null | .bool _ | .int _ | .float _ | .text _ | .bytes _ | .date _
  | .instant _ | .pair _ _ | .set _ | .table _ | .knot _ _ | .again _ => exact written_scalar _

theorem written_itemLines (level : Nat) (ds : List Datum) :
    ∀ c ∈ ascii.itemLines level ds, Written c := by
  match ds with
  | [] => exact fun c hc => nomatch hc
  | d :: ds =>
    simp only [Form.itemLines, List.cons_append, List.forall_mem_cons, List.forall_mem_append]
    exact ⟨by decide, ⟨written_newLine level, written_lines level d⟩, written_itemLines level ds⟩

theorem written_entryLines (level : Nat) (es : List (String × Datum)) :
    ∀ c ∈ ascii.entryLines level es, Written c := by
  match es with
  | [] => exact fun c hc => nomatch hc
  | (k, d) :: es =>
    simp only [Form.entryLines, List.cons_append, List.forall_mem_cons, List.forall_mem_append]
    exact ⟨by decide, ⟨⟨⟨written_newLine level, written_string k⟩, by decide, by decide, nofun⟩,
      written_lines level d⟩, written_entryLines level es⟩

end

/-- **A document has no other characters.** -/
theorem written_indented (d : Datum) : ∀ c ∈ (indented ascii d).toList, Written c := by
  rw [indented, String.toList_ofList]
  exact written_lines 0 d

end Ladybug.Json
