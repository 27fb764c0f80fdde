import Ladybug.Proofs.Decimal.Shortest
import Ladybug.Proofs.Json.Scalars

/-!
# JSON numbers with a fraction or a power of ten

* `Reads`            a text that is read as a number of one value, whatever its sign
* `reads_write`      digits in a text form, positional or with an exponent
* `writes_float`     a finite number is read back
* `saved_of_not_finite`   an infinity in a saved program, and what is no number, are `null`
-/

namespace Ladybug.Json
open Ladybug Binary Decimal

/-! ### parts of numbers -/

theorem isDigit_of_closed {rest : List Char} (h : Closed rest) :
    ∀ c ∈ rest.head?, Json.isDigit c = false := fun c hc => (h c hc).1

theorem all_isDigit {ds : List Char} (h : ∀ c ∈ ds, c.isDigit = true) :
    ∀ c ∈ ds, Json.isDigit c = true := fun c hc => isDigit_eq.trans (h c hc)

theorem fraction_point {ds rest : List Char} (h : ∀ c ∈ ds, c.isDigit = true) (hne : ds ≠ [])
    (hrest : ∀ c ∈ rest.head?, Json.isDigit c = false) :
    fraction ('.' :: (ds ++ rest)) = (ds, rest) := by
  have htake := Text.takeWhile_prefix (all_isDigit h) hrest
  have hdrop := Text.dropWhile_prefix (all_isDigit h) hrest
  simp only [fraction, htake, hdrop]

theorem exists_exponent (s : Style) (e : ℤ) :
    ∃ ds, s.exponent e = 'e' :: (if e < 0 then '-' else '+') :: ds
      ∧ ds ≠ [] ∧ (∀ c ∈ ds, c.isDigit = true) ∧ Text.digitsValue ds = e.natAbs := by
  refine ⟨List.replicate (s.exponentDigits - (Nat.toDigits 10 e.natAbs).length) '0'
    ++ Nat.toDigits 10 e.natAbs, rfl, ?_, ?_, ?_⟩
  · exact List.append_ne_nil_of_right_ne_nil _ (isWhole_toDigits _).ne_nil
  · refine List.forall_mem_append.mpr ⟨fun c hc => ?_, fun c hc => isDigit_of_mem_toDigits hc⟩
    rw [List.eq_of_mem_replicate hc]
    rfl
  · rw [digitsValue_append, digitsValue_replicate, digitsValue_toDigits, Nat.zero_mul,
      Nat.zero_add]

theorem power_exponent (s : Style) (e : ℤ) {rest : List Char} (h : Closed rest) :
    power (s.exponent e ++ rest) = (some e, rest) := by
  obtain ⟨ds, heq, hne, hdigit, hvalue⟩ := exists_exponent s e
  have htake := Text.takeWhile_prefix (all_isDigit hdigit) (isDigit_of_closed h)
  have hdrop := Text.dropWhile_prefix (all_isDigit hdigit) (isDigit_of_closed h)
  rw [heq]
  by_cases hneg : e < 0
  · have habs : -|e| = e := by rw [abs_of_neg hneg, neg_neg]
    simp [power, hneg, htake, hdrop, hvalue, habs]
  · have habs : |e| = e := abs_of_nonneg (not_lt.mp hneg)
    simp [power, hneg, htake, hdrop, hvalue, habs]

/-! ### the forms of digits -/

/-- Whatever the sign before it and the closed text after it, the text is read as a number of one
value. -/
def Reads (cs : List Char) (v : ℚ) : Prop :=
  ∀ (negative : Bool) (rest : List Char), Closed rest → ∃ (digits : ℕ) (power : ℤ),
    decimal digits power = v ∧ number? (sign negative ++ (cs ++ rest))
      = some (.ok (.float (ofDecimal negative digits power)), rest)

/-- Digits with a point among them. -/
theorem reads_point {whole decimals : List Char} (hwhole : IsWhole whole)
    (hdecimals : ∀ c ∈ decimals, c.isDigit = true) (hne : decimals ≠ []) :
    Reads (whole ++ '.' :: decimals)
      (decimal (Text.digitsValue (whole ++ decimals)) (-decimals.length)) := by
  intro negative rest hrest
  have hclosed := isDigit_of_closed hrest
  have hfraction := fraction_point hdecimals hne hclosed
  refine ⟨_, _, rfl, ?_⟩
  rw [List.append_assoc, List.cons_append, number?_of_parts negative hwhole (by rintro _ ⟨⟩; rfl)
    hfraction (power_closed hrest)]
  simp [hne]

/-- One digit and perhaps more after a point, with an exponent. -/
theorem reads_exponent (s : Style) (e : ℤ) {d : Char} {ds : List Char} (hd : d.isDigit = true)
    (hds : ∀ c ∈ ds, c.isDigit = true) :
    Reads (match d :: ds with
        | d :: ds@(_ :: _) => d :: '.' :: ds ++ s.exponent e
        | ds => ds ++ s.exponent e)
      (decimal (Text.digitsValue (d :: ds)) (e - ds.length)) := by
  intro negative rest hrest
  have hwhole : IsWhole [d] :=
    ⟨List.cons_ne_nil _ _, List.forall_mem_singleton.mpr hd, by rintro ⟨⟩; rfl⟩
  have hpower := power_exponent s e hrest
  refine ⟨_, _, rfl, ?_⟩
  cases ds with
  | nil =>
    have hfraction : fraction (s.exponent e ++ rest) = ([], s.exponent e ++ rest) := rfl
    have hread := number?_of_parts negative hwhole (by rintro _ ⟨⟩; rfl) hfraction hpower
    simpa using hread
  | cons c cs =>
    have hfraction := fraction_point hds (List.cons_ne_nil _ _)
      (show ∀ x ∈ (s.exponent e ++ rest).head?, Json.isDigit x = false by rintro _ ⟨⟩; rfl)
    have hread := number?_of_parts negative hwhole (by rintro _ ⟨⟩; rfl) hfraction hpower
    simpa using hread

theorem Reads.of_eq {cs : List Char} {v w : ℚ} (h : Reads cs v) (heq : v = w) : Reads cs w :=
  heq ▸ h

theorem isDigit_replicate (k : ℕ) : ∀ c ∈ List.replicate k '0', c.isDigit = true := by
  intro c hc
  rw [List.eq_of_mem_replicate hc]
  rfl

section
variable {ds : List Char} {p : ℤ} (h : Digits.Proper ⟨ds, p⟩)
include h

/-- Zeros stand between the point and the digits. -/
theorem reads_below (hp : p ≤ 0) :
    Reads ('0' :: '.' :: (List.replicate (-p).toNat '0' ++ ds)) (Digits.value ⟨ds, p⟩) := by
  have hread := reads_point (isWhole_toDigits 0)
    (List.forall_mem_append.mpr ⟨isDigit_replicate (-p).toNat, h.digit⟩)
    (List.append_ne_nil_of_right_ne_nil _ h.ne_nil)
  refine hread.of_eq ?_
  have hpoint : (((-p).toNat : ℕ) : ℤ) = -p := Int.toNat_of_nonneg (by omega)
  rw [digitsValue_append, digitsValue_append, digitsValue_toDigits, digitsValue_replicate,
    Nat.zero_mul, Nat.zero_mul, Nat.zero_add, Nat.zero_add, List.length_append,
    List.length_replicate, Nat.cast_add, hpoint, Digits.value]
  congr 1
  ring

/-- Zeros stand between the digits and the point. -/
theorem reads_above (hp : (ds.length : ℤ) ≤ p) :
    Reads (ds ++ List.replicate (p.toNat - ds.length) '0' ++ ['.', '0'])
      (Digits.value ⟨ds, p⟩) := by
  have hwhole : IsWhole (ds ++ List.replicate (p.toNat - ds.length) '0') := by
    refine ⟨List.append_ne_nil_of_left_ne_nil h.ne_nil _,
      List.forall_mem_append.mpr ⟨h.digit, isDigit_replicate _⟩, fun hhead => ?_⟩
    rw [List.head?_append_of_ne_nil _ h.ne_nil] at hhead
    obtain ⟨rfl, rfl⟩ := h.head hhead
    rfl
  refine (reads_point hwhole (isDigit_replicate 1) (List.cons_ne_nil _ _)).of_eq ?_
  have hpoint : ((p.toNat - ds.length : ℕ) : ℤ) = p - ds.length := by omega
  rw [List.append_assoc, List.replicate_append_replicate, digitsValue_append,
    digitsValue_replicate, Nat.add_zero, List.length_replicate, List.length_replicate,
    decimal_mul_pow, Nat.cast_add, hpoint, Digits.value]
  congr 1
  push_cast
  ring

/-- The point stands among the digits. -/
theorem reads_among (hpos : 0 < p) (hlt : p < ds.length) :
    Reads (ds.take p.toNat ++ '.' :: ds.drop p.toNat) (Digits.value ⟨ds, p⟩) := by
  have hne : ds.take p.toNat ≠ [] := by
    rw [Ne, List.take_eq_nil_iff]
    rintro (hzero | hnil)
    · omega
    · exact h.ne_nil hnil
  have hwhole : IsWhole (ds.take p.toNat) := by
    refine ⟨hne, fun c hc => h.digit c (List.mem_of_mem_take hc), fun hhead => ?_⟩
    rw [List.head?_take, if_neg (by omega)] at hhead
    obtain ⟨rfl, -⟩ := h.head hhead
    simp only [List.length_singleton] at hlt
    omega
  have hdrop : ds.drop p.toNat ≠ [] := by
    rw [Ne, List.drop_eq_nil_iff]
    omega
  refine (reads_point hwhole (fun c hc => h.digit c (List.mem_of_mem_drop hc)) hdrop).of_eq ?_
  have hlength : ((ds.length - p.toNat : ℕ) : ℤ) = ds.length - p := by omega
  rw [List.take_append_drop, List.length_drop, hlength, Digits.value]
  congr 1
  ring

theorem reads_positional : Reads (positional ⟨ds, p⟩) (Digits.value ⟨ds, p⟩) := by
  unfold positional
  simp only [Int.ofNat_eq_natCast]
  split_ifs with hbelow habove
  · exact reads_below h hbelow
  · exact reads_above h habove
  · exact reads_among h (by omega) (by omega)

/-- **Digits in a text form are read with their value.** -/
theorem reads_write (s : Style) : Reads (s.write ⟨ds, p⟩) (Digits.value ⟨ds, p⟩) := by
  simp only [Style.write]
  split_ifs with hplace
  · exact reads_positional h
  · obtain ⟨d, ds, rfl⟩ := List.exists_cons_of_ne_nil h.ne_nil
    obtain ⟨hd, hds⟩ := List.forall_mem_cons.mp h.digit
    refine (reads_exponent s (p - 1) hd hds).of_eq ?_
    rw [Digits.value, List.length_cons]
    congr 1
    push_cast
    ring

end

/-! ### numbers -/

/-- A text that is read as a number, with a sign before it too, begins with a digit. -/
theorem Reads.exists_cons {cs : List Char} {v : ℚ} (h : Reads cs v) :
    ∃ c cs', cs = c :: cs' ∧ c.isDigit = true := by
  obtain ⟨digits, power, -, hnumber⟩ := h true [] closed_nil
  rw [List.append_nil] at hnumber
  cases cs with
  | nil => cases hnumber
  | cons c cs =>
    refine ⟨c, cs, rfl, Classical.byContradiction fun hc => ?_⟩
    have hdigit : Json.isDigit c = false := isDigit_eq.trans (Bool.eq_false_iff.mpr hc)
    have hzero : c ≠ '0' := by
      rintro rfl
      exact hc rfl
    simp [sign, number?, wholeDigits, hzero, hdigit] at hnumber

theorem Reads.word?_eq_none {cs : List Char} {v : ℚ} (h : Reads cs v) (negative : Bool)
    (rest : List Char) : word? (sign negative ++ cs ++ rest) = none := by
  obtain ⟨c, cs, rfl, hc⟩ := h.exists_cons
  rw [List.append_assoc]
  exact word?_of_digit hc negative (cs ++ rest)

theorem toList_show (s : Style) (negative : Bool) (m : ℕ) (e : ℤ) :
    (s.show (.finite negative m e)).toList = sign negative ++ s.write (shortest m e) := by
  rw [Style.show, String.toList_ofList]
  cases negative <;> rfl

/-- **A finite number is read back**, in whatever text form it is written. -/
theorem writes_float (s : Style) {negative : Bool} {m : ℕ} {e : ℤ}
    (h : (finite negative m e).Representable) :
    Writes (s.show (.finite negative m e)).toList (.float (.finite negative m e)) := by
  have hreads : Reads (s.write (shortest m e)) (shortest m e).value :=
    reads_write (proper_shortest h) s
  rw [toList_show]
  refine writes_of_number? (hreads.word?_eq_none negative) fun rest hrest => ?_
  obtain ⟨digits, power, hvalue, hnumber⟩ := hreads negative rest hrest
  have hrounds : Rounds (decimal digits power) m e := hvalue ▸ rounds_shortest h
  rw [List.append_assoc, hnumber, ofDecimal_eq hrounds, ofUnits_of_representable h]

/-- What is not finite is written as nothing in a saved program. -/
theorem saved_of_not_finite {x : Binary} (h : x.isFinite = false) : saved.show x = "null" := by
  cases x with
  | finite negative m e => cases h
  | infinite negative => cases negative <;> rfl
  | nan => rfl

end Ladybug.Json
