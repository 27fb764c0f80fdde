import Ladybug.Decimal.Read
import Ladybug.Decimal.Shortest
import Ladybug.Proofs.Text

/-!
# Decimal numbers that are written and read back

* `digitsValue_toDigits`  the digits of a whole number are read back
* `toList_toString`       how an integer is written
* `number?_toString`      what it is read as
* `decimal?_pointed`      digits, a point and more digits are read as a number
* `number?_oneDecimal`    whatever is written with one decimal is read as some number
-/

namespace Ladybug.Decimal

/-- What holds of the ten digits holds of every digit. -/
theorem forall_digit {P : Char → Prop} (h : ∀ d : Fin 10, P (Nat.digitChar d)) {c : Char}
    (hc : c.isDigit = true) : P c := by
  have hle : 48 ≤ c.toNat ∧ c.toNat ≤ 57 := by
    simpa [Char.isDigit, UInt32.le_iff_toNat_le] using hc
  have hchar : ∀ d : Fin 10, (Nat.digitChar d).toNat = 48 + d := by decide
  have heq : Nat.digitChar (c.toNat - 48) = c := by
    refine Char.ext (UInt32.toNat_inj.mp ?_)
    show (Nat.digitChar (c.toNat - 48)).toNat = c.toNat
    rw [hchar ⟨c.toNat - 48, by omega⟩]
    show 48 + (c.toNat - 48) = c.toNat
    omega
  exact heq ▸ h ⟨c.toNat - 48, by omega⟩

/-- the characters of numbers -/
def numberChars : List Char := "0123456789.-".toList

theorem mem_numberChars {c : Char} (hc : c.isDigit = true) : c ∈ numberChars :=
  forall_digit (P := (· ∈ numberChars)) (by decide) hc

theorem isDigit_of_mem_toDigits {n : Nat} {c : Char} (h : c ∈ Nat.toDigits 10 n) :
    c.isDigit = true :=
  Nat.isDigit_of_mem_toDigits (by decide) (by decide) h

/-! ### digits of whole numbers -/

theorem exists_toDigits (n : Nat) :
    ∃ c cs, Nat.toDigits 10 n = c :: cs ∧ c.isDigit = true := by
  have hpos : 0 < (Nat.toDigits 10 n).length := Nat.length_toDigits_pos
  obtain ⟨c, cs, hcs⟩ := List.exists_cons_of_length_pos hpos
  exact ⟨c, cs, hcs, isDigit_of_mem_toDigits (n := n) (hcs ▸ List.mem_cons_self)⟩

/-- Only zero is written with a zero in front. -/
theorem toDigits_of_head {n : Nat} (h : '0' ∈ (Nat.toDigits 10 n).head?) : n = 0 := by
  induction n using Nat.strongRecOn with
  | ind n ih =>
    by_cases hn : n < 10
    · rw [Nat.toDigits_of_lt_base hn, List.head?_cons, Option.mem_some_iff] at h
      have hchar : ∀ d : Fin 10, Nat.digitChar d = '0' → d = 0 := by decide
      exact congrArg Fin.val (hchar ⟨n, hn⟩ h)
    · rw [Nat.toDigits_of_base_le (by decide) (Nat.le_of_not_lt hn)] at h
      obtain ⟨c, cs, hcs, -⟩ := exists_toDigits (n / 10)
      have hzero := ih (n / 10) (by omega) (by rw [hcs] at h ⊢; exact h)
      omega

theorem foldl_digitValue {cs : List Char} (h : ∀ c ∈ cs, c.isDigit = true) (m : Nat) :
    cs.foldl (fun n c => 10 * n + (Text.digitValue? c).getD 0) m = Nat.ofDigitChars 10 cs m := by
  induction cs generalizing m with
  | nil => rfl
  | cons c cs ih =>
    have hc : (Text.digitValue? c).getD 0 = c.toNat - '0'.toNat :=
      forall_digit (P := fun c => (Text.digitValue? c).getD 0 = c.toNat - '0'.toNat)
        (by decide) (h c List.mem_cons_self)
    rw [List.foldl_cons, hc, ih fun d hd => h d (List.mem_cons_of_mem c hd)]
    rfl

theorem digitsValue_toDigits (n : Nat) : Text.digitsValue (Nat.toDigits 10 n) = n := by
  rw [Text.digitsValue, foldl_digitValue fun c hc => isDigit_of_mem_toDigits hc]
  exact Nat.ofDigitChars_toDigits (by decide) (by decide)

/-- what stands before the digits -/
def sign (negative : Bool) : List Char := if negative then ['-'] else []

theorem toList_toString (i : Int) :
    (toString i).toList = sign (decide (i < 0)) ++ Nat.toDigits 10 i.natAbs := by
  rw [Int.toString_eq_repr, Int.repr_eq_if]
  by_cases h : 0 ≤ i
  · rw [if_pos h, Nat.toList_repr, decide_eq_false (Int.not_lt.mpr h)]
    rw [show i.toNat = i.natAbs by omega]
    rfl
  · rw [if_neg h, String.toList_append, Nat.toList_repr, decide_eq_true (Int.not_le.mp h)]
    rw [show (-i).toNat = i.natAbs by omega]
    rfl

/-- The digits of a whole number are what is cut off a text before something else. -/
theorem cut_toDigits (n : Nat) {rest : List Char} (h : ∀ c ∈ rest.head?, isDigit c = false) :
    (Nat.toDigits 10 n ++ rest).takeWhile isDigit = Nat.toDigits 10 n ∧
      (Nat.toDigits 10 n ++ rest).dropWhile isDigit = rest := by
  have hdigit : ∀ c ∈ Nat.toDigits 10 n, isDigit c = true := fun c hc =>
    forall_digit (P := (isDigit · = true)) (by decide) (isDigit_of_mem_toDigits hc)
  exact ⟨Text.takeWhile_prefix hdigit h, Text.dropWhile_prefix hdigit h⟩

theorem cut_all_toDigits (n : Nat) :
    (Nat.toDigits 10 n).takeWhile isDigit = Nat.toDigits 10 n ∧
      (Nat.toDigits 10 n).dropWhile isDigit = [] := by
  have hnil : ∀ c ∈ ([] : List Char).head?, isDigit c = false := fun c hc => nomatch hc
  have h := cut_toDigits n hnil
  rwa [List.append_nil] at h

theorem toDigits_isEmpty (n : Nat) : (Nat.toDigits 10 n).isEmpty = false := by
  obtain ⟨c, cs, hcs, -⟩ := exists_toDigits n
  rw [hcs]
  rfl

/-- digits alone are read as the whole number -/
theorem decimal?_toDigits (negative : Bool) (n : Nat) :
    decimal? negative (Nat.toDigits 10 n) = some (.ofDecimal negative n 0) := by
  obtain ⟨htake, hdrop⟩ := cut_all_toDigits n
  simp only [decimal?, htake, hdrop, toDigits_isEmpty, Bool.false_and, Bool.false_eq_true,
    ↓reduceIte, List.append_nil, digitsValue_toDigits]
  rfl

/-! ### numbers with one decimal -/

/-- digits that are written without a sign, a point and more digits after it -/
def pointed (whole decimals : Nat) : List Char :=
  Nat.toDigits 10 whole ++ '.' :: Nat.toDigits 10 decimals

theorem mem_pointed {m n : Nat} : ∀ c ∈ pointed m n, c ∈ numberChars := by
  simp only [pointed, List.forall_mem_append, List.forall_mem_cons]
  exact ⟨fun c hc => mem_numberChars (isDigit_of_mem_toDigits hc), by decide,
    fun c hc => mem_numberChars (isDigit_of_mem_toDigits hc)⟩

theorem mem_sign {negative : Bool} : ∀ c ∈ sign negative, c ∈ numberChars := by
  cases negative with
  | false => exact fun c hc => nomatch hc
  | true => exact List.forall_mem_singleton.mpr (by decide)

theorem toList_oneDecimal (negative : Bool) (m : Nat) (e : Int) :
    ∃ k l, (oneDecimal (.finite negative m e)).toList
      = sign negative ++ pointed k l := by
  let tenths := roundDiv (10 * (Binary.ratio m e).1) (Binary.ratio m e).2
  refine ⟨tenths / 10, tenths % 10, ?_⟩
  simp only [oneDecimal, String.toList_append, Nat.toString_eq_repr, Nat.toList_repr,
    List.append_assoc, pointed]
  cases negative <;> rfl

/-- digits, a point and more digits are read as a number -/
theorem decimal?_pointed (negative : Bool) (m n : Nat) :
    ∃ x, decimal? negative (pointed m n) = some x := by
  have hpoint : ∀ c ∈ ('.' :: Nat.toDigits 10 n).head?, isDigit c = false := by
    rintro c ⟨⟩
    rfl
  obtain ⟨htake, hdrop⟩ := cut_toDigits m hpoint
  obtain ⟨htake', hdrop'⟩ := cut_all_toDigits n
  simp only [decimal?, pointed, htake, hdrop, htake', hdrop', toDigits_isEmpty, Bool.false_and,
    Bool.false_eq_true, ↓reduceIte]
  exact ⟨_, rfl⟩

theorem joinDigits?_eq_self {cs : List Char} (h : '_' ∉ cs) {last : Char} (hlast : last ≠ '_') :
    joinDigits? last cs = some cs := by
  have hne : (last == '_') = false := beq_eq_false_iff_ne.mpr hlast
  induction cs generalizing last with
  | nil => rw [joinDigits?, hne, if_neg Bool.false_ne_true]
  | cons c cs ih =>
    have hc : c ≠ '_' := fun e => h (e ▸ List.mem_cons_self)
    have hc' : (c == '_') = false := beq_eq_false_iff_ne.mpr hc
    rw [joinDigits?, hc', if_neg Bool.false_ne_true, hne, Bool.false_and,
      if_neg Bool.false_ne_true, ih (fun hm => h (List.mem_cons_of_mem c hm)) hc hc']
    rfl

/-- A text of the characters of numbers is read as it stands. -/
theorem number?_of_numberChars {s : String} (h : ∀ c ∈ s.toList, c ∈ numberChars) :
    number? s = signedDecimal? s.toList := by
  have hall {p : Char → Bool} (hp : numberChars.all p = true) : ∀ c ∈ s.toList, p c = true :=
    fun c hc => List.all_eq_true.mp hp c (h c hc)
  have hspace : ∀ c ∈ s.toList, (!Text.isSpace c) = true := hall (by decide)
  have hspace : ∀ c ∈ s.toList, Text.isSpace c = false := fun c hc =>
    (Bool.not_eq_true' _).mp (hspace c hc)
  have hdigit : ∀ c ∈ s.toList, (asciiDigit c == c) = true := hall (by decide)
  have hdigit : s.toList.map asciiDigit = s.toList := by
    conv_rhs => rw [← List.map_id s.toList]
    exact List.map_congr_left fun c hc => beq_iff_eq.mp (hdigit c hc)
  have hline : '_' ∉ s.toList := fun hm => absurd (h _ hm) (by decide)
  have htrim : Text.trim Text.isSpace s.toList = s.toList :=
    Text.trim_eq_self (fun c hc => hspace c (List.mem_of_mem_head? hc))
      fun c hc => hspace c (List.mem_of_mem_getLast? hc)
  rw [number?, htrim, hdigit, joinDigits?_eq_self hline (by decide)]
  rfl

/-- Text with a digit in it is no special number. -/
theorem specialNumbers_find?_eq_none {c : Char} (hc : c.isDigit = true) (cs : List Char) :
    specialNumbers.find? (fun w => w.1.toList == c.toLower :: cs.map Char.toLower) = none := by
  have hlower : c.toLower ≠ 'i' ∧ c.toLower ≠ 'n' :=
    forall_digit (P := fun c => c.toLower ≠ 'i' ∧ c.toLower ≠ 'n') (by decide) hc
  rw [List.find?_eq_none]
  intro w hw
  rw [beq_iff_eq]
  intro e
  simp only [specialNumbers, List.mem_cons, List.not_mem_nil, or_false] at hw
  rcases hw with rfl | rfl | rfl
  · exact hlower.1 (List.cons.inj e).1.symm
  · exact hlower.1 (List.cons.inj e).1.symm
  · exact hlower.2 (List.cons.inj e).1.symm

/-- After the sign, text that begins with a digit is read as a plain number. -/
theorem signedDecimal?_sign (negative : Bool) {c : Char} (hc : c.isDigit = true)
    (cs : List Char) :
    signedDecimal? (sign negative ++ c :: cs) = decimal? negative (c :: cs) := by
  have hspecial := specialNumbers_find?_eq_none hc cs
  cases negative with
  | true =>
    simp only [sign, signedDecimal?, ↓reduceIte, List.singleton_append, List.map_cons, hspecial]
  | false =>
    have hsign : c ≠ '+' ∧ c ≠ '-' :=
      forall_digit (P := fun c => c ≠ '+' ∧ c ≠ '-') (by decide) hc
    simp [sign, signedDecimal?, hsign.1, hsign.2, hspecial]

theorem signedDecimal?_pointed (negative : Bool) (m n : Nat) :
    ∃ x, signedDecimal? (sign negative ++ pointed m n) = some x := by
  obtain ⟨c, cs, hcs, hc⟩ := exists_toDigits m
  obtain ⟨x, hx⟩ := decimal?_pointed negative m n
  refine ⟨x, ?_⟩
  rw [pointed, hcs, List.cons_append] at hx ⊢
  rw [signedDecimal?_sign negative hc, hx]

theorem mem_toString (i : Int) : ∀ c ∈ (toString i).toList, c ∈ numberChars := by
  rw [toList_toString, List.forall_mem_append]
  exact ⟨mem_sign, fun c hc => mem_numberChars (isDigit_of_mem_toDigits hc)⟩

/-- **An integer that is written is read as the number nearest to it.** -/
theorem number?_toString (i : Int) :
    number? (toString i) = some (.ofDecimal (decide (i < 0)) i.natAbs 0) := by
  obtain ⟨c, cs, hcs, hc⟩ := exists_toDigits i.natAbs
  rw [number?_of_numberChars (mem_toString i), toList_toString, hcs, signedDecimal?_sign _ hc,
    ← hcs, decimal?_toDigits]

/-- **Whatever is written with one decimal is read as some number.** -/
theorem number?_oneDecimal (x : Binary) : ∃ y, number? (oneDecimal x) = some y := by
  cases x with
  | nan => exact ⟨.nan, by decide⟩
  | infinite negative =>
    refine ⟨.infinite negative, ?_⟩
    cases negative <;> decide
  | finite negative m e =>
    obtain ⟨k, l, h⟩ := toList_oneDecimal negative m e
    rw [number?_of_numberChars, h]
    · exact signedDecimal?_pointed negative k l
    · rw [h, List.forall_mem_append]
      exact ⟨mem_sign, mem_pointed⟩

end Ladybug.Decimal
