import Ladybug.Intake.Instant
import Ladybug.Proofs.Decimal.Shortest
import Ladybug.Proofs.Intake

/-!
# Instants that are written and read back

Each part of an instant has a fixed number of digits, and what comes after it goes on with none.

* `digits?_padded`     a number with a fixed number of digits
* `leading_dateChars`  a date at the start of a text
* `seconds?_written`, `offset?_written`   the end of a time of day
* `Instant.Proper`     an instant of the calendar from year one on
* `instant_text`       such an instant is read back
-/

namespace Ladybug

theorem Text.plain?_eq_self {cs : List Char} (h : mark ∉ cs) : plain? cs = some cs := by
  have hplain (cs : List Char) : (cs.map Char.toNat).mapM
      (fun n => if isHalf n then none else some (Char.ofNat n)) = some cs := by
    induction cs with
    | nil => rfl
    | cons c cs ih =>
      rw [List.map_cons, List.mapM_cons, not_isHalf_toNat, ih, if_neg Bool.false_ne_true,
        Char.ofNat_toNat]
      rfl
  rw [plain?, codes_of_not_mem h, hplain]

theorem Text.length_le_utf8ByteSize (cs : List Char) :
    cs.length ≤ (String.ofList cs).utf8ByteSize := by
  induction cs with
  | nil => exact Nat.zero_le _
  | cons c cs ih =>
    have hpos : 0 < c.utf8Size := c.utf8Size_pos
    have hc : (String.ofList [c]).utf8ByteSize = c.utf8Size := by
      rw [← String.singleton_eq_ofList, String.utf8ByteSize_singleton]
    rw [← List.singleton_append, String.ofList_append, String.utf8ByteSize_append, hc,
      List.length_append, List.length_singleton]
    omega

namespace Instant

/-! ### numbers of fixed width -/

theorem length_padded (width n : Nat) : (padded width n).length = width := by
  induction width generalizing n with
  | zero => rfl
  | succ width ih => rw [padded, List.length_append, ih, List.length_singleton]

theorem digit_eq (n : Nat) : Char.ofNat ('0'.toNat + n % 10) = Nat.digitChar (n % 10) := by
  have hall : ∀ n : Fin 10, Char.ofNat ('0'.toNat + n) = Nat.digitChar n := by decide
  exact hall ⟨n % 10, Nat.mod_lt n (by decide)⟩

theorem isDigit_digitChar (n : Nat) : (Nat.digitChar (n % 10)).isDigit = true := by
  have hall : ∀ n : Fin 10, (Nat.digitChar n).isDigit = true := by decide
  exact hall ⟨n % 10, Nat.mod_lt n (by decide)⟩

theorem isDigit_of_mem_padded {width n : Nat} : ∀ c ∈ padded width n, c.isDigit = true := by
  induction width generalizing n with
  | zero => exact fun c hc => nomatch hc
  | succ width ih =>
    rw [padded, List.forall_mem_append, List.forall_mem_singleton, digit_eq]
    exact ⟨ih, isDigit_digitChar n⟩

theorem digitsValue_padded {width n : Nat} (h : n < 10 ^ width) :
    Text.digitsValue (padded width n) = n := by
  induction width generalizing n with
  | zero =>
    rw [Nat.pow_zero] at h
    rw [Nat.lt_one_iff.mp h]
    rfl
  | succ width ih =>
    have hdigit : Text.digitsValue [Nat.digitChar (n % 10)] = n % 10 := by
      have hall : ∀ n : Fin 10, Text.digitsValue [Nat.digitChar n] = n := by decide
      exact hall ⟨n % 10, Nat.mod_lt n (by decide)⟩
    rw [padded, Decimal.digitsValue_append, ih (by omega), digit_eq, hdigit, List.length_singleton]
    omega

theorem isDigit_of_isDigit {c : Char} (h : c.isDigit = true) : isDigit c = true :=
  Decimal.forall_digit (P := (isDigit · = true)) (by decide) h

/-- **A number of fixed width is read back**, whatever comes after it. -/
theorem digits?_padded {width n : Nat} (h : n < 10 ^ width) (rest : List Char) :
    digits? width (padded width n ++ rest) = some (n, rest) := by
  have hlength := length_padded width n
  have hall : (padded width n).all isDigit = true :=
    List.all_eq_true.mpr fun c hc => isDigit_of_isDigit (isDigit_of_mem_padded c hc)
  simp [digits?, List.take_left' hlength, List.drop_left' hlength, hlength, hall,
    digitsValue_padded h]

/-! ### dates -/

theorem daysIn_lt (year month : Nat) : Date.daysIn year month < 100 := by
  unfold Date.daysIn
  split <;> try split
  all_goals decide

theorem after?_cons {allowed : List Char} {c : Char} (h : allowed.contains c = true)
    (cs : List Char) : after? allowed (c :: cs) = some cs :=
  if_pos h

theorem after?_eq_none {allowed cs : List Char} (h : ∀ c ∈ cs.head?, allowed.contains c = false) :
    after? allowed cs = none := by
  cases cs with
  | nil => rfl
  | cons c cs => rw [after?, h c rfl, if_neg Bool.false_ne_true]

/-- **A date is read back.** -/
theorem leading_dateChars {d : Date} (h : d.Valid) (hyear : d.year < 10000) (rest : List Char) :
    leading (dateChars d ++ rest) = .ok (d, rest) := by
  have hlong : ¬ (String.ofList (dateChars d ++ rest)).utf8ByteSize < 10 := by
    have hle := Text.length_le_utf8ByteSize (dateChars d ++ rest)
    simp only [dateChars, List.length_append, List.length_cons, length_padded] at hle ⊢
    omega
  have hmonth := h.month_le
  have hday := h.day_le
  have hlt := daysIn_lt d.year d.month
  have hinYear : (d.month < 1 || 12 < d.month) = false := by
    simp [Nat.ne_of_gt h.month_pos, hmonth]
  have hinMonth : (d.day < 1 || Date.daysIn d.year d.month < d.day) = false := by
    simp [Nat.ne_of_gt h.day_pos, hday]
  have hyears : ∀ rest, digits? 4 (padded 4 d.year ++ rest) = some (d.year, rest) :=
    digits?_padded hyear
  have hmonths : ∀ rest, digits? 2 (padded 2 d.month ++ rest) = some (d.month, rest) :=
    digits?_padded (by omega)
  have hdays : ∀ rest, digits? 2 (padded 2 d.day ++ rest) = some (d.day, rest) :=
    digits?_padded (by omega)
  have hdash (cs : List Char) : after? ['-'] ('-' :: cs) = some cs := after?_cons rfl cs
  unfold leading
  rw [if_neg hlong]
  simp only [dateChars, List.append_assoc, List.cons_append, hyears, hmonths, hdays, hdash, expect,
    ok_bind, hinYear, hinMonth, Bool.false_eq_true, ↓reduceIte]
  rfl

/-! ### times of day -/

/-- What comes after the seconds goes on with no digit and no point. -/
theorem head_offsetChars (offset : Option Int) :
    ∀ c ∈ (offsetChars offset).head?, isDigit c = false ∧ ['.', ','].contains c = false := by
  unfold offsetChars
  split
  · exact fun c hc => nomatch hc
  · rintro c ⟨⟩
    decide
  · rintro c ⟨⟩
    split_ifs <;> decide

theorem micros?_padded {micro : Nat} (h : micro < 1000000) {rest : List Char}
    (hrest : ∀ c ∈ rest.head?, isDigit c = false) :
    micros? (padded 6 micro ++ rest) = some (micro, rest) := by
  have hdigit : ∀ c ∈ padded 6 micro, isDigit c = true := fun c hc =>
    isDigit_of_isDigit (isDigit_of_mem_padded c hc)
  have hlength := length_padded 6 micro
  have htake : (padded 6 micro).take 6 = padded 6 micro :=
    List.take_of_length_le (Nat.le_of_eq hlength)
  have hne : (padded 6 micro).isEmpty = false := by
    rw [List.isEmpty_eq_false_iff, ← List.length_pos_iff, hlength]
    decide
  simp only [micros?, Text.takeWhile_prefix hdigit hrest, Text.dropWhile_prefix hdigit hrest, hne,
    Bool.false_eq_true, ↓reduceIte, htake, digitsValue_padded (show micro < 10 ^ 6 from h), hlength]
  simp

/-- **Seconds and their fraction are read back.** -/
theorem seconds?_written {second micro : Nat} (hsecond : second < 60) (hmicro : micro < 1000000)
    (offset : Option Int) :
    seconds? (':' :: padded 2 second ++ microChars micro ++ offsetChars offset)
      = some (second, micro, offsetChars offset) := by
  have hseconds : ∀ rest, digits? 2 (padded 2 second ++ rest) = some (second, rest) :=
    digits?_padded (by omega)
  have hin : ¬ 59 < second := by omega
  have hhead := head_offsetChars offset
  simp only [List.cons_append, List.append_assoc, seconds?, hseconds, Option.bind_eq_bind,
    Option.bind_some, if_neg hin]
  by_cases hzero : micro = 0
  · rw [microChars, if_pos hzero, List.nil_append, after?_eq_none fun c hc => (hhead c hc).2, hzero]
  · have hpoint (cs : List Char) : after? ['.', ','] ('.' :: cs) = some cs := after?_cons rfl cs
    have hmicros := micros?_padded hmicro fun c hc => (hhead c hc).1
    simp only [microChars, if_neg hzero, List.cons_append, hpoint, hmicros, Option.bind_some]

/-- **An offset is read back.** -/
theorem offset?_written {offset : Option Int} (h : ∀ m ∈ offset, m.natAbs < 1440) :
    offset? (offsetChars offset) = some offset := by
  unfold offsetChars
  split
  · rfl
  · rfl
  · rename_i m hm
    have hlt : m.natAbs < 1440 := h m rfl
    have hhours : ∀ rest, digits? 2 (padded 2 (m.natAbs / 60) ++ rest)
        = some (m.natAbs / 60, rest) := digits?_padded (by omega)
    have hminutes : digits? 2 (padded 2 (m.natAbs % 60)) = some (m.natAbs % 60, []) := by
      have hread := digits?_padded (show m.natAbs % 60 < 10 ^ 2 by omega) []
      rwa [List.append_nil] at hread
    have hcolon (cs : List Char) : after? [':'] (':' :: cs) = some cs := after?_cons rfl cs
    have hsign (cs : List Char) :
        sign? ((if m < 0 then '-' else '+') :: cs) = some (if m < 0 then -1 else 1, cs) := by
      split_ifs <;> rfl
    have hin : (59 < m.natAbs % 60 || 23 < m.natAbs / 60 || !([] : List Char).isEmpty) = false := by
      simp
      omega
    have hvalue : (if m < 0 then -1 else 1) * ((m.natAbs / 60 : Nat) * 60 + (m.natAbs % 60 : Nat))
        = m := by
      split_ifs <;> omega
    unfold offset?
    split
    case h_1 hnil => cases hnil
    case h_2 hletter | h_3 hletter => simp at hletter
    case h_4 =>
      simp only [List.cons_append, hsign, hhours, hcolon, hminutes, Option.bind_eq_bind,
        Option.bind_some, Option.getD_some, hin, Bool.false_eq_true, ↓reduceIte, hvalue]

/-- A time of day on a day of the calendar, from year one on, less than a day from offset zero. -/
structure Proper (i : Instant) : Prop where
  date : i.date.Valid
  year_pos : 1 ≤ i.date.year
  year_lt : i.date.year < 10000
  hour_lt : i.hour < 24
  minute_lt : i.minute < 60
  second_lt : i.second < 60
  micro_lt : i.micro < 1000000
  offset_lt : ∀ m ∈ i.offset, m.natAbs < 1440

theorem Proper.dated?_text {i : Instant} (h : i.Proper) : dated? i.text.toList = some i := by
  have hdate := leading_dateChars h.date h.year_lt
  have hhour : ∀ rest, digits? 2 (padded 2 i.hour ++ rest) = some (i.hour, rest) :=
    digits?_padded (Nat.lt_trans h.hour_lt (by decide))
  have hminute : ∀ rest, digits? 2 (padded 2 i.minute ++ rest) = some (i.minute, rest) :=
    digits?_padded (Nat.lt_trans h.minute_lt (by decide))
  have hseconds := seconds?_written h.second_lt h.micro_lt i.offset
  have hoffset := offset?_written h.offset_lt
  have hletter (cs : List Char) : after? ['T', 't', ' ', '_'] ('T' :: cs) = some cs :=
    after?_cons rfl cs
  have hcolon (cs : List Char) : after? [':'] (':' :: cs) = some cs := after?_cons rfl cs
  have hin : (23 < i.hour || 59 < i.minute) = false := by
    have hhour := h.hour_lt
    have hminute := h.minute_lt
    simp
    omega
  simp only [List.cons_append, List.append_assoc] at hseconds
  simp only [text, String.toList_ofList, List.append_assoc, List.cons_append, dated?, hdate,
    Except.toOption, hletter, hhour, hcolon, hminute, hin, hseconds, hoffset, Option.bind_eq_bind,
    Option.bind_some, Bool.false_eq_true, ↓reduceIte]

/-! ### the whole -/

theorem mark_not_mem_text (i : Instant) : Text.mark ∉ i.text.toList := by
  have hdigits (width n : Nat) : Text.mark ∉ padded width n := fun hm =>
    absurd (isDigit_of_mem_padded _ hm) (by decide)
  have hmark : Text.mark ≠ '-' ∧ Text.mark ≠ 'T' ∧ Text.mark ≠ ':' ∧ Text.mark ≠ '.' := by decide
  have hmicro : Text.mark ∉ microChars i.micro := by
    unfold microChars
    split_ifs
    · exact List.not_mem_nil
    · simp [hdigits, hmark]
  have hoffset : Text.mark ∉ offsetChars i.offset := by
    have hsigns (m : Int) : Text.mark ≠ if m < 0 then '-' else '+' := by split_ifs <;> decide
    unfold offsetChars
    split
    · exact List.not_mem_nil
    · decide
    · simp [hdigits, hmark, hsigns]
  simp [text, dateChars, hdigits, hmark, hmicro, hoffset]

/-- **An instant of the calendar is read back.** -/
theorem Proper.instant_text {i : Instant} (h : i.Proper) : Intake.instant (.text i.text) = .ok i := by
  have hplain := Text.plain?_eq_self (mark_not_mem_text i)
  have hyear : i.date.year ≠ 0 := Nat.ne_of_gt h.year_pos
  simp only [Intake.instant, hplain, Option.elim_some, Intake.writtenInstant, h.dated?_text, ok_bind,
    Intake.inCalendar, if_neg hyear]

end Instant

end Ladybug
