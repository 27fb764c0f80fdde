import Ladybug.Proofs.Decimal
import Ladybug.Proofs.Decimal.Rounding
import Mathlib.Data.List.TakeWhile

/-!
# The shortest digits of a number

The digits that are written for a number lie among the values that are rounded to it, and a grid of
seventeen digits always has such a value.

* `rounds_of_contains`   what lies in the interval of a number is rounded to it
* `exists_neighbour?`    a grid finer than an interval has a hit
* `search_of_hit`        the search ends on a grid with a hit
* `Digits.value`         the value of digits with their point
* `rounds_shortest`      the digits of a number are rounded to it
* `proper_shortest`      the first of them is no zero
-/

namespace Ladybug.Decimal
open Ladybug Binary

/-! ### the reals that round to a number -/

theorem ratio_snd (m m' : ℕ) (e : ℤ) : (ratio m e).2 = (ratio m' e).2 := by
  unfold ratio
  split_ifs <;> rfl

/-- Where the interval of a number begins, in quarters of its unit. -/
def lowQuarters (m : ℕ) (e : ℤ) : ℕ :=
  if m == 2 ^ 52 && -1074 < e then 4 * m - 1 else 4 * m - 2

theorem rounding_eq (m : ℕ) (e : ℤ) :
    0 < (rounding m e).unit
      ∧ ((rounding m e).low : ℚ) / (rounding m e).unit = lowQuarters m e * 2 ^ (e - 2)
      ∧ ((rounding m e).high : ℚ) / (rounding m e).unit = (4 * m + 2 : ℕ) * 2 ^ (e - 2) := by
  obtain ⟨hpos, hlow⟩ := ratio_eq (lowQuarters m e) (e - 2)
  obtain ⟨-, hhigh⟩ := ratio_eq (4 * m + 2) (e - 2)
  rw [ratio_snd _ (lowQuarters m e)] at hhigh
  exact ⟨hpos, hlow, hhigh⟩

theorem div_le_div_iff_mul {a b c d : ℕ} (hb : 0 < b) (hd : 0 < d) :
    (a : ℚ) / b ≤ c / d ↔ a * d ≤ c * b := by
  rw [div_le_div_iff₀ (by exact_mod_cast hb) (by exact_mod_cast hd)]
  exact_mod_cast Iff.rfl

theorem div_lt_div_iff_mul {a b c d : ℕ} (hb : 0 < b) (hd : 0 < d) :
    (a : ℚ) / b < c / d ↔ a * d < c * b := by
  rw [div_lt_div_iff₀ (by exact_mod_cast hb) (by exact_mod_cast hd)]
  exact_mod_cast Iff.rfl

theorem contains_iff (i : Interval) (hunit : 0 < i.unit) {n d : ℕ} (hd : 0 < d) :
    i.contains n d = true ↔
      if i.closed then (i.low : ℚ) / i.unit ≤ n / d ∧ (n : ℚ) / d ≤ i.high / i.unit
      else (i.low : ℚ) / i.unit < n / d ∧ (n : ℚ) / d < i.high / i.unit := by
  rw [div_le_div_iff_mul hunit hd, div_le_div_iff_mul hd hunit, div_lt_div_iff_mul hunit hd,
    div_lt_div_iff_mul hd hunit]
  unfold Interval.contains
  split_ifs <;> simp

theorem quarters (x : ℚ) (e : ℤ) : x * 2 ^ (e - 2) = x / 4 * 2 ^ e := by
  rw [zpow_sub₀ (by norm_num)]
  norm_num
  ring

theorem lowQuarters_cases {m : ℕ} (hm : m ≠ 0) (e : ℤ) :
    (m = 2 ^ 52 ∧ -1074 < e ∧ (lowQuarters m e : ℚ) / 4 = m - 1 / 4) ∨
      (¬ (m = 2 ^ 52 ∧ -1074 < e) ∧ (lowQuarters m e : ℚ) / 4 = m - 1 / 2) := by
  unfold lowQuarters
  by_cases h : m = 2 ^ 52 ∧ -1074 < e
  · rw [if_pos (by simpa using h), Nat.cast_sub (by omega)]
    push_cast
    exact .inl ⟨h.1, h.2, by ring⟩
  · rw [if_neg (by simpa using h), Nat.cast_sub (by omega)]
    push_cast
    exact .inr ⟨h, by ring⟩

/-- **What lies in the interval of a number is rounded to it.** -/
theorem rounds_of_contains {negative : Bool} {m : ℕ} {e : ℤ}
    (h : (finite negative m e).Representable) (hm : m ≠ 0) {n d : ℕ} (hd : 0 < d)
    (hin : (rounding m e).contains n d = true) : Rounds ((n : ℚ) / d) m e := by
  obtain ⟨hlt, hleast, -, hfine⟩ := h
  obtain ⟨hunit, hlow, hhigh⟩ := rounding_eq m e
  rw [contains_iff _ hunit hd, hlow, hhigh, quarters, quarters, ← le_div_iff₀ (two_zpow_pos e),
    ← lt_div_iff₀ (two_zpow_pos e), ← div_le_iff₀ (two_zpow_pos e),
    ← div_lt_iff₀ (two_zpow_pos e)] at hin
  have hclosed : (rounding m e).closed = true ↔ m % 2 = 0 := beq_iff_eq
  have hend : ((4 * m + 2 : ℕ) : ℚ) / 4 = m + 1 / 2 := by push_cast; ring
  have hstart := lowQuarters_cases hm e
  rw [hend] at hin
  -- the units of the value, which only these facts are about
  suffices hunits : ∀ x : ℚ, x = (n : ℚ) / d / 2 ^ e →
      Nearest x m ∧ (e = -1074 ∨ 2 ^ 52 - 1 / 4 ≤ x) by
    obtain ⟨hnearest, hfinest⟩ := hunits _ rfl
    exact ⟨hnearest, hleast, hlt.le, hfinest⟩
  intro x hx
  rw [← hx] at hin
  have hlow : (lowQuarters m e : ℚ) / 4 ≤ x := by
    split_ifs at hin
    · exact hin.1
    · exact hin.1.le
  have hhigh : x ≤ m + 1 / 2 := by
    split_ifs at hin
    · exact hin.2
    · exact hin.2.le
  refine ⟨⟨?_, hhigh, fun htie => ?_⟩, ?_⟩
  · rcases hstart with ⟨-, -, hstart⟩ | ⟨-, hstart⟩ <;> linarith
  · by_contra hodd
    rw [if_neg (hclosed.not.mpr hodd)] at hin
    rcases hstart with ⟨-, -, hstart⟩ | ⟨-, hstart⟩ <;> rcases htie with rfl | rfl <;> linarith
  · rcases hstart with ⟨hm52, -, hstart⟩ | ⟨hne, hstart⟩
    · right
      have hcast : (m : ℚ) = 2 ^ 52 := by rw [hm52]; norm_num
      linarith
    · refine hfine.elim .inl fun hle => ?_
      by_cases he : e = -1074
      · exact .inl he
      · have hmore : 2 ^ 52 + 1 ≤ m := by omega
        have hmore : ((2 ^ 52 + 1 : ℕ) : ℚ) ≤ m := by exact_mod_cast hmore
        push_cast at hmore
        right
        linarith

/-! ### the decimals of a grid -/

theorem ten_zpow_toNat {p : ℤ} (h : 0 ≤ p) : ((10 ^ p.toNat : ℕ) : ℚ) = 10 ^ p := by
  rw [← Int.toNat_of_nonneg h, zpow_natCast]
  push_cast
  rfl

theorem onGrid_eq (n : ℕ) {d : ℕ} (hd : 0 < d) (places : ℤ) :
    0 < (onGrid n d places).1.2 ∧ 0 < (onGrid n d places).2.2
      ∧ ((onGrid n d places).1.1 : ℚ) / (onGrid n d places).1.2 = n / d * 10 ^ places
      ∧ ((onGrid n d places).2.1 : ℚ) / (onGrid n d places).2.2 = 10 ^ (-places) := by
  unfold onGrid
  simp only [Nat.pow_eq]
  split_ifs with h
  · have hpow := ten_zpow_toNat h
    refine ⟨hd, by positivity, ?_, ?_⟩
    · rw [Nat.cast_mul, hpow, mul_div_right_comm]
    · rw [hpow, zpow_neg, Nat.cast_one, one_div]
  · have hpow := ten_zpow_toNat (p := -places) (by omega)
    refine ⟨by positivity, Nat.one_pos, ?_, ?_⟩
    · rw [Nat.cast_mul, hpow, ← div_div, zpow_neg, div_inv_eq_mul]
    · rw [hpow, Nat.cast_one, div_one]

/-- A number of steps is the decimal with these digits. -/
theorem steps_eq_decimal (k n : ℕ) {d : ℕ} (hd : 0 < d) (places : ℤ) :
    ((k * (onGrid n d places).2.1 : ℕ) : ℚ) / (onGrid n d places).2.2 = decimal k (-places) := by
  obtain ⟨-, -, -, hstep⟩ := onGrid_eq n hd places
  rw [Nat.cast_mul, mul_div_assoc, hstep, decimal]

theorem roundDiv_cases (n d : ℕ) : roundDiv n d = n / d ∨ roundDiv n d = n / d + 1 := by
  simp only [roundDiv]
  have hbit := Nat.mod_two_eq_zero_or_one (n / d)
  split_ifs <;> omega

/-- A neighbour lies in the interval. -/
theorem contains_neighbour? {i : Interval} {n d k : ℕ} {places : ℤ}
    (h : neighbour? i n d places = some k) :
    i.contains (k * (onGrid n d places).2.1) (onGrid n d places).2.2 = true := by
  simp only [neighbour?] at h
  split at h
  case h_1 hlower hupper =>
    cases h
    rcases roundDiv_cases (onGrid n d places).1.1 (onGrid n d places).1.2 with heq | heq
    · rwa [heq]
    · rwa [heq]
  case h_2 hlower _ =>
    cases h
    exact hlower
  case h_3 _ hupper =>
    cases h
    exact hupper
  case h_4 => cases h

theorem contains_of_lt {i : Interval} (hunit : 0 < i.unit) {n d : ℕ} (hd : 0 < d)
    (hlow : (i.low : ℚ) / i.unit < n / d) (hhigh : (n : ℚ) / d < i.high / i.unit) :
    i.contains n d = true := by
  rw [contains_iff i hunit hd]
  split_ifs
  · exact ⟨hlow.le, hhigh.le⟩
  · exact ⟨hlow, hhigh⟩

/-- **A grid finer than the interval has a hit**: the neighbours are one step apart, with the number
between them. -/
theorem exists_neighbour? {i : Interval} (hunit : 0 < i.unit) {n d : ℕ} (hd : 0 < d) {places : ℤ}
    (hlow : (i.low : ℚ) / i.unit < n / d) (hhigh : (n : ℚ) / d < i.high / i.unit)
    (hstep : (10 : ℚ) ^ (-places) < i.high / i.unit - i.low / i.unit) :
    ∃ k, neighbour? i n d places = some k := by
  obtain ⟨hy, ht, hgrid, -⟩ := onGrid_eq n hd places
  have hpos : (0 : ℚ) < 10 ^ (-places) := zpow_pos (by norm_num) _
  have hmem (k : ℕ) (hl : (i.low : ℚ) / i.unit < decimal k (-places))
      (hh : decimal k (-places) < (i.high : ℚ) / i.unit) :
      i.contains (k * (onGrid n d places).2.1) (onGrid n d places).2.2 = true := by
    rw [← steps_eq_decimal k n hd places] at hl hh
    exact contains_of_lt hunit ht hl hh
  simp only [neighbour?]
  set q := (onGrid n d places).1.1 / (onGrid n d places).1.2 with hq
  have hvalue : (n : ℚ) / d = ((onGrid n d places).1.1 : ℚ) / (onGrid n d places).1.2
      * 10 ^ (-places) := by
    rw [hgrid, mul_assoc, ← zpow_add₀ (by norm_num), add_neg_cancel, zpow_zero, mul_one]
  have hbelow : decimal q (-places) ≤ n / d := by
    rw [hvalue, decimal]
    refine mul_le_mul_of_nonneg_right ?_ hpos.le
    rw [le_div_iff₀ (by exact_mod_cast hy)]
    exact_mod_cast Nat.div_mul_le_self _ _
  have habove : (n : ℚ) / d < decimal (q + 1) (-places) := by
    rw [hvalue, decimal]
    refine mul_lt_mul_of_pos_right ?_ hpos
    rw [div_lt_iff₀ (by exact_mod_cast hy)]
    exact_mod_cast Nat.lt_mul_of_div_lt (Nat.lt_succ_self q) hy
  have hnext : decimal (q + 1) (-places) = decimal q (-places) + 10 ^ (-places) := by
    simp only [decimal]
    push_cast
    ring
  split
  · exact ⟨_, rfl⟩
  · exact ⟨_, rfl⟩
  · exact ⟨_, rfl⟩
  case h_4 hlower hupper =>
    have hq : decimal q (-places) ≤ i.low / i.unit := by
      by_contra hgt
      rw [hmem q (not_le.mp hgt) (hbelow.trans_lt hhigh)] at hlower
      cases hlower
    have hq1 : (i.high : ℚ) / i.unit ≤ decimal (q + 1) (-places) := by
      by_contra hgt
      rw [hmem (q + 1) (hlow.trans habove) (not_le.mp hgt)] at hupper
      cases hupper
    linarith

/-! ### the place of the point -/

theorem pow_length_toDigits_le {n : ℕ} (h : 0 < n) :
    10 ^ ((Nat.toDigits 10 n).length - 1) ≤ n := by
  by_cases hone : (Nat.toDigits 10 n).length - 1 = 0
  · rw [hone]
    exact h
  · have hiff := Nat.length_toDigits_le_iff (b := 10) (n := n) (by decide)
      (Nat.pos_of_ne_zero hone)
    rw [← not_lt, ← hiff]
    omega

/-- The first digit is not before its place. -/
theorem ten_zpow_pointOf_le {n d : ℕ} (hd : 0 < d) (h : (10 : ℚ) ^ (-400 : ℤ) ≤ n / d) :
    (10 : ℚ) ^ (pointOf n d - 1) ≤ n / d := by
  have hk : ((400 : ℕ) : ℤ) = 400 := rfl
  rw [pointOf, Int.ofNat_eq_natCast]
  rw [← hk] at h ⊢
  generalize 400 = k at h ⊢
  have hdpos : (0 : ℚ) < d := by exact_mod_cast hd
  have hle : d ≤ n * 10 ^ k := by
    rw [zpow_neg, zpow_natCast, ← one_div, div_le_div_iff₀ (by positivity) hdpos, one_mul] at h
    exact_mod_cast h
  have hlength : 0 < (Nat.toDigits 10 (n * 10 ^ k / d)).length := Nat.length_toDigits_pos
  have hlow := pow_length_toDigits_le (Nat.div_pos hle hd)
  rw [Nat.pow_eq]
  generalize (Nat.toDigits 10 (n * 10 ^ k / d)).length = l at hlength hlow
  rw [Nat.le_div_iff_mul_le hd] at hlow
  rw [show (l : ℤ) - k - 1 = (l - 1 : ℕ) - k by omega, zpow_sub₀ (by norm_num), zpow_natCast,
    zpow_natCast, div_le_div_iff₀ (by positivity) hdpos]
  exact_mod_cast hlow

/-! ### the value of digits -/

theorem digitsValue_cons (c : Char) (cs : List Char) :
    Text.digitsValue (c :: cs)
      = (Text.digitValue? c).getD 0 * 10 ^ cs.length + Text.digitsValue cs := by
  have hfold (a : ℕ) : cs.foldl (fun n c => 10 * n + (Text.digitValue? c).getD 0) a
      = a * 10 ^ cs.length + Text.digitsValue cs := by
    unfold Text.digitsValue
    induction cs generalizing a with
    | nil => simp
    | cons c cs ih =>
      rw [List.foldl_cons, List.foldl_cons, ih (10 * a + _), ih (10 * 0 + _), List.length_cons,
        pow_succ]
      ring
  show cs.foldl _ (10 * 0 + (Text.digitValue? c).getD 0) = _
  rw [hfold, Nat.mul_zero, Nat.zero_add]

theorem digitsValue_append (xs ys : List Char) :
    Text.digitsValue (xs ++ ys) = Text.digitsValue xs * 10 ^ ys.length + Text.digitsValue ys := by
  induction xs with
  | nil =>
    show _ = 0 * _ + _
    rw [List.nil_append, Nat.zero_mul, Nat.zero_add]
  | cons x xs ih =>
    rw [List.cons_append, digitsValue_cons, digitsValue_cons, ih, List.length_append, pow_add]
    ring

theorem digitsValue_replicate (k : ℕ) : Text.digitsValue (List.replicate k '0') = 0 := by
  induction k with
  | zero => rfl
  | succ k ih =>
    have hzero : (Text.digitValue? '0').getD 0 = 0 := by decide
    rw [List.replicate_succ, digitsValue_cons, ih, hzero, Nat.zero_mul]

theorem digitsValue_lt (cs : List Char) : Text.digitsValue cs < 10 ^ cs.length := by
  induction cs with
  | nil => decide
  | cons c cs ih =>
    have hdigit : (Text.digitValue? c).getD 0 ≤ 9 := by
      unfold Text.digitValue?
      cases hfind : Text.zeros.find? fun z => z ≤ c.toNat && c.toNat < z + 10 with
      | none => exact Nat.zero_le 9
      | some z =>
        have hz := List.find?_some hfind
        simp only [Bool.and_eq_true, decide_eq_true_eq] at hz
        rw [Option.map_some, Option.getD_some]
        omega
    rw [digitsValue_cons, List.length_cons, pow_succ]
    have hmul := Nat.mul_le_mul_right (10 ^ cs.length) hdigit
    omega

/-- the value of digits with their point -/
def Digits.value (r : Digits) : ℚ :=
  decimal (Text.digitsValue r.digits) (r.point - r.digits.length)

theorem decimal_mul_pow (digits k : ℕ) (power : ℤ) :
    decimal (digits * 10 ^ k) power = decimal digits (power + k) := by
  rw [decimal, decimal, zpow_add₀ (by norm_num), zpow_natCast]
  push_cast
  ring

/-- Zeros at the end add nothing to the value. -/
theorem value_append_zeros (ds : List Char) (k : ℕ) (point : ℤ) :
    Digits.value ⟨ds ++ List.replicate k '0', point⟩ = Digits.value ⟨ds, point⟩ := by
  simp only [Digits.value]
  rw [digitsValue_append, digitsValue_replicate, List.length_replicate, Nat.add_zero,
    decimal_mul_pow, List.length_append, List.length_replicate]
  congr 1
  push_cast
  ring

/-- The zeros at the end of a text, and what stands before them. -/
theorem exists_dropZeros (cs : List Char) :
    (∃ k, cs = List.replicate k '0' ∧ dropZeros cs = ['0']) ∨
      ∃ k, cs = dropZeros cs ++ List.replicate k '0' := by
  have hsplit : cs = (cs.reverse.dropWhile (· == '0')).reverse
      ++ (cs.reverse.takeWhile (· == '0')).reverse := by
    rw [← List.reverse_append, List.takeWhile_append_dropWhile, List.reverse_reverse]
  have hzeros : (cs.reverse.takeWhile (· == '0')).reverse
      = List.replicate (cs.reverse.takeWhile (· == '0')).length '0' := by
    refine List.eq_replicate_iff.mpr ⟨List.length_reverse, fun c hc => ?_⟩
    have hzero : (c == '0') = true :=
      List.mem_takeWhile_imp (p := (· == '0')) (List.mem_reverse.mp hc)
    exact beq_iff_eq.mp hzero
  rw [hzeros] at hsplit
  unfold dropZeros
  split
  case h_1 hnil =>
    rw [hnil, List.nil_append] at hsplit
    exact .inl ⟨_, hsplit, rfl⟩
  case h_2 ds hds => exact .inr ⟨_, hsplit⟩

theorem value_dropZeros (cs : List Char) (point : ℤ) :
    Digits.value ⟨dropZeros cs, point⟩ = Digits.value ⟨cs, point⟩ := by
  have hzero (ds : List Char) (h : Text.digitsValue ds = 0) : Digits.value ⟨ds, point⟩ = 0 := by
    rw [Digits.value, h, decimal, Nat.cast_zero, zero_mul]
  rcases exists_dropZeros cs with ⟨k, hcs, hdrop⟩ | ⟨k, hcs⟩
  · rw [hdrop, hzero ['0'] (by decide), hzero cs (hcs ▸ digitsValue_replicate k)]
  · conv_rhs => rw [hcs, value_append_zeros]

/-! ### the search -/

/-- **The search ends on a grid with a hit**, at the latest on one that is known to have one. -/
theorem search_of_hit {i : Interval} {n d : ℕ} {point : ℤ} {hit : ℕ}
    (h : ∃ k, neighbour? i n d (hit - point) = some k) {left count : ℕ} (hle : count ≤ hit)
    (hlt : hit < count + left) :
    ∃ (k : ℕ) (places : ℤ), neighbour? i n d places = some k ∧ search i n d point left count
      = ⟨Nat.toDigits 10 k, (Nat.toDigits 10 k).length - places⟩ := by
  induction left generalizing count with
  | zero => omega
  | succ left ih =>
    rw [search]
    cases hfound : neighbour? i n d (Int.ofNat count - point) with
    | some k =>
      refine ⟨k, _, hfound, ?_⟩
      simp only [Digits.mk.injEq, true_and, Int.ofNat_eq_natCast]
      ring
    | none =>
      have hne : count ≠ hit := by
        rintro rfl
        obtain ⟨k, hk⟩ := h
        exact absurd (hfound.symm.trans hk) (by simp)
      exact ih (by omega) (by omega)

/-! ### the shortest digits -/

section
variable {negative : Bool} {m : ℕ} {e : ℤ}

/-- No number but zero is too small for the grids that are tried. -/
theorem ten_zpow_le_value (hleast : -1074 ≤ e) (hm : m ≠ 0) :
    (10 : ℚ) ^ (-400 : ℤ) ≤ m * 2 ^ e := by
  have hpos := two_zpow_pos e
  have hone : (1 : ℚ) ≤ m := by exact_mod_cast Nat.one_le_iff_ne_zero.mpr hm
  have hleast : (2 : ℚ) ^ (-1074 : ℤ) ≤ 2 ^ e := zpow_le_zpow_right₀ (by norm_num) hleast
  have hten : (10 : ℚ) ^ (-400 : ℤ) ≤ 10 ^ (-396 : ℤ) :=
    zpow_le_zpow_right₀ (by norm_num) (by norm_num)
  have hmul : 1 * (2 : ℚ) ^ e ≤ m * 2 ^ e := mul_le_mul_of_nonneg_right hone hpos.le
  have hhalf := ten_zpow_lt
  linarith

/-- The interval of a number, counted in units of its last place, is wide against the seventeenth
of its digits. -/
theorem lt_width (hlt : m < 2 ^ 53) (hm : m ≠ 0) (e : ℤ) :
    (m : ℚ) / 10 ^ 16 < ((4 * m + 2 : ℕ) : ℚ) / 4 - (lowQuarters m e : ℚ) / 4 := by
  push_cast
  rcases lowQuarters_cases hm e with ⟨hm52, -, hquarters⟩ | ⟨-, hquarters⟩
  · have hcast : (m : ℚ) = 2 ^ 52 := by rw [hm52]; norm_num
    rw [hquarters, hcast]
    norm_num
  · have hcast : (m : ℚ) < 2 ^ 53 := by exact_mod_cast hlt
    rw [hquarters, div_lt_iff₀ (by norm_num)]
    linarith

/-- **Seventeen digits always tell a number from its neighbours.** -/
theorem exists_neighbour?_rounding (h : (finite negative m e).Representable) (hm : m ≠ 0) :
    ∃ k, neighbour? (rounding m e) (ratio m e).1 (ratio m e).2
      ((17 : ℕ) - pointOf (ratio m e).1 (ratio m e).2) = some k := by
  obtain ⟨hlt, hleast, -, -⟩ := h
  obtain ⟨hd, hvalue⟩ := ratio_eq m e
  obtain ⟨hunit, hlow, hhigh⟩ := rounding_eq m e
  rw [quarters] at hlow hhigh
  have hpos := two_zpow_pos e
  have hpoint := ten_zpow_pointOf_le hd (hvalue ▸ ten_zpow_le_value hleast hm)
  rw [hvalue] at hpoint
  -- a step of the grid is less than the width of the interval
  have hstep : (10 : ℚ) ^ (-((17 : ℕ) - pointOf (ratio m e).1 (ratio m e).2))
      ≤ m / 10 ^ 16 * 2 ^ e := by
    rw [show -(((17 : ℕ) : ℤ) - pointOf (ratio m e).1 (ratio m e).2)
      = (pointOf (ratio m e).1 (ratio m e).2 - 1) - (16 : ℕ) by push_cast; ring,
      zpow_sub₀ (by norm_num), zpow_natCast, div_mul_eq_mul_div]
    exact div_le_div_of_nonneg_right hpoint (by norm_num)
  refine exists_neighbour? hunit hd ?_ ?_ ?_
  · rw [hlow, hvalue]
    refine mul_lt_mul_of_pos_right ?_ hpos
    rcases lowQuarters_cases hm e with ⟨-, -, hquarters⟩ | ⟨-, hquarters⟩ <;> linarith
  · rw [hhigh, hvalue]
    refine mul_lt_mul_of_pos_right ?_ hpos
    push_cast
    linarith
  · rw [hlow, hhigh, ← sub_mul]
    exact hstep.trans_lt (mul_lt_mul_of_pos_right (lt_width hlt hm e) hpos)

/-- The digits are those of a decimal in the interval, less the zeros at their end. -/
theorem exists_shortest (h : (finite negative m e).Representable) (hm : m ≠ 0) :
    ∃ (k : ℕ) (places : ℤ), Rounds (decimal k (-places)) m e
      ∧ shortest m e = ⟨dropZeros (Nat.toDigits 10 k), (Nat.toDigits 10 k).length - places⟩ := by
  obtain ⟨hd, -⟩ := ratio_eq m e
  obtain ⟨k, places, hfound, hsearch⟩ :=
    search_of_hit (exists_neighbour?_rounding h hm) (show 1 ≤ 17 by omega)
      (show 17 < 1 + 17 by omega)
  obtain ⟨-, ht, -, -⟩ := onGrid_eq (ratio m e).1 hd places
  refine ⟨k, places, ?_, ?_⟩
  · rw [← steps_eq_decimal k (ratio m e).1 hd places]
    exact rounds_of_contains h hm ht (contains_neighbour? hfound)
  · simp only [shortest, hm, ↓reduceIte, hsearch]

/-- **The digits of a number are rounded to it.** -/
theorem rounds_shortest (h : (finite negative m e).Representable) :
    Rounds (shortest m e).value m e := by
  by_cases hm : m = 0
  · have hvalue : (shortest m e).value = m * 2 ^ e := by
      rw [shortest, if_pos hm, hm, Digits.value, show Text.digitsValue ['0'] = 0 by decide, decimal]
      simp
    exact hvalue ▸ h.rounds
  · obtain ⟨k, places, hrounds, hdigits⟩ := exists_shortest h hm
    rw [hdigits, value_dropZeros, Digits.value, digitsValue_toDigits]
    rwa [sub_sub_cancel_left]

/-- Digits of which the first is a zero only in the number zero. -/
structure Digits.Proper (r : Digits) : Prop where
  ne_nil : r.digits ≠ []
  digit : ∀ c ∈ r.digits, c.isDigit = true
  head : '0' ∈ r.digits.head? → r.digits = ['0'] ∧ r.point = 1

theorem proper_shortest (h : (finite negative m e).Representable) : (shortest m e).Proper := by
  by_cases hm : m = 0
  · rw [shortest, if_pos hm]
    exact ⟨List.cons_ne_nil _ _, List.forall_mem_singleton.mpr (by decide), fun _ => ⟨rfl, rfl⟩⟩
  · obtain ⟨k, places, hrounds, hdigits⟩ := exists_shortest h hm
    have hk : k ≠ 0 := by
      rintro rfl
      rw [decimal, Nat.cast_zero, zero_mul] at hrounds
      exact hm (hrounds.eq_zero (by positivity)).1
    rw [hdigits]
    rcases exists_dropZeros (Nat.toDigits 10 k) with ⟨z, hzeros, -⟩ | ⟨z, hsplit⟩
    · have hvalue := digitsValue_toDigits k
      rw [hzeros, digitsValue_replicate] at hvalue
      exact absurd hvalue.symm hk
    · have hne : dropZeros (Nat.toDigits 10 k) ≠ [] := by
        unfold dropZeros
        split
        · exact List.cons_ne_nil _ _
        · assumption
      refine ⟨hne, fun c hc => ?_, fun hhead => ?_⟩
      · have hmem : c ∈ Nat.toDigits 10 k := hsplit ▸ List.mem_append_left _ hc
        exact isDigit_of_mem_toDigits hmem
      · refine absurd (toDigits_of_head ?_) hk
        rw [hsplit, List.head?_append_of_ne_nil _ hne]
        exact hhead

end

end Ladybug.Decimal
