import Ladybug.Decimal.Read
import Mathlib.Data.Rat.Lemmas
import Mathlib.Algebra.Order.Field.Power
import Mathlib.Algebra.Order.Ring.Rat
import Mathlib.Tactic.FieldSimp
import Mathlib.Tactic.Linarith
import Mathlib.Tactic.NormNum
import Mathlib.Tactic.Positivity
import Mathlib.Tactic.Ring

/-!
# What a binary number rounds

Rounding is about the value only, however it is written: a quotient and a decimal of one value are
rounded alike.

* `Rounds`              a significand and an exponent that a value is rounded to
* `Rounds.ofUnits_eq`   a value is rounded in one way
* `ofRatio_eq`          a quotient is rounded as its value says
* `Representable`       the numbers of the format
* `ofDecimal_eq`        a decimal is rounded as its value says
* `toInt?_ofDecimal`    a whole number of at most 53 bits is read exactly
* `Decimal.representable_signedDecimal?`   what is read is a number of the format
-/

namespace Ladybug

/-- `k` is the integer nearest to `x`, the even one of two equally near ones. -/
structure Nearest (x : ℚ) (k : ℕ) : Prop where
  low : (k : ℚ) - 1 / 2 ≤ x
  high : x ≤ k + 1 / 2
  tie : x = k - 1 / 2 ∨ x = k + 1 / 2 → k % 2 = 0

theorem Nearest.unique {x : ℚ} {k l : ℕ} (hk : Nearest x k) (hl : Nearest x l) : k = l := by
  -- of two such integers the greater one is the next, and only one of them is even
  have hlt {k l : ℕ} (hk : Nearest x k) (hl : Nearest x l) : ¬ k < l := by
    intro h
    have hle : (k : ℚ) + 1 ≤ l := by exact_mod_cast h
    have hhigh := hk.high
    have hlow := hl.low
    have hnext : l = k + 1 := by
      have : (l : ℚ) = k + 1 := by linarith
      exact_mod_cast this
    have hkeven := hk.tie (.inr (by linarith))
    have hleven := hl.tie (.inl (by linarith))
    omega
  exact Nat.le_antisymm (Nat.le_of_not_lt (hlt hl hk)) (Nat.le_of_not_lt (hlt hk hl))

theorem nearest_floor {q : ℕ} {f : ℚ} (h0 : 0 ≤ f) (h : f < 1 / 2) : Nearest (q + f) q :=
  ⟨by linarith, by linarith, by rintro (e | e) <;> linarith⟩

theorem nearest_ceil {q : ℕ} {f : ℚ} (h : 1 / 2 < f) (h1 : f < 1) : Nearest (q + f) (q + 1) := by
  constructor
  · push_cast
    linarith
  · push_cast
    linarith
  · push_cast
    rintro (e | e) <;> linarith

theorem nearest_tie (q : ℕ) : Nearest (q + 1 / 2) (q + q % 2) := by
  rcases Nat.mod_two_eq_zero_or_one q with h | h
  · rw [h]
    exact ⟨by push_cast; linarith, by push_cast; linarith, fun _ => h⟩
  · rw [h]
    exact ⟨by push_cast; linarith, by push_cast; linarith, fun _ => by omega⟩

theorem div_eq_floor_add (n : ℕ) {d : ℕ} (hd : 0 < d) :
    (n : ℚ) / d = (n / d : ℕ) + (n % d : ℕ) / d := by
  have hne : (d : ℚ) ≠ 0 := by exact_mod_cast hd.ne'
  have hsum : (d : ℚ) * (n / d : ℕ) + (n % d : ℕ) = n := by exact_mod_cast Nat.div_add_mod n d
  rw [div_eq_iff hne, add_mul, div_mul_cancel₀ _ hne, mul_comm]
  exact hsum.symm

theorem nearest_roundDiv (n : ℕ) {d : ℕ} (hd : 0 < d) : Nearest ((n : ℚ) / d) (roundDiv n d) := by
  have hpos : (0 : ℚ) < d := by exact_mod_cast hd
  have hdouble : ((2 * (n % d) : ℕ) : ℚ) = 2 * (n % d : ℕ) := by push_cast; rfl
  rw [div_eq_floor_add n hd, roundDiv]
  split_ifs with hless hmore
  · have hless : ((2 * (n % d) : ℕ) : ℚ) < d := by exact_mod_cast hless
    refine nearest_floor (by positivity) ?_
    rw [div_lt_iff₀ hpos]
    linarith
  · have hmore : (d : ℚ) < (2 * (n % d) : ℕ) := by exact_mod_cast hmore
    refine nearest_ceil ?_ ?_
    · rw [lt_div_iff₀ hpos]
      linarith
    · rw [div_lt_one hpos]
      exact_mod_cast Nat.mod_lt n hd
  · have heq : ((2 * (n % d) : ℕ) : ℚ) = d := by
      exact_mod_cast Nat.le_antisymm (Nat.le_of_not_lt hmore) (Nat.le_of_not_lt hless)
    have hhalf : ((n % d : ℕ) : ℚ) / d = 1 / 2 := by
      rw [div_eq_iff hpos.ne']
      linarith
    rw [hhalf]
    exact nearest_tie (n / d)

namespace Binary

theorem two_zpow_pos (e : ℤ) : (0 : ℚ) < 2 ^ e := zpow_pos (by norm_num) e

theorem two_zpow_toNat {e : ℤ} (h : 0 ≤ e) : ((2 ^ e.toNat : ℕ) : ℚ) = 2 ^ e := by
  rw [← Int.toNat_of_nonneg h, zpow_natCast]
  push_cast
  rfl

theorem two_zpow_neg_toNat {e : ℤ} (h : ¬ 0 ≤ e) : ((2 ^ (-e).toNat : ℕ) : ℚ) = (2 ^ e)⁻¹ := by
  rw [two_zpow_toNat (by omega), zpow_neg]

/-- The quotient of a finite number is its magnitude. -/
theorem ratio_eq (m : ℕ) (e : ℤ) :
    0 < (ratio m e).2 ∧ ((ratio m e).1 : ℚ) / (ratio m e).2 = m * 2 ^ e := by
  unfold ratio
  simp only [Nat.pow_eq]
  split_ifs with h
  · rw [Nat.cast_mul, two_zpow_toNat h, Nat.cast_one, div_one]
    exact ⟨Nat.one_pos, rfl⟩
  · rw [two_zpow_neg_toNat h, div_inv_eq_mul]
    exact ⟨by positivity, rfl⟩

theorem nearest_inUnits (n : ℕ) {d : ℕ} (hd : 0 < d) (e : ℤ) :
    Nearest ((n : ℚ) / d / 2 ^ e) (inUnits n d e) := by
  unfold inUnits
  simp only [Nat.pow_eq]
  split_ifs with h
  · have hround := nearest_roundDiv n (d := d * 2 ^ e.toNat) (by positivity)
    rwa [Nat.cast_mul, two_zpow_toNat h, ← div_div] at hround
  · have hround := nearest_roundDiv (n * 2 ^ (-e).toNat) hd
    rwa [Nat.cast_mul, two_zpow_neg_toNat h, mul_div_right_comm, ← div_eq_mul_inv] at hround

/-- `m` units of `2 ^ e` are what a number is rounded to: the unit is the finest that leaves no more
than 53 bits. -/
structure Rounds (v : ℚ) (m : ℕ) (e : ℤ) : Prop where
  nearest : Nearest (v / 2 ^ e) m
  least : -1074 ≤ e
  le : m ≤ 2 ^ 53
  finest : e = -1074 ∨ 2 ^ 52 - 1 / 4 ≤ v / 2 ^ e

theorem div_two_zpow_add (v : ℚ) (e : ℤ) (k : ℕ) : v / 2 ^ e = v / 2 ^ (e + k) * 2 ^ k := by
  rw [zpow_add₀ (by norm_num), zpow_natCast]
  field_simp

/-- Two ways to round a number differ only where one more bit makes the significand a power of
two. -/
theorem Rounds.eq_of_lt {v : ℚ} {m m' : ℕ} {e e' : ℤ} (h : Rounds v m e) (h' : Rounds v m' e')
    (hlt : e < e') : e' = e + 1 ∧ m = 2 ^ 53 ∧ m' = 2 ^ 52 := by
  obtain ⟨k, rfl⟩ : ∃ k : ℕ, e' = e + (k + 1 : ℕ) := ⟨(e' - e - 1).toNat, by omega⟩
  have hfine := h'.finest.resolve_left (by have := h.least; omega)
  have hm' := h'.nearest
  have hm := h.nearest
  have hle : (m : ℚ) ≤ 2 ^ 53 := by exact_mod_cast h.le
  rw [div_two_zpow_add v e (k + 1)] at hm
  generalize v / 2 ^ (e + (k + 1 : ℕ)) = y at hfine hm hm'
  have hhigh := hm.high
  -- two bits more would be too many for the significand
  have hk : k = 0 := by
    by_contra hne
    have hpow : (2 : ℚ) ^ 2 ≤ 2 ^ (k + 1) := pow_le_pow_right₀ (by norm_num) (by omega)
    have hmul := mul_le_mul_of_nonneg_left hpow (show 0 ≤ y by linarith)
    linarith
  subst hk
  rw [Nat.zero_add, pow_one] at hm hhigh
  have hm53 : Nearest (y * 2) (2 ^ 53) :=
    ⟨by push_cast; linarith, by push_cast; linarith, fun _ => by norm_num⟩
  have hm52 : Nearest y (2 ^ 52) :=
    ⟨by push_cast; linarith, by push_cast; linarith, fun _ => by norm_num⟩
  exact ⟨rfl, hm.unique hm53, hm'.unique hm52⟩

/-- A significand with one bit too many is a power of two. -/
theorem ofUnits_carry (negative : Bool) (e : ℤ) :
    ofUnits negative (2 ^ 53) e = ofUnits negative (2 ^ 52) (e + 1) := by
  simp only [ofUnits, Nat.pow_eq, ↓reduceIte]
  norm_num

theorem ofUnits_of_lt (negative : Bool) {m : ℕ} {e : ℤ} (hm : m < 2 ^ 53) :
    ofUnits negative m e = if 971 < e then .infinite negative else .finite negative m e := by
  simp only [ofUnits, Nat.pow_eq, hm.ne, ↓reduceIte]

/-- **A number is rounded in one way.** -/
theorem Rounds.ofUnits_eq {v : ℚ} {m m' : ℕ} {e e' : ℤ} (h : Rounds v m e) (h' : Rounds v m' e')
    (negative : Bool) : ofUnits negative m e = ofUnits negative m' e' := by
  rcases lt_trichotomy e e' with hlt | rfl | hlt
  · obtain ⟨rfl, rfl, rfl⟩ := h.eq_of_lt h' hlt
    exact ofUnits_carry negative e
  · rw [h.nearest.unique h'.nearest]
  · obtain ⟨rfl, rfl, rfl⟩ := h'.eq_of_lt h hlt
    exact (ofUnits_carry negative e').symm

/-! ### quotients -/

theorem log2_bounds {n : ℕ} (h : n ≠ 0) :
    (2 : ℚ) ^ (n.log2 : ℤ) ≤ n ∧ (n : ℚ) < 2 ^ (n.log2 + 1 : ℤ) := by
  constructor
  · rw [zpow_natCast]
    exact_mod_cast Nat.log2_self_le h
  · have hlt : n < 2 ^ (n.log2 + 1) := Nat.lt_log2_self
    have hlt : (n : ℚ) < (2 ^ (n.log2 + 1) : ℕ) := by exact_mod_cast hlt
    rw [← Nat.cast_one, ← Nat.cast_add, zpow_natCast]
    exact_mod_cast hlt

/-- The bits of a quotient, up to one of them. -/
theorem div_bounds {n d : ℕ} (hn : n ≠ 0) (hd : d ≠ 0) :
    (2 : ℚ) ^ ((n.log2 : ℤ) - d.log2 - 1) < (n : ℚ) / d ∧
      (n : ℚ) / d < 2 ^ ((n.log2 : ℤ) - d.log2 + 1) := by
  obtain ⟨hnlow, hnhigh⟩ := log2_bounds hn
  obtain ⟨hdlow, hdhigh⟩ := log2_bounds hd
  have hdpos : (0 : ℚ) < d := by exact_mod_cast Nat.pos_of_ne_zero hd
  constructor
  · rw [lt_div_iff₀ hdpos]
    calc (2 : ℚ) ^ ((n.log2 : ℤ) - d.log2 - 1) * d
        < 2 ^ ((n.log2 : ℤ) - d.log2 - 1) * 2 ^ (d.log2 + 1 : ℤ) :=
          mul_lt_mul_of_pos_left hdhigh (two_zpow_pos _)
      _ = 2 ^ (n.log2 : ℤ) := by
          rw [← zpow_add₀ (by norm_num)]
          congr 1
          ring
      _ ≤ n := hnlow
  · rw [div_lt_iff₀ hdpos]
    calc (n : ℚ) < 2 ^ (n.log2 + 1 : ℤ) := hnhigh
      _ = 2 ^ ((n.log2 : ℤ) - d.log2 + 1) * 2 ^ (d.log2 : ℤ) := by
          rw [← zpow_add₀ (by norm_num)]
          congr 1
          ring
      _ ≤ 2 ^ ((n.log2 : ℤ) - d.log2 + 1) * d :=
          mul_le_mul_of_nonneg_left hdlow (two_zpow_pos _).le

/-- **A quotient is rounded to the nearest number.** -/
theorem exists_rounds_ofRatio (negative : Bool) (n : ℕ) {d : ℕ} (hd : 0 < d) :
    ∃ m e, Rounds ((n : ℚ) / d) m e ∧ ofRatio negative n d = ofUnits negative m e := by
  unfold ofRatio
  by_cases hn : n = 0
  · rw [if_pos hn, hn, Nat.cast_zero, zero_div]
    refine ⟨0, -1074, ⟨?_, le_refl _, Nat.zero_le _, .inl rfl⟩, rfl⟩
    rw [zero_div]
    exact ⟨by norm_num, by norm_num, fun _ => rfl⟩
  · rw [if_neg hn]
    obtain ⟨hlow, hhigh⟩ := div_bounds hn hd.ne'
    simp only [Nat.pow_eq, Int.ofNat_eq_natCast]
    generalize (n.log2 : ℤ) - d.log2 = t at hlow hhigh
    set e := max (-1074) (t - 53) with he
    have hround := nearest_inUnits n hd e
    have hround' := nearest_inUnits n hd (e + 1)
    -- at least 2 ^ 52 units unless they are the finest, and less than 2 ^ 54 of them
    have hmost : (n : ℚ) / d / 2 ^ e < 2 ^ 54 := by
      rw [div_lt_iff₀ (two_zpow_pos e)]
      refine hhigh.trans_le ?_
      rw [← zpow_natCast, ← zpow_add₀ (by norm_num)]
      exact zpow_le_zpow_right₀ (by norm_num) (by push_cast; omega)
    have hleast : e = -1074 ∨ (2 : ℚ) ^ 52 < n / d / 2 ^ e := by
      rcases max_choice (-1074) (t - 53) with hmax | hmax
      · exact .inl (he.trans hmax)
      · right
        rw [lt_div_iff₀ (two_zpow_pos e), ← zpow_natCast, ← zpow_add₀ (by norm_num)]
        rwa [show ((52 : ℕ) : ℤ) + e = t - 1 by omega]
    split_ifs with hm
    · exact ⟨_, e, ⟨hround, le_max_left _ _, hm.le, hleast.imp_right fun h => by linarith⟩, rfl⟩
    · have hscale := div_two_zpow_add (n / d) e 1
      rw [Nat.cast_one, pow_one] at hscale
      rw [hscale] at hround hmost
      have hle : 2 ^ 53 ≤ inUnits n d e := Nat.le_of_not_lt hm
      have hle : (2 : ℚ) ^ 53 ≤ inUnits n d e := by exact_mod_cast hle
      have hfine := hround.low
      have hlow' := hround'.low
      refine ⟨_, e + 1, ⟨hround', by omega, ?_, .inr (by linarith)⟩, rfl⟩
      have hlt : (inUnits n d (e + 1) : ℚ) < (2 ^ 53 + 1 : ℕ) := by
        push_cast
        linarith
      exact Nat.le_of_lt_succ (by exact_mod_cast hlt)

/-! ### numbers of the format -/

/-- The numbers of the format. -/
def Representable : Binary → Prop
  | .finite _ m e => m < 2 ^ 53 ∧ -1074 ≤ e ∧ e ≤ 971 ∧ (e = -1074 ∨ 2 ^ 52 ≤ m)
  | _ => True

instance (x : Binary) : Decidable x.Representable := by
  cases x <;> unfold Representable <;> infer_instance

theorem Rounds.representable {v : ℚ} {m : ℕ} {e : ℤ} (h : Rounds v m e) (negative : Bool) :
    (ofUnits negative m e).Representable := by
  have hleast := h.least
  have hle := h.le
  by_cases hm : m = 2 ^ 53
  · rw [hm, ofUnits_carry, ofUnits_of_lt negative (by norm_num)]
    split_ifs with he
    · trivial
    · exact ⟨by norm_num, by omega, by omega, .inr (le_refl _)⟩
  · rw [ofUnits_of_lt negative (by omega)]
    split_ifs with he
    · trivial
    · refine ⟨by omega, hleast, by omega, h.finest.imp_right fun hfine => ?_⟩
      have hhigh := h.nearest.high
      have hlt : ((2 ^ 52 : ℕ) : ℚ) < (m + 1 : ℕ) := by
        push_cast
        linarith
      exact Nat.le_of_lt_succ (by exact_mod_cast hlt)

theorem representable_ofRatio (negative : Bool) (n : ℕ) {d : ℕ} (hd : 0 < d) :
    (ofRatio negative n d).Representable := by
  obtain ⟨m, e, hrounds, heq⟩ := exists_rounds_ofRatio negative n hd
  exact heq ▸ hrounds.representable negative

/-- **A quotient is rounded as its value says.** -/
theorem ofRatio_eq {n d : ℕ} (hd : 0 < d) {m : ℕ} {e : ℤ} (h : Rounds ((n : ℚ) / d) m e)
    (negative : Bool) : ofRatio negative n d = ofUnits negative m e := by
  obtain ⟨m', e', hrounds, heq⟩ := exists_rounds_ofRatio negative n hd
  rw [heq, hrounds.ofUnits_eq h]

/-! ### decimals -/

/-- the value of digits with a power of ten -/
def decimal (digits : ℕ) (power : ℤ) : ℚ := digits * 10 ^ power

theorem decimal_of_nonneg (digits : ℕ) {power : ℤ} (h : 0 ≤ power) :
    decimal digits power = (digits * 10 ^ power.toNat : ℕ) := by
  rw [decimal]
  conv_lhs => rw [← Int.toNat_of_nonneg h, zpow_natCast]
  push_cast
  rfl

theorem decimal_of_neg (digits : ℕ) {power : ℤ} (h : ¬ 0 ≤ power) :
    decimal digits power = (digits : ℚ) / (10 ^ (-power).toNat : ℕ) := by
  rw [decimal, div_eq_mul_inv]
  conv_lhs => rw [show power = -((-power).toNat : ℤ) by omega, zpow_neg, zpow_natCast]
  push_cast
  rfl

theorem ten_pow_le (l : ℕ) : 10 ^ (l * 3 / 10) ≤ 2 ^ l := by
  rw [← Nat.pow_le_pow_iff_left (n := 10) (by decide), ← pow_mul, ← pow_mul]
  calc 10 ^ (l * 3 / 10 * 10) ≤ 10 ^ (3 * l) := Nat.pow_le_pow_right (by decide) (by omega)
    _ = (10 ^ 3) ^ l := pow_mul ..
    _ ≤ (2 ^ 10) ^ l := Nat.pow_le_pow_left (by decide) l
    _ = 2 ^ (l * 10) := by rw [← pow_mul, mul_comm]

theorem two_pow_lt (l : ℕ) : 2 ^ (l + 1) ≤ 10 ^ (l * 3 / 10 + l / 10 + 4) := by
  calc 2 ^ (l + 1) ≤ 2 ^ (10 * (l / 10 + 1)) := Nat.pow_le_pow_right (by decide) (by omega)
    _ = (2 ^ 10) ^ (l / 10 + 1) := pow_mul ..
    _ ≤ (10 ^ 4) ^ (l / 10 + 1) := Nat.pow_le_pow_left (by decide) _
    _ = 10 ^ (4 * (l / 10 + 1)) := (pow_mul ..).symm
    _ ≤ 10 ^ (l * 3 / 10 + l / 10 + 4) := Nat.pow_le_pow_right (by decide) (by omega)

/-- The size of a decimal, as its bits tell. -/
theorem decimal_bounds {digits : ℕ} (h : digits ≠ 0) (power : ℤ) :
    (10 : ℚ) ^ ((digits.log2 * 3 / 10 : ℕ) + power) ≤ decimal digits power ∧
      decimal digits power
        < 10 ^ ((digits.log2 * 3 / 10 : ℕ) + power + (digits.log2 / 10 : ℕ) + 4) := by
  have hpos : (0 : ℚ) < 10 ^ power := zpow_pos (by norm_num) _
  have hlow : 10 ^ (digits.log2 * 3 / 10) ≤ digits := (ten_pow_le _).trans (Nat.log2_self_le h)
  have hhigh : digits < 10 ^ (digits.log2 * 3 / 10 + digits.log2 / 10 + 4) :=
    Nat.lt_log2_self.trans_le (two_pow_lt _)
  constructor
  · rw [zpow_add₀ (by norm_num), zpow_natCast, decimal]
    exact mul_le_mul_of_nonneg_right (by exact_mod_cast hlow) hpos.le
  · rw [show ((digits.log2 * 3 / 10 : ℕ) : ℤ) + power + (digits.log2 / 10 : ℕ) + 4
        = (digits.log2 * 3 / 10 + digits.log2 / 10 + 4 : ℕ) + power by push_cast; ring,
      zpow_add₀ (by norm_num), zpow_natCast, decimal]
    exact mul_lt_mul_of_pos_right (by exact_mod_cast hhigh) hpos

theorem two_zpow_lt : (2 : ℚ) ^ (1025 : ℤ) < 10 ^ (400 : ℤ) := by
  have h : 2 ^ 1025 < 10 ^ 400 := by decide +kernel
  exact_mod_cast h

theorem ten_zpow_lt : (10 : ℚ) ^ (-396 : ℤ) < 1 / 2 * 2 ^ (-1074 : ℤ) := by
  have h : 2 * 2 ^ 1074 < 10 ^ 396 := by decide +kernel
  have h : (2 : ℚ) * 2 ^ (1074 : ℤ) < 10 ^ (396 : ℤ) := by exact_mod_cast h
  rw [zpow_neg, zpow_neg, one_div, ← mul_inv]
  exact inv_strictAnti₀ (by positivity) h

theorem Rounds.infinite {v : ℚ} {m : ℕ} {e : ℤ} (h : Rounds v m e) (hv : 10 ^ (400 : ℤ) ≤ v)
    (negative : Bool) : ofUnits negative m e = .infinite negative := by
  have hle : (m : ℚ) ≤ 2 ^ 53 := by exact_mod_cast h.le
  have hlt : v < 2 ^ (54 + e) := by
    rw [zpow_add₀ (by norm_num), ← div_lt_iff₀ (two_zpow_pos e)]
    have hhigh := h.nearest.high
    have hpow : (2 : ℚ) ^ (54 : ℤ) = 2 ^ 53 * 2 := by norm_num
    linarith
  have he : 971 < e := by
    by_contra hne
    have hmost : (2 : ℚ) ^ (54 + e) ≤ 2 ^ (1025 : ℤ) :=
      zpow_le_zpow_right₀ (by norm_num) (by omega)
    exact absurd (hv.trans_lt (hlt.trans_le hmost)) (not_lt.mpr two_zpow_lt.le)
  by_cases hm : m = 2 ^ 53
  · rw [hm, ofUnits_carry, ofUnits_of_lt negative (by norm_num), if_pos (by omega)]
  · rw [ofUnits_of_lt negative (lt_of_le_of_ne h.le hm), if_pos he]

theorem Rounds.eq_zero {v : ℚ} {m : ℕ} {e : ℤ} (h : Rounds v m e)
    (hv : v < 10 ^ (-396 : ℤ)) : m = 0 ∧ e = -1074 := by
  have hpow : (2 : ℚ) ^ (-1074 : ℤ) ≤ 2 ^ e := zpow_le_zpow_right₀ (by norm_num) h.least
  have hsmall : v / 2 ^ e < 1 / 2 := by
    rw [div_lt_iff₀ (two_zpow_pos e)]
    have hten := ten_zpow_lt
    linarith
  constructor
  · have hlow := h.nearest.low
    have hlt : (m : ℚ) < (1 : ℕ) := by
      push_cast
      linarith
    have hlt : m < 1 := by exact_mod_cast hlt
    omega
  · refine h.finest.resolve_right fun hfine => ?_
    linarith

/-- **A decimal is rounded as its value says**, also where its size alone settles it. -/
theorem ofDecimal_eq {digits : ℕ} {power : ℤ} {m : ℕ} {e : ℤ}
    (h : Rounds (decimal digits power) m e) (negative : Bool) :
    ofDecimal negative digits power = ofUnits negative m e := by
  have hzero (h : m = 0 ∧ e = -1074) : ofUnits negative m e = .finite negative 0 (-1074) := by
    obtain ⟨rfl, rfl⟩ := h
    rfl
  unfold ofDecimal
  simp only [Nat.pow_eq, Int.ofNat_eq_natCast]
  split_ifs with hd hlarge hsmall hpower
  · refine (hzero (h.eq_zero ?_)).symm
    rw [hd, decimal, Nat.cast_zero, zero_mul]
    positivity
  · refine (h.infinite (le_trans ?_ (decimal_bounds hd power).1) negative).symm
    exact zpow_le_zpow_right₀ (by norm_num) hlarge.le
  · refine (hzero (h.eq_zero ((decimal_bounds hd power).2.trans_le ?_))).symm
    exact zpow_le_zpow_right₀ (by norm_num) (by omega)
  · rw [decimal_of_nonneg digits hpower] at h
    refine ofRatio_eq Nat.one_pos ?_ negative
    rwa [Nat.cast_one, div_one]
  · rw [decimal_of_neg digits hpower] at h
    exact ofRatio_eq (by positivity) h negative

theorem representable_ofDecimal (negative : Bool) (digits : ℕ) (power : ℤ) :
    (ofDecimal negative digits power).Representable := by
  have hzero : (Binary.finite negative 0 (-1074)).Representable :=
    ⟨by norm_num, by norm_num, by norm_num, .inl rfl⟩
  unfold ofDecimal
  simp only [Nat.pow_eq]
  split_ifs
  · exact hzero
  · trivial
  · exact hzero
  · exact representable_ofRatio negative _ Nat.one_pos
  · exact representable_ofRatio negative _ (by positivity)

/-! ### whole numbers -/

theorem nearest_natCast (m : ℕ) : Nearest m m :=
  ⟨by linarith, by linarith, by rintro (h | h) <;> linarith⟩

theorem rounds_of_eq {v : ℚ} {m : ℕ} {e : ℤ} (hv : m * 2 ^ e = v) (hleast : -1074 ≤ e)
    (hm : m < 2 ^ 53) (hfine : e = -1074 ∨ 2 ^ 52 ≤ m) : Rounds v m e := by
  have hunits : v / 2 ^ e = m := by rw [← hv, mul_div_cancel_right₀ _ (two_zpow_pos e).ne']
  refine ⟨hunits ▸ nearest_natCast m, hleast, hm.le, hfine.imp_right fun h => ?_⟩
  have h : (2 : ℚ) ^ 52 ≤ m := by exact_mod_cast h
  rw [hunits]
  linarith

/-- A number of the format is rounded to itself. -/
theorem Representable.rounds {negative : Bool} {m : ℕ} {e : ℤ}
    (h : (finite negative m e).Representable) : Rounds (m * 2 ^ e) m e :=
  rounds_of_eq rfl h.2.1 h.1 h.2.2.2

theorem ofUnits_of_representable {negative : Bool} {m : ℕ} {e : ℤ}
    (h : (finite negative m e).Representable) :
    ofUnits negative m e = .finite negative m e := by
  rw [ofUnits_of_lt negative h.1, if_neg (by have := h.2.2.1; omega)]

/-- A whole number of at most 53 bits, or the next one, is a number of the format. -/
theorem exists_eq_natCast {n : ℕ} (h : n ≤ 2 ^ 53) (negative : Bool) :
    ∃ (m : ℕ) (e : ℤ), (finite negative m e).Representable ∧ (m : ℚ) * 2 ^ e = n := by
  by_cases hn : n = 0
  · exact ⟨0, -1074, ⟨by norm_num, le_refl _, by norm_num, .inl rfl⟩, by rw [hn]; simp⟩
  rcases h.lt_or_eq with hlt | rfl
  · have hlog : n.log2 ≤ 52 := Nat.le_of_lt_succ ((Nat.log2_lt hn).mpr hlt)
    have hlow : 2 ^ n.log2 ≤ n := Nat.log2_self_le hn
    have hhigh : n < 2 ^ (n.log2 + 1) := Nat.lt_log2_self
    have hpos : 0 < 2 ^ (52 - n.log2) := by positivity
    refine ⟨n * 2 ^ (52 - n.log2), n.log2 - 52, ⟨?_, by omega, by omega, .inr ?_⟩, ?_⟩
    · calc n * 2 ^ (52 - n.log2) < 2 ^ (n.log2 + 1) * 2 ^ (52 - n.log2) :=
            Nat.mul_lt_mul_of_pos_right hhigh hpos
        _ = 2 ^ 53 := by rw [← pow_add]; congr 1; omega
    · calc 2 ^ 52 = 2 ^ n.log2 * 2 ^ (52 - n.log2) := by rw [← pow_add]; congr 1; omega
        _ ≤ n * 2 ^ (52 - n.log2) := Nat.mul_le_mul_right _ hlow
    · rw [Nat.cast_mul, Nat.cast_pow, Nat.cast_two, ← zpow_natCast, mul_assoc,
        ← zpow_add₀ (by norm_num), show ((52 - n.log2 : ℕ) : ℤ) + (n.log2 - 52) = 0 by omega,
        zpow_zero, mul_one]
  · exact ⟨2 ^ 52, 1, ⟨by norm_num, by norm_num, by norm_num, .inr (le_refl _)⟩, by norm_num⟩

theorem toInt?_finite {negative : Bool} {m n : ℕ} {e : ℤ} (h : (m : ℚ) * 2 ^ e = n) :
    (finite negative m e).toInt? = some (if negative then -(n : ℤ) else n) := by
  obtain ⟨hpos, hratio⟩ := ratio_eq m e
  have hne : ((ratio m e).2 : ℚ) ≠ 0 := by exact_mod_cast hpos.ne'
  rw [h, div_eq_iff hne] at hratio
  have hratio : (ratio m e).1 = n * (ratio m e).2 := by exact_mod_cast hratio
  have hdiv : (ratio m e).1 / (ratio m e).2 = n := by rw [hratio, Nat.mul_div_cancel _ hpos]
  simp only [toInt?, hdiv, Int.ofNat_eq_natCast]

/-- **A whole number of at most 53 bits is read exactly.** -/
theorem toInt?_ofDecimal {n : ℕ} (h : n ≤ 2 ^ 53) (negative : Bool) :
    (ofDecimal negative n 0).toInt? = some (if negative then -(n : ℤ) else n) := by
  obtain ⟨m, e, hrep, heq⟩ := exists_eq_natCast h negative
  have hvalue : decimal n 0 = (m : ℚ) * 2 ^ e := by rw [heq, decimal, zpow_zero, mul_one]
  rw [ofDecimal_eq (hvalue ▸ hrep.rounds) negative, ofUnits_of_representable hrep,
    toInt?_finite heq]

end Binary

/-! ### numbers that are read -/

namespace Decimal
open Binary

theorem representable_negate {x : Binary} (h : x.Representable) : (negate x).Representable := by
  cases x with
  | finite negative m e => exact h
  | infinite negative => trivial
  | nan => trivial

theorem representable_decimal? {negative : Bool} {cs : List Char} {x : Binary}
    (h : decimal? negative cs = some x) : x.Representable := by
  unfold decimal? at h
  dsimp only at h
  -- wherever a number comes out, it is one that a decimal is rounded to
  split_ifs at h <;> split at h <;> try split_ifs at h
  all_goals
    cases h
    try exact representable_ofDecimal _ _ _

theorem representable_signedDecimal? {cs : List Char} {x : Binary}
    (h : signedDecimal? cs = some x) : x.Representable := by
  have hspecial : ∀ w ∈ specialNumbers, w.2.Representable := by decide
  unfold signedDecimal? at h
  dsimp only at h
  split at h
  · rename_i hfind
    have hx := hspecial _ (List.mem_of_find?_eq_some hfind)
    cases h
    split_ifs
    · exact representable_negate hx
    · exact hx
  · exact representable_decimal? h

end Decimal

end Ladybug
