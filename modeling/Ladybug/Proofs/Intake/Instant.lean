import Ladybug.Proofs.Instant
import Ladybug.Proofs.Instant.Calendar

/-!
# Instants that are taken from data

Each part of an instant that is read has a fixed number of digits and is checked, and a number of
seconds is one of those that the calendar has. So whatever is taken can be written and read back.

* `digits?_lt`         a number with a fixed number of digits
* `valid_leading`      a date at the start of a text
* `seconds?_lt`, `offset?_lt`   the end of a time of day
* `proper_dated?`, `proper_counted`   an instant in writing, and one that is counted
* `Intake.proper_instant`   what is taken as an instant is one of the calendar
-/

namespace Ladybug

namespace Instant

/-! ### parts in writing -/

theorem digits?_lt {count : Nat} {cs : List Char} {r : Nat × List Char}
    (h : digits? count cs = some r) : r.1 < 10 ^ count := by
  unfold digits? at h
  dsimp only at h
  split_ifs at h with hdigits
  cases h
  have hlength : (cs.take count).length = count := by
    rw [Bool.and_eq_true, decide_eq_true_eq] at hdigits
    exact hdigits.1
  have hlt := Decimal.digitsValue_lt (cs.take count)
  rwa [hlength] at hlt

theorem expect_eq_ok_iff {α : Type} {flaw : Flaw} {r : Option α} {a : α} :
    expect flaw r = .ok a ↔ r = some a := by
  cases r with
  | none => exact ⟨nofun, nofun⟩
  | some b => rw [expect, Except.ok.injEq, Option.some.injEq]

/-- **A date that is read is one of the calendar**, from year 0 up to year 9999. -/
theorem valid_leading {s rest : List Char} {d : Date} (h : leading s = .ok (d, rest)) :
    d.Valid ∧ d.year < 10000 := by
  unfold leading at h
  split_ifs at h
  · cases h
  · simp only [bind_eq_ok_iff, expect_eq_ok_iff] at h
    obtain ⟨⟨year, s⟩, hyear, s, -, ⟨month, s⟩, hmonth, s, -, ⟨day, s⟩, hday, h⟩ := h
    simp only [Bool.or_eq_true, decide_eq_true_eq] at h
    split_ifs at h with hmonths hdays
    cases h
    rw [not_or, Nat.not_lt, Nat.not_lt] at hmonths hdays
    exact ⟨⟨hmonths.1, hmonths.2, hdays.1, hdays.2⟩, digits?_lt hyear⟩

theorem valid_dateOnly {s : List Char} {d : Date} (h : dateOnly s = .ok d) :
    d.Valid ∧ d.year < 10000 := by
  obtain ⟨⟨date, rest⟩, hdate, h⟩ := bind_eq_ok_iff.mp h
  dsimp only at h
  split_ifs at h
  · cases h
    exact valid_leading hdate

/-- The digits that count are no more than six, and zeros come after them. -/
theorem micros?_lt {s : List Char} {r : Nat × List Char} (h : micros? s = some r) :
    r.1 < 1000000 := by
  unfold micros? at h
  dsimp only at h
  generalize s.takeWhile isDigit = ds at h
  split_ifs at h
  cases h
  have hlt := Decimal.digitsValue_lt (ds.take 6)
  have hpos : 0 < 10 ^ (6 - ds.length) := Nat.pow_pos (by decide)
  have hmul := Nat.mul_lt_mul_of_pos_right hlt hpos
  rwa [← pow_add, List.length_take, show min 6 ds.length + (6 - ds.length) = 6 by omega] at hmul

theorem seconds?_lt {s : List Char} {r : Nat × Nat × List Char} (h : seconds? s = some r) :
    r.1 < 60 ∧ r.2.1 < 1000000 := by
  unfold seconds? at h
  split at h
  case h_2 =>
    cases h
    exact ⟨Nat.zero_lt_succ _, Nat.zero_lt_succ _⟩
  case h_1 =>
    obtain ⟨⟨second, s⟩, -, h⟩ := Option.bind_eq_some_iff.mp h
    dsimp only at h
    split_ifs at h with hlarge
    · cases h
    · split at h
      · cases h
        exact ⟨Nat.lt_succ_of_le (Nat.le_of_not_lt hlarge), Nat.zero_lt_succ _⟩
      · obtain ⟨⟨micro, s⟩, hmicro, h⟩ := Option.bind_eq_some_iff.mp h
        cases h
        exact ⟨Nat.lt_succ_of_le (Nat.le_of_not_lt hlarge), micros?_lt hmicro⟩

theorem sign?_eq {s : List Char} {r : Int × List Char} (h : sign? s = some r) :
    r.1 = 1 ∨ r.1 = -1 := by
  unfold sign? at h
  split at h
  · split_ifs at h
    · cases h
      exact .inl rfl
    · cases h
      exact .inr rfl
  · cases h

theorem offset?_lt {s : List Char} {offset : Option Int} (h : offset? s = some offset) :
    ∀ m ∈ offset, m.natAbs < 1440 := by
  unfold offset? at h
  split at h
  case h_1 =>
    cases h
    exact nofun
  case h_2 | h_3 =>
    cases h
    rintro _ ⟨⟩
    decide
  case h_4 =>
    simp only [Option.bind_eq_bind, Option.bind_eq_some_iff, Bool.or_eq_true, decide_eq_true_eq]
      at h
    obtain ⟨⟨sign, s⟩, hsign, ⟨hours, s⟩, -, ⟨minutes, s⟩, -, h⟩ := h
    split_ifs at h with hlarge
    cases h
    rintro _ ⟨⟩
    rcases sign?_eq hsign with hsign | hsign
    all_goals
      dsimp only at hsign hlarge ⊢
      rw [hsign]
      omega

/-! ### the whole -/

/-- **An instant that is read in writing is one of the calendar**, but for the year 0. -/
theorem proper_dated? {s : List Char} {i : Instant} (h : dated? s = some i)
    (hyear : 1 ≤ i.date.year) : i.Proper := by
  unfold dated? at h
  simp only [Option.bind_eq_bind, Option.bind_eq_some_iff, Bool.or_eq_true, decide_eq_true_eq] at h
  obtain ⟨⟨date, s⟩, hdate, s, -, ⟨hour, s⟩, -, s, -, ⟨minute, s⟩, -, h⟩ := h
  split_ifs at h with hlarge
  · cases h
  · obtain ⟨⟨second, micro, s⟩, hseconds, h⟩ := Option.bind_eq_some_iff.mp h
    obtain ⟨offset, hoffset, h⟩ := Option.bind_eq_some_iff.mp h
    cases h
    obtain ⟨hvalid, hlt⟩ := valid_leading (toOption_eq_some_iff.mp hdate)
    obtain ⟨hsecond, hmicro⟩ := seconds?_lt hseconds
    rw [not_or, Nat.not_lt, Nat.not_lt] at hlarge
    exact ⟨hvalid, hyear, hlt, Nat.lt_succ_of_le hlarge.1, Nat.lt_succ_of_le hlarge.2, hsecond,
      hmicro, offset?_lt hoffset⟩

theorem proper_ofSeconds {seconds : Int} {micro : Nat} (hfirst : firstSecond ≤ seconds)
    (hlast : seconds ≤ lastSecond) (hmicro : micro < 1000000)
    (hyear : 1 ≤ (ofSeconds seconds micro).date.year) : (ofSeconds seconds micro).Proper := by
  have hwhole : (micro : Int) / 1000000 = 0 := by omega
  unfold firstSecond at hfirst
  unfold lastSecond at hlast
  obtain ⟨hvalid, hlt⟩ := Date.valid_ofNumber (n := seconds / 86400) (by omega) (by omega)
  unfold ofSeconds at hyear ⊢
  rw [hwhole, Int.add_zero] at hyear ⊢
  refine ⟨hvalid, hyear, hlt, ?_, ?_, ?_, ?_, ?_⟩
  all_goals dsimp only
  · omega
  · omega
  · omega
  · omega
  · rintro _ ⟨⟩
    decide

/-- **An instant that is counted is one of the calendar**, but for the year 0. -/
theorem proper_counted {number : Int} {micro : Nat} {i : Instant}
    (h : counted number micro = .ok i) (hyear : 1 ≤ i.date.year) : i.Proper := by
  unfold counted at h
  dsimp only at h
  split_ifs at h with hmillis hfirst hlast hfirst hlast
  all_goals
    cases h
    exact proper_ofSeconds (Int.not_lt.mp hfirst) (Int.not_lt.mp hlast)
      (Nat.mod_lt _ (by decide)) hyear

end Instant

namespace Intake

theorem instant_of_counted {number : Int} {micro : Nat} {i : Instant}
    (h : counted number micro = .ok i) : Instant.counted number micro = .ok i := by
  unfold counted at h
  split at h
  · cases h
    assumption
  · cases h

theorem proper_writtenInstant {s : List Char} {i : Instant} (h : writtenInstant s = .ok i)
    (hyear : 1 ≤ i.date.year) : i.Proper := by
  unfold writtenInstant at h
  dsimp only at h
  split at h
  case h_1 hdated =>
    cases h
    exact Instant.proper_dated? hdated hyear
  case h_2 =>
    split at h
    case h_2 => cases h
    case h_1 hread =>
      cases h
      split at hread
      case h_1 => exact Instant.proper_counted hread hyear
      case h_2 =>
        cases hdate : Instant.dateOnly s with
        | error f =>
          rw [hdate] at hread
          cases hread
        | ok date =>
          rw [hdate] at hread
          cases hread
          obtain ⟨hvalid, hlt⟩ := Instant.valid_dateOnly hdate
          refine ⟨hvalid, hyear, hlt, ?_, ?_, ?_, ?_, nofun⟩ <;> exact Nat.zero_lt_succ _

theorem proper_inCalendar {read : Intake Instant} {i : Instant}
    (hread : ∀ i, read = .ok i → 1 ≤ i.date.year → i.Proper)
    (h : (read >>= inCalendar) = .ok i) : i.Proper := by
  obtain ⟨j, hj, h⟩ := bind_eq_ok_iff.mp h
  unfold inCalendar at h
  split_ifs at h with hzero
  · cases h
  · cases h
    exact hread i hj (Nat.pos_of_ne_zero hzero)

/-- **Whatever is taken as an instant is one of the calendar.** -/
theorem proper_instant {d : Datum} {i : Instant} (h : instant d = .ok i) : i.Proper := by
  unfold instant at h
  split at h
  case h_1 s =>
    refine proper_inCalendar (fun i hi hyear => ?_) h
    cases hs : Text.plain? s.toList with
    | none =>
      rw [hs] at hi
      cases hi
    | some cs =>
      rw [hs] at hi
      exact proper_writtenInstant hi hyear
  case h_2 | h_3 | h_4 =>
    exact proper_inCalendar (fun i hi => Instant.proper_counted (instant_of_counted hi)) h
  case h_5 | h_6 => cases h

end Intake

end Ladybug
