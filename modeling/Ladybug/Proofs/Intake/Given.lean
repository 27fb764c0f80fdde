import Ladybug.Proofs.Intake
import Ladybug.Proofs.Json.Given

/-!
# What is taken from data that JSON gives

A property that is shown for each reading of a value holds of what is read in lists and fields.

* `Intake.Yields`   what is read from JSON has a property
* `representable_float`, `short_int`, `short_nat`, `sound_text`   scalars
* `Yields.optional`, `Yields.list`, `Yields.field`, `Yields.fieldOr`   values, lists and fields
-/

namespace Ladybug

namespace Intake
open Json (Given)

/-- What is read from JSON has a property. -/
def Yields {α : Type} (read : Datum → Intake α) (P : α → Prop) : Prop :=
  ∀ ⦃d a⦄, Given d → read d = .ok a → P a

/-! ### scalars -/

theorem representable_writtenFloat? {cs : List Char} {x : Binary}
    (h : writtenFloat? cs = some x) : x.Representable := by
  unfold writtenFloat? at h
  split at h
  · rename_i hread
    cases h
    exact Decimal.representable_signedDecimal? hread
  · split_ifs at h
    · obtain ⟨ds, -, hread⟩ := Option.bind_eq_some_iff.mp h
      exact Decimal.representable_signedDecimal? hread

theorem representable_ofInt (i : Int) : (Binary.ofInt i).Representable :=
  Binary.representable_ofRatio _ _ Nat.one_pos

/-- what is read from a text that a datum writes -/
theorem written_eq_ok {α : Type} {notWritten flaw : String} {read : List Char → Intake α}
    {d : Datum} {a : α} (h : written notWritten flaw read d = .ok a) :
    ∃ cs, writing? flaw d = some (.ok cs) ∧ read cs = .ok a := by
  unfold written at h
  split at h
  · cases h
  · cases h
  · exact ⟨_, ‹_›, h⟩

theorem representable_float : Yields float Binary.Representable := by
  intro d x hd h
  unfold float at h
  split at h
  case h_1 =>
    cases h
    cases hd with
    | float number => exact number
  case h_2 =>
    dsimp only at h
    split_ifs at h
    · cases h
    · cases h
      exact representable_ofInt _
  case h_3 =>
    cases h
    exact representable_ofInt _
  case h_4 =>
    obtain ⟨cs, -, hread⟩ := written_eq_ok h
    cases hx : writtenFloat? cs with
    | none =>
      rw [hx] at hread
      cases hread
    | some y =>
      rw [hx] at hread
      cases hread
      exact representable_writtenFloat? hx

theorem sound_text : Yields text fun s => Text.Sound s.toList := by
  intro d s hd h
  cases hd with
  | text codes =>
    cases h
    exact codes
  | null | bool | int | float | list | map => cases h

/-! ### integers -/

theorem short_of_lt_word {i : Int} (h : i.natAbs < wordLimit) : Decimal.isLong i = false := by
  have hword : wordLimit ≤ 10 ^ 19 := by decide
  exact Json.not_isLong_of_lt (Nat.lt_of_lt_of_le h hword) (by decide)

theorem short_plainInt {cs : List Char} {i : Int} (h : plainInt cs = .ok i) :
    Decimal.isLong i = false := by
  unfold plainInt at h
  dsimp only at h
  generalize List.takeWhile Decimal.isDigit _ = ds at h
  have hmost : mostIntChars = Decimal.mostDigits := rfl
  split_ifs at h with hzero hone hneg hlong hmore hlong hmore
  all_goals cases h
  · exact short_of_lt_word (by decide)
  all_goals
    have hdigits : ds.length ≤ Decimal.mostDigits := by omega
    exact Json.digits_not_isLong hdigits (by simp)

theorem short_writtenInt {cs : List Char} {i : Int} (h : writtenInt cs = .ok i) :
    Decimal.isLong i = false := by
  unfold writtenInt at h
  split at h
  · cases hclean : cleanInt? cs with
    | none =>
      rw [hclean] at h
      cases h
    | some ds =>
      rw [hclean] at h
      exact short_plainInt h
  · exact short_plainInt h

theorem short_int : Yields int fun i => Decimal.isLong i = false := by
  intro d i hd h
  unfold int at h
  split at h
  case h_1 =>
    cases h
    cases hd with
    | int short => exact short
  case h_2 b =>
    cases h
    exact short_of_lt_word (by cases b <;> decide)
  case h_3 =>
    split at h
    · cases h
    · split_ifs at h with hfraction hlarge
      · cases h
      · cases h
      · cases h
        exact short_of_lt_word (Nat.lt_of_not_le hlarge)
  case h_4 =>
    obtain ⟨cs, -, hread⟩ := written_eq_ok h
    unfold readInt at hread
    split at hread <;> cases hread
    exact short_writtenInt ‹_›

theorem short_nat : Yields nat fun n => Decimal.isLong n = false := by
  intro d n hd h
  unfold nat intFrom at h
  simp only [bind_eq_ok_iff, atLeast_eq_ok_iff] at h
  obtain ⟨_, ⟨i, hi, hpos, rfl⟩, h⟩ := h
  cases h
  rw [Int.toNat_of_nonneg hpos]
  exact short_int hd hi

/-! ### values, lists and fields -/

theorem Yields.optional {α : Type} {read : Datum → Intake α} {P : α → Prop}
    (hread : Yields read P) : Yields (optional read) fun a => ∀ b ∈ a, P b := by
  intro d a hd h
  unfold Intake.optional at h
  split at h
  · cases h
    rintro b ⟨⟩
  · cases hb : read d with
    | error i =>
      rw [hb] at h
      cases h
    | ok b =>
      rw [hb] at h
      cases h
      rintro _ ⟨⟩
      exact hread hd hb

theorem given_of_entries? {d : Datum} (hd : Given d) {es : Entries} (h : entries? d = some es) :
    Given (.map es) := by
  cases hd with
  | map names codes values =>
    cases h
    exact .map names codes values
  | null | bool | int | float | text | list => cases h

/-- The items of a list are read from data that JSON gives too. -/
theorem Yields.list {α : Type} {read : Datum → Intake α} {P : α → Prop} (hread : Yields read P) :
    Yields (list read) fun as => ∀ a ∈ as, P a := by
  intro d as hd h
  cases hd with
  | @list ds items =>
    intro a ha
    obtain ⟨d, hd, hda⟩ := exists_of_mem_right (list_eq_ok_iff.mp h) ha
    exact hread (items d hd) hda
  | null | bool | int | float | text | map => cases h

section
variable {es : Entries} (hes : Given (.map es)) {names : List String}
include hes

theorem given_of_find? {n : String} {d : Datum} (h : Datum.find? es n = some d) : Given d := by
  obtain ⟨e, he, rfl⟩ := Option.map_eq_some_iff.mp h
  cases hes with
  | map names codes values => exact values e (List.mem_of_find?_eq_some he)

theorem given_of_lookup {n : String} {d : Datum} (h : lookup es names = some (n, d)) :
    Given d := by
  induction names with
  | nil => cases h
  | cons name names ih =>
    rw [lookup] at h
    cases hfind : Datum.find? es name with
    | none =>
      rw [hfind] at h
      exact ih h
    | some d' =>
      rw [hfind] at h
      cases h
      exact given_of_find? hes hfind

theorem Yields.field {α : Type} {read : Datum → Intake α} {P : α → Prop} (hread : Yields read P)
    {a : α} (h : field es names read = .ok a) : P a := by
  obtain ⟨n, d, hlookup, hda⟩ := field_eq_ok_iff.mp h
  exact hread (given_of_lookup hes hlookup) hda

theorem Yields.fieldOr {α : Type} {read : Datum → Intake α} {P : α → Prop}
    (hread : Yields read P) {missing a : α} (hmissing : P missing)
    (h : fieldOr es names missing read = .ok a) : P a := by
  rcases fieldOr_eq_ok_iff.mp h with ⟨-, rfl⟩ | ⟨n, d, hlookup, hda⟩
  · exact hmissing
  · exact hread (given_of_lookup hes hlookup) hda

end

end Intake

end Ladybug
