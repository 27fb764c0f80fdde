import Ladybug.Intake.Basic
import Mathlib.Data.List.Forall2

/-!
# What is taken from a document

Each way of reading is said by what it takes: a list is read just if every item is, and a field is
looked up under the first of its names that occurs.

* `bind_eq_ok_iff`, `mapM_eq_ok_iff`   steps one after the other, and for every item
* `Intake.list_eq_ok_iff`              lists
* `Intake.field_eq_ok_iff`, `Intake.fieldOr_eq_ok_iff`   fields
-/

namespace Ladybug

section
variable {ε α β : Type}

theorem ok_bind (a : α) (f : α → Except ε β) : (Except.ok a >>= f) = f a := rfl

theorem bind_eq_ok_iff {x : Except ε α} {f : α → Except ε β} {b : β} :
    (x >>= f) = .ok b ↔ ∃ a, x = .ok a ∧ f a = .ok b := by
  cases x with
  | error e =>
    constructor
    · exact nofun
    · rintro ⟨a, h, -⟩
      cases h
  | ok a =>
    rw [ok_bind]
    constructor
    · intro h
      exact ⟨a, rfl, h⟩
    · rintro ⟨_, ⟨⟩, h⟩
      exact h

theorem toOption_eq_some_iff {x : Except ε α} {a : α} : x.toOption = some a ↔ x = .ok a := by
  cases x with
  | error e => exact ⟨nofun, nofun⟩
  | ok b => rw [Except.toOption, Option.some.injEq, Except.ok.injEq]

/-- A list is read just if each of its items is, one after the other. -/
theorem mapM_eq_ok_iff {read : β → Except ε α} {ds : List β} {as : List α} :
    ds.mapM read = .ok as ↔ List.Forall₂ (fun d a => read d = .ok a) ds as := by
  induction ds generalizing as with
  | nil =>
    rw [List.mapM_nil, List.forall₂_nil_left_iff]
    constructor
    · rintro ⟨⟩
      rfl
    · rintro rfl
      rfl
  | cons d ds ih =>
    rw [List.mapM_cons, List.forall₂_cons_left_iff]
    simp only [bind_eq_ok_iff, ih]
    constructor
    · rintro ⟨a, ha, as', has, ⟨⟩⟩
      exact ⟨a, as', ha, has, rfl⟩
    · rintro ⟨a, as', ha, has, rfl⟩
      exact ⟨a, ha, as', has, rfl⟩

/-- the same for items that are written one by one -/
theorem mapM_map_of_forall {read : β → Except ε α} {g : α → β} {as : List α}
    (h : ∀ a ∈ as, read (g a) = .ok a) : (as.map g).mapM read = .ok as :=
  mapM_eq_ok_iff.mpr (List.forall₂_map_left_iff.mpr (List.forall₂_same.mpr h))

end

namespace Intake

variable {α : Type} {read : Datum → Intake α}

theorem under_eq_ok_iff {step : String} {x : Intake α} {a : α} :
    under step x = .ok a ↔ x = .ok a := by
  cases x with
  | ok b => rfl
  | error i => exact ⟨nofun, nofun⟩

theorem atLeast_eq_ok_iff {least i j : Int} : atLeast least i = .ok j ↔ least ≤ i ∧ i = j := by
  unfold atLeast
  split_ifs with h
  · exact ⟨nofun, fun hle => absurd hle.1 (Int.not_le.mpr h)⟩
  · rw [Except.ok.injEq, and_iff_right (Int.not_lt.mp h)]

theorem atMost_eq_ok_iff {greatest i j : Int} :
    atMost greatest i = .ok j ↔ i ≤ greatest ∧ i = j := by
  unfold atMost
  split_ifs with h
  · exact ⟨nofun, fun hle => absurd hle.1 (Int.not_le.mpr h)⟩
  · rw [Except.ok.injEq, and_iff_right (Int.not_lt.mp h)]

theorem intFrom_of_le {least i : Int} (h : least ≤ i) : intFrom least (.int i) = .ok i :=
  if_neg (Int.not_lt.mpr h)

theorem nat_ofNat (n : Nat) : nat (.int n) = .ok n := by
  rw [nat, intFrom_of_le (Int.natCast_nonneg n)]
  rfl

theorem items_eq_ok_iff {i : Nat} {ds : List Datum} {as : List α} :
    items read i ds = .ok as ↔ List.Forall₂ (fun d a => read d = .ok a) ds as := by
  induction ds generalizing i as with
  | nil =>
    rw [items, List.forall₂_nil_left_iff, Except.ok.injEq]
    exact eq_comm
  | cons d ds ih =>
    rw [items, List.forall₂_cons_left_iff]
    simp only [bind_eq_ok_iff, under_eq_ok_iff, ih]
    constructor
    · rintro ⟨a, ha, as', has, ⟨⟩⟩
      exact ⟨a, as', ha, has, rfl⟩
    · rintro ⟨a, as', ha, has, rfl⟩
      exact ⟨a, ha, as', has, rfl⟩

theorem list_eq_ok_iff {ds : List Datum} {as : List α} :
    list read (.list ds) = .ok as ↔ List.Forall₂ (fun d a => read d = .ok a) ds as :=
  items_eq_ok_iff

theorem list_map_of_forall {g : α → Datum} {as : List α} (h : ∀ a ∈ as, read (g a) = .ok a) :
    list read (.list (as.map g)) = .ok as :=
  list_eq_ok_iff.mpr (List.forall₂_map_left_iff.mpr (List.forall₂_same.mpr h))

theorem record_eq_ok_iff {name : String} {d : Datum} {es : Entries} :
    record name d = .ok es ↔ entries? d = some es := by
  unfold record
  cases h : entries? d with
  | none => exact ⟨nofun, nofun⟩
  | some es' => rw [Except.ok.injEq, Option.some.injEq]

section
variable {es : Entries} {names : List String} {a : α}

theorem field_eq_ok_iff : field es names read = .ok a ↔
    ∃ n d, lookup es names = some (n, d) ∧ read d = .ok a := by
  unfold field
  cases h : lookup es names with
  | none =>
    constructor
    · exact nofun
    · rintro ⟨n, d, ⟨⟩, -⟩
  | some e =>
    obtain ⟨n, d⟩ := e
    simp only [under_eq_ok_iff]
    constructor
    · intro hd
      exact ⟨n, d, rfl, hd⟩
    · rintro ⟨_, _, ⟨⟩, hd⟩
      exact hd

theorem fieldOr_eq_ok_iff {missing : α} : fieldOr es names missing read = .ok a ↔
    (lookup es names = none ∧ missing = a) ∨
      ∃ n d, lookup es names = some (n, d) ∧ read d = .ok a := by
  unfold fieldOr
  cases h : lookup es names with
  | none =>
    constructor
    · rintro ⟨⟩
      exact .inl ⟨rfl, rfl⟩
    · rintro (⟨-, rfl⟩ | ⟨n, d, ⟨⟩, -⟩)
      rfl
  | some e =>
    obtain ⟨n, d⟩ := e
    simp only [under_eq_ok_iff]
    constructor
    · intro hd
      exact .inr ⟨n, d, rfl, hd⟩
    · rintro (⟨⟨⟩, -⟩ | ⟨_, _, ⟨⟩, hd⟩)
      exact hd

variable {n : String} {ns : List String} {d : Datum}

theorem lookup_of_find? (h : Datum.find? es n = some d) : lookup es (n :: ns) = some (n, d) := by
  rw [lookup, h]

theorem field_found_iff (h : Datum.find? es n = some d) :
    field es (n :: ns) read = .ok a ↔ read d = .ok a := by
  rw [field, lookup_of_find? h]
  exact under_eq_ok_iff

theorem field_of_find? (h : Datum.find? es n = some d) (hread : read d = .ok a) :
    field es (n :: ns) read = .ok a :=
  (field_found_iff h).mpr hread

theorem fieldOr_found_iff {missing : α} (h : Datum.find? es n = some d) :
    fieldOr es (n :: ns) missing read = .ok a ↔ read d = .ok a := by
  rw [fieldOr, lookup_of_find? h]
  exact under_eq_ok_iff

theorem fieldOr_of_find? {missing : α} (h : Datum.find? es n = some d) (hread : read d = .ok a) :
    fieldOr es (n :: ns) missing read = .ok a :=
  (fieldOr_found_iff h).mpr hread

end

end Intake

end Ladybug
